/-!
# JSON values

Values and tokens as they are written. A string is the bytes between its quotes and a number is
its digits and signs, so a value that nobody looks into keeps whatever its text holds: what the
bytes of a string mean, and whether a number fits a word, is asked only where it is needed.
-/
namespace Synod

inductive Json
  | null
  | bool (b : Bool)
  | number (lexeme : List UInt8)
  | string (raw : List UInt8)
  | array (items : List Json)
  | object (members : List (List UInt8 × Json))

namespace Json

inductive Token
  | leftBracket
  | rightBracket
  | leftBrace
  | rightBrace
  | colon
  | comma
  | null
  | bool (b : Bool)
  | number (lexeme : List UInt8)
  | string (raw : List UInt8)
  deriving DecidableEq, Repr

/-- The bytes of a text that is plain ASCII. -/
def ascii (s : String) : List UInt8 := s.toList.map fun c => UInt8.ofNat c.toNat

/-- How a token is written. -/
def Token.spell : Token → List UInt8
  | leftBracket => ascii "["
  | rightBracket => ascii "]"
  | leftBrace => ascii "\x7b"
  | rightBrace => ascii "\x7d"
  | colon => ascii ":"
  | comma => ascii ","
  | null => ascii "null"
  | bool true => ascii "true"
  | bool false => ascii "false"
  | number lexeme => lexeme
  | string raw => 34 :: raw ++ [34]

end Json
end Synod
