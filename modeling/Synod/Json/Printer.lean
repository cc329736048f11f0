import Synod.Json.Basic

/-!
# Writing JSON

`tokens` are the tokens of a value, and the compact text is their spelling. The indented text
has every item and member on a line of its own, two blanks deeper than the bracket around it.
-/
namespace Synod.Json

mutual

/-- The tokens that write a value. -/
def tokens : Json → List Token
  | .null => [.null]
  | .bool b => [.bool b]
  | .number lexeme => [.number lexeme]
  | .string raw => [.string raw]
  | .array [] => [.leftBracket, .rightBracket]
  | .array (j :: rest) => .leftBracket :: tokens j ++ moreItems rest
  | .object [] => [.leftBrace, .rightBrace]
  | .object ((key, j) :: rest) =>
    .leftBrace :: .string key :: .colon :: tokens j ++ moreMembers rest

/-- The tokens of the items after the first, and of the end. -/
def moreItems : List Json → List Token
  | [] => [.rightBracket]
  | j :: rest => .comma :: tokens j ++ moreItems rest

def moreMembers : List (List UInt8 × Json) → List Token
  | [] => [.rightBrace]
  | (key, j) :: rest => .comma :: .string key :: .colon :: tokens j ++ moreMembers rest

end

/-- The text without any blanks. -/
def compact (j : Json) : List UInt8 := (tokens j).flatMap Token.spell

/-- A line break, and the indentation of the next line. -/
def newline (depth : Nat) : List UInt8 := 10 :: List.replicate (2 * depth) 32

/-- What stands between a bracket and the text of its first item or member, and so on. -/
def key (raw : List UInt8) : List UInt8 := Token.spell (.string raw) ++ ascii ": "

mutual

/-- The indented text of a value, inside `depth` brackets. -/
def prettyAt (depth : Nat) : Json → List UInt8
  | .null => Token.spell .null
  | .bool b => Token.spell (.bool b)
  | .number lexeme => Token.spell (.number lexeme)
  | .string raw => Token.spell (.string raw)
  | .array [] => ascii "[]"
  | .array (j :: rest) =>
    ascii "[" ++ newline (depth + 1) ++ prettyAt (depth + 1) j ++ prettyItems depth rest
  | .object [] => ascii "\x7b\x7d"
  | .object ((k, j) :: rest) =>
    ascii "\x7b" ++ newline (depth + 1) ++ key k ++ prettyAt (depth + 1) j ++ prettyMembers depth rest

def prettyItems (depth : Nat) : List Json → List UInt8
  | [] => newline depth ++ ascii "]"
  | j :: rest =>
    ascii "," ++ newline (depth + 1) ++ prettyAt (depth + 1) j ++ prettyItems depth rest

def prettyMembers (depth : Nat) : List (List UInt8 × Json) → List UInt8
  | [] => newline depth ++ ascii "\x7d"
  | (k, j) :: rest =>
    ascii "," ++ newline (depth + 1) ++ key k ++ prettyAt (depth + 1) j ++ prettyMembers depth rest

end

/-- The text with one item or member on each line. -/
def pretty (j : Json) : List UInt8 := prettyAt 0 j

end Synod.Json
