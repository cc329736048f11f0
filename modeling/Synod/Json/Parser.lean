import Synod.Json.Lexer

/-!
# JSON values of a text

Values nest to any depth, so the brackets that are open are kept in a list and the tokens are
taken one by one. `parse` reads the tokens of exactly one value.
-/
namespace Synod.Json

/-- An open bracket and what stands in it so far, last first; in an object also the key whose
value is under way. -/
inductive Frame
  | array (items : List Json)
  | object (members : List (List UInt8 × Json)) (key : List UInt8)

/-- What may come next, inside the brackets `outer`. -/
inductive Reading
  | value (outer : List Frame)
  /-- An array was just opened. -/
  | firstItem (outer : List Frame)
  /-- A key has to follow, or the end of an object just opened. -/
  | key (opened : Bool) (members : List (List UInt8 × Json)) (outer : List Frame)
  | colon (members : List (List UInt8 × Json)) (key : List UInt8) (outer : List Frame)
  /-- A value is complete. -/
  | complete (v : Json) (outer : List Frame)

namespace Reading

/-- A token where a value has to begin. -/
def beginValue? (outer : List Frame) : Token → Option Reading
  | .null => some (complete .null outer)
  | .bool b => some (complete (.bool b) outer)
  | .number lexeme => some (complete (.number lexeme) outer)
  | .string raw => some (complete (.string raw) outer)
  | .leftBracket => some (firstItem outer)
  | .leftBrace => some (key true [] outer)
  | _ => none

def next? : Reading → Token → Option Reading
  | value outer, t => beginValue? outer t
  | firstItem outer, .rightBracket => some (complete (.array []) outer)
  | firstItem outer, t => beginValue? (.array [] :: outer) t
  | key _ members outer, .string raw => some (colon members raw outer)
  | key true _ outer, .rightBrace => some (complete (.object []) outer)
  | key _ _ _, _ => none
  | colon members k outer, .colon => some (value (.object members k :: outer))
  | colon _ _ _, _ => none
  | complete v (.array items :: outer), .comma => some (value (.array (v :: items) :: outer))
  | complete v (.array items :: outer), .rightBracket =>
    some (complete (.array (v :: items).reverse) outer)
  | complete v (.object members k :: outer), .comma => some (key false ((k, v) :: members) outer)
  | complete v (.object members k :: outer), .rightBrace =>
    some (complete (.object ((k, v) :: members).reverse) outer)
  | complete _ _, _ => none

/-- The value read, if it is complete and no bracket is open. -/
def finish? : Reading → Option Json
  | complete v [] => some v
  | _ => none

def run (r : Reading) : List Token → Option Json
  | [] => r.finish?
  | t :: rest =>
    match r.next? t with
    | none => none
    | some r => run r rest

end Reading

/-- The value that some tokens write. -/
def parse (tokens : List Token) : Option Json := (Reading.value []).run tokens

/-- The value that a text writes. -/
def read? (text : List UInt8) : Option Json := (lex text).bind parse

end Synod.Json
