import Synod.Json.Basic
import Synod.Text.Numeral

/-!
# JSON tokens of a text

A text is read byte by byte. Between tokens only blanks may stand; a number ends where a byte no
longer continues it, and every other token has an end of its own. Any bytes but control
characters may stand in a string, and after a backslash one of the known escapes.
-/
namespace Synod.Json

/-- How much of a number has been read. -/
inductive NumberPart
  | minus
  | zero
  | whole
  | point
  | fraction
  | exponent
  | exponentSign
  | exponentDigits
  deriving DecidableEq, Repr

namespace NumberPart

/-- The part that a byte continues a number with, if it does. -/
def next? : NumberPart → UInt8 → Option NumberPart
  | minus, b => if b = 48 then some zero else if Numeral.isDigit b then some whole else none
  | zero, b => afterWhole b
  | whole, b => if Numeral.isDigit b then some whole else afterWhole b
  | point, b => if Numeral.isDigit b then some fraction else none
  | fraction, b =>
    if Numeral.isDigit b then some fraction
    else if b = 101 ∨ b = 69 then some exponent
    else none
  | exponent, b =>
    if b = 43 ∨ b = 45 then some exponentSign
    else if Numeral.isDigit b then some exponentDigits
    else none
  | exponentSign, b => if Numeral.isDigit b then some exponentDigits else none
  | exponentDigits, b => if Numeral.isDigit b then some exponentDigits else none
where
  /-- A point or an exponent. -/
  afterWhole (b : UInt8) : Option NumberPart :=
    if b = 46 then some point
    else if b = 101 ∨ b = 69 then some exponent
    else none

/-- Whether a number may end here. -/
def isEnd : NumberPart → Bool
  | zero | whole | fraction | exponentDigits => true
  | _ => false

end NumberPart

/-- Where in a string the reading stands: in plain text, after a backslash, or before a number
of hexadecimal digits. -/
inductive StringPart
  | plain
  | escape
  | hex (due : Nat)
  deriving DecidableEq, Repr

def isHex (b : UInt8) : Bool :=
  Numeral.isDigit b || decide (65 ≤ b ∧ b ≤ 70) || decide (97 ≤ b ∧ b ≤ 102)

/-- The letters that may follow a backslash, but for the one that announces digits. -/
def escapes : List UInt8 := ascii "\"\\/bfnrt"

/-- The part of a string after one more byte, which does not end it. -/
def StringPart.next? : StringPart → UInt8 → Option StringPart
  | plain, b => if b = 92 then some escape else if b < 32 then none else some plain
  | escape, b => if b = 117 then some (hex 4) else if b ∈ escapes then some plain else none
  | hex due, b => if isHex b then some (if due ≤ 1 then plain else hex (due - 1)) else none

/-- The token under way. Bytes read are kept last first. -/
inductive Mode
  | between
  | word (due : List UInt8) (token : Token)
  | number (lexeme : List UInt8) (part : NumberPart)
  | string (raw : List UInt8) (part : StringPart)

def isBlank (b : UInt8) : Bool := b == 32 || b == 9 || b == 10 || b == 13

/-- The token that a single byte is. -/
def punctuation? (b : UInt8) : Option Token :=
  if b = 91 then some .leftBracket
  else if b = 93 then some .rightBracket
  else if b = 123 then some .leftBrace
  else if b = 125 then some .rightBrace
  else if b = 58 then some .colon
  else if b = 44 then some .comma
  else none

/-- A byte between tokens: the token that it completes, if any, and what is under way then. -/
def Mode.begin? (b : UInt8) : Option (Option Token × Mode) :=
  if isBlank b then some (none, .between)
  else match punctuation? b with
    | some t => some (some t, .between)
    | none =>
      if b = 34 then some (none, .string [] .plain)
      else if b = 45 then some (none, .number [b] .minus)
      else if b = 48 then some (none, .number [b] .zero)
      else if Numeral.isDigit b then some (none, .number [b] .whole)
      else if b = 110 then some (none, .word (ascii "ull") .null)
      else if b = 116 then some (none, .word (ascii "rue") (.bool true))
      else if b = 102 then some (none, .word (ascii "alse") (.bool false))
      else none

/-- One byte more: the tokens that it completes, and what is under way then. -/
def Mode.advance? : Mode → UInt8 → Option (List Token × Mode)
  | between, b => (begin? b).map fun (t, m) => (t.toList, m)
  | word [] _, _ => none
  | word [c] t, b => if b = c then some ([t], between) else none
  | word (c :: due) t, b => if b = c then some ([], word due t) else none
  | number lexeme part, b =>
    match part.next? b with
    | some part => some ([], number (b :: lexeme) part)
    | none =>
      if part.isEnd then (begin? b).map fun (t, m) => (.number lexeme.reverse :: t.toList, m)
      else none
  | string raw part, b =>
    if part = .plain ∧ b = 34 then some ([.string raw.reverse], between)
    else (part.next? b).map fun part => ([], string (b :: raw) part)

/-- The tokens that the end of the text completes. -/
def Mode.finish? : Mode → Option (List Token)
  | between => some []
  | number lexeme part => if part.isEnd then some [.number lexeme.reverse] else none
  | _ => none

/-- The tokens of the rest of a text, after those already read, last first. -/
def lexFrom (read : List Token) (m : Mode) : List UInt8 → Option (List Token)
  | [] => m.finish?.map (read.reverse ++ ·)
  | b :: rest =>
    match m.advance? b with
    | none => none
    | some (tokens, m) => lexFrom (tokens.reverse ++ read) m rest

/-- The tokens of a text, unless some part of it is no token. -/
def lex (text : List UInt8) : Option (List Token) := lexFrom [] .between text

end Synod.Json
