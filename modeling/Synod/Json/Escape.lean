import Synod.Json.Lexer
import Synod.Text.Utf8

/-!
# Text inside JSON strings

`escape` writes the bytes of a text between quotes: quotes, backslashes and control characters
are escaped and all other bytes stand for themselves. `unescape` reads every escape, pairs of
surrogates included; a surrogate without its partner has no meaning.
-/
namespace Synod.Json

/-- A lower-case hexadecimal digit. -/
def hexDigit (n : Nat) : UInt8 := UInt8.ofNat (if n % 16 < 10 then 48 + n % 16 else 87 + n % 16)

def escapeByte (b : UInt8) : List UInt8 :=
  if b = 34 then ascii "\\\""
  else if b = 92 then ascii "\\\\"
  else if b = 8 then ascii "\\b"
  else if b = 9 then ascii "\\t"
  else if b = 10 then ascii "\\n"
  else if b = 12 then ascii "\\f"
  else if b = 13 then ascii "\\r"
  else if b < 32 then ascii "\\u00" ++ [hexDigit (b.toNat / 16), hexDigit b.toNat]
  else [b]

def escape (bytes : List UInt8) : List UInt8 := bytes.flatMap escapeByte

/-- The byte that a letter after a backslash stands for. -/
def unescapeLetter (b : UInt8) : UInt8 :=
  if b = 98 then 8
  else if b = 116 then 9
  else if b = 110 then 10
  else if b = 102 then 12
  else if b = 114 then 13
  else b

def hexValue (b : UInt8) : Nat :=
  if b ≤ 57 then b.toNat - 48 else if b ≤ 70 then b.toNat - 55 else b.toNat - 87

/-- The number that four hexadecimal digits write. -/
def hexValue4 (a b c d : UInt8) : Nat :=
  ((hexValue a * 16 + hexValue b) * 16 + hexValue c) * 16 + hexValue d

/-- The bytes of one character. -/
def charBytes (n : Nat) : List UInt8 := Text.toBytes (String.singleton (Char.ofNat n))

/-- The bytes that the inside of a string stands for, `high` being a first surrogate that waits
for its partner. -/
def unescapeFrom : (high : Option Nat) → List UInt8 → Option (List UInt8)
  | none, [] => some []
  | some _, [] => none
  | none, 92 :: 117 :: a :: b :: c :: d :: rest =>
    let unit := hexValue4 a b c d
    if 0xD800 ≤ unit ∧ unit < 0xDC00 then unescapeFrom (some unit) rest
    else if 0xDC00 ≤ unit ∧ unit < 0xE000 then none
    else (unescapeFrom none rest).map (charBytes unit ++ ·)
  | some high, 92 :: 117 :: a :: b :: c :: d :: rest =>
    let unit := hexValue4 a b c d
    if 0xDC00 ≤ unit ∧ unit < 0xE000 then
      (unescapeFrom none rest).map
        (charBytes (0x10000 + (high - 0xD800) * 0x400 + (unit - 0xDC00)) ++ ·)
    else none
  | none, 92 :: b :: rest => (unescapeFrom none rest).map (unescapeLetter b :: ·)
  | none, b :: rest => (unescapeFrom none rest).map (b :: ·)
  | some _, _ :: _ => none

def unescape (raw : List UInt8) : Option (List UInt8) := unescapeFrom none raw

/-- The text that the inside of a string stands for, if it is text. -/
def text? (raw : List UInt8) : Option String := (unescape raw).bind Text.ofBytes?

/-- The inside of a string that stands for a text. -/
def ofText (s : String) : List UInt8 := escape (Text.toBytes s)

end Synod.Json
