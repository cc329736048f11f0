import Synod.Text.Blank

/-!
# Characters of patterns

What a character of a pattern means depends on the setting of the group that it stands in. There
are no tables of characters here: so no character can be taken whatever its case, and there are
no classes of characters, unless the setting makes do with ASCII.
-/
namespace Synod.LogFilter.Pattern

/-- How the characters of a pattern are meant. -/
structure Setting where
  /-- As characters of any kind, and not as bytes. -/
  unicode : Bool
  caseless : Bool
  /-- Blanks and comments between them do not count. -/
  spaced : Bool
  deriving DecidableEq, Repr

namespace Setting

def standard : Setting := ⟨true, false, false⟩

/-- The setting that flags make of one. Those behind a hyphen are taken away. -/
def change? (s : Setting) : (on : Bool) → List Char → Option Setting
  | _, [] => some s
  | on, flag :: rest =>
    match flag with
    | '-' => s.change? false rest
    | 'i' => { s with caseless := on }.change? on rest
    | 'u' => { s with unicode := on }.change? on rest
    | 'x' => { s with spaced := on }.change? on rest
    | 'm' | 's' | 'U' | 'R' => s.change? on rest
    | _ => none

/-- Whether a character may stand outside of sets. -/
def takes (s : Setting) : Bool := !s.unicode || !s.caseless

/-- Whether the character with a certain number may stand in a set. -/
def takesInSet (s : Setting) (code : Nat) : Bool :=
  if s.unicode then !s.caseless else decide (code < 128)

/-- Whether a class of characters of ASCII, or all others, may stand in a set. -/
def takesClass (s : Setting) (negated : Bool) : Bool :=
  if s.unicode then !s.caseless else !negated

end Setting

/-- A text from its first character on that is neither blank nor in a comment. A comment is all
that stands in a line behind a number sign. -/
def skipFrom : (inComment : Bool) → List Char → List Char
  | _, [] => []
  | true, c :: rest => skipFrom (decide (c ≠ '\n')) rest
  | false, c :: rest =>
    if Text.isBlank c then skipFrom false rest
    else if c = '#' then skipFrom true rest
    else c :: rest

/-- A text from its first character on that counts. -/
def Setting.skip (s : Setting) (cs : List Char) : List Char :=
  if s.spaced then skipFrom false cs else cs

/-- What a single character, or one behind a backslash, stands for. -/
inductive Atom
  | character (code : Nat)
  /-- A class of characters. -/
  | kind
  /-- A place between characters. -/
  | place
  deriving DecidableEq, Repr

def hexValue? (c : Char) : Option Nat :=
  if c.isDigit then some (c.toNat - 48)
  else if 'a' ≤ c ∧ c ≤ 'f' then some (c.toNat - 87)
  else if 'A' ≤ c ∧ c ≤ 'F' then some (c.toNat - 55)
  else none

/-- A number of so many hexadecimal digits, `value` being what those in front of them write. -/
def digits? (s : Setting) : (due value : Nat) → List Char → Option (Nat × List Char)
  | 0, value, cs => some (value, s.skip cs)
  | due + 1, value, cs =>
    match s.skip cs with
    | [] => none
    | c :: rest => (hexValue? c).bind fun digit => digits? s due (value * 16 + digit) rest

/-- The character with a number of so many digits. If characters are bytes, two digits write one,
which then has to be of ASCII. -/
def numbered? (s : Setting) (due : Nat) (cs : List Char) : Option (Atom × List Char) := do
  let (code, rest) ← digits? s due 0 cs
  if code.isValidChar ∧ (s.unicode ∨ 2 < due ∨ code < 128) then return (.character code, rest)
  else none

/-- The number of the character that a letter behind a backslash stands for. -/
def control? : Char → Option Nat
  | 'a' => some 7
  | 't' => some 9
  | 'n' => some 10
  | 'v' => some 11
  | 'f' => some 12
  | 'r' => some 13
  | _ => none

/-- What stands behind a backslash, and the text that follows. Marks of ASCII stand for
themselves. -/
def escape? (s : Setting) : List Char → Option (Atom × List Char)
  | [] => none
  | 'x' :: rest => numbered? s 2 rest
  | 'u' :: rest => numbered? s 4 rest
  | 'U' :: rest => numbered? s 8 rest
  | c :: rest =>
    match control? c with
    | some code => some (.character code, rest)
    | none =>
      if c ∈ ['d', 's', 'w'] then if s.unicode then none else some (.kind, rest)
      else if c ∈ ['A', 'z'] then some (.place, rest)
      else if c ∈ ['b', 'B', '<', '>'] then if s.unicode then none else some (.place, rest)
      else if c.isAlphanum ∨ 128 ≤ c.toNat then none
      else some (.character c.toNat, rest)

/-- How deep parts that stand side by side are nested; a part that stands alone is not in anything. -/
def beside : List Nat → Nat
  | [] => 0
  | [depth] => depth
  | depths => depths.foldl max 0 + 1

end Synod.LogFilter.Pattern
