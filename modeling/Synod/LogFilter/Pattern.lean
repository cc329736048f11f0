import Synod.LogFilter.Pattern.CharSet
import Synod.Text.Alphanumeric

/-!
# Patterns for values

A directive may ask for the value of a field by a pattern. What a pattern fits is never asked
here, only whether it is one: `isPattern`. It is a sequence of parts, or several of them that are
alternatives, and may not be nested too deep. There are no counted repetitions, because their
closing brace ends the pattern, nor a look ahead or behind.
-/
namespace Synod.LogFilter.Pattern

/-- The inside of a group, or the pattern itself, as far as it is read: how deep each alternative
is nested, and each part of the last one, the last part first. A change of the setting stands
among the parts but cannot be repeated: it is `none`. -/
structure Level where
  setting : Setting
  alternatives : List Nat
  parts : List (Option Nat)
  deriving DecidableEq, Repr

namespace Level

def new (s : Setting) : Level := ⟨s, [], []⟩

def add (l : Level) (depth : Nat) : Level := { l with parts := some depth :: l.parts }

def change (l : Level) (s : Setting) : Level := { l with setting := s, parts := none :: l.parts }

/-- A level whose next alternative begins. -/
def alternate (l : Level) : Level :=
  { l with alternatives := beside (l.parts.map (·.getD 0)) :: l.alternatives, parts := [] }

def depth (l : Level) : Nat := beside l.alternate.alternatives

/-- A level whose last part is repeated. -/
def repeat? (l : Level) : Option Level :=
  match l.parts with
  | some depth :: rest => some { l with parts := some (depth + 1) :: rest }
  | _ => none

end Level

/-- A pattern being read: the levels around, the level here, and the names given to groups. -/
structure Reader where
  outer : List Level
  here : Level
  names : List (List Char)
  deriving DecidableEq, Repr

namespace Reader

def start : Reader := ⟨[], .new .standard, []⟩

def setting (r : Reader) : Setting := r.here.setting

def add (r : Reader) (depth : Nat) : Reader := { r with here := r.here.add depth }

/-- A reader that has come into a group with a setting. -/
def enter (r : Reader) (s : Setting) : Reader := { r with outer := r.here :: r.outer, here := .new s }

/-- A reader that has come out of a group. -/
def leave? (r : Reader) : Option Reader :=
  match r.outer with
  | [] => none
  | around :: outer => some { r with outer, here := around.add (r.here.depth + 1) }

def isName : List Char → Bool
  | [] => false
  | c :: rest =>
    (c = '_' || Text.isAlphabetic c) &&
      rest.all fun c => c ∈ ['_', '.', '[', ']'] || Text.isAlphanumeric c

/-- A group with a name. -/
def named? (r : Reader) (cs : List Char) : Option (Reader × List Char) :=
  let name := cs.takeWhile (· ≠ '>')
  match cs.dropWhile (· ≠ '>') with
  | _ :: rest =>
    if isName name ∧ name ∉ r.names then
      some ({ r with names := name :: r.names }.enter r.setting, rest)
    else none
  | [] => none

/-- Flags, for a group or for the rest of the group around. None is given twice. -/
def flagged? (r : Reader) (cs : List Char) : Option (Reader × List Char) :=
  let isFlag (c : Char) : Bool := c ≠ ':' && c ≠ ')'
  let flags := cs.takeWhile isFlag
  if flags.Nodup ∧ flags.getLast? ≠ some '-' then
    match r.setting.change? true flags, cs.dropWhile isFlag with
    | some s, ':' :: rest => some (r.enter s, rest)
    | some s, ')' :: rest => if flags = [] then none else some ({ r with here := r.here.change s }, rest)
    | _, _ => none
  else none

/-- What stands behind an opening parenthesis. -/
def group? (r : Reader) (cs : List Char) : Option (Reader × List Char) :=
  match r.setting.skip cs with
  | '?' :: 'P' :: '<' :: rest | '?' :: '<' :: rest => r.named? rest
  | '?' :: rest => r.flagged? rest
  | rest => some (r.enter r.setting, rest)

/-- One character, and what belongs to it; and the text that follows. -/
def step? (r : Reader) (c : Char) (rest : List Char) : Option (Reader × List Char) :=
  match c with
  | '(' => r.group? rest
  | ')' => r.leave?.map (·, rest)
  | '|' => some ({ r with here := r.here.alternate }, rest)
  | '[' => (set? r.setting rest).map fun (depth, rest) => (r.add depth, rest)
  | '*' | '+' | '?' =>
    r.here.repeat?.map fun here =>
      ({ r with here }, match rest with
        | '?' :: rest => rest
        | _ => rest)
  | '\x7b' => none
  | '.' => if r.setting.unicode then some (r.add 0, rest) else none
  | '^' | '$' => some (r.add 0, rest)
  | _ =>
    match atom? r.setting (c :: rest) with
    | none => none
    | some (.character _, rest) => if r.setting.takes then some (r.add 0, rest) else none
    | some (_, rest) => some (r.add 0, rest)

/-- Reads to the end. Every step reads a character, so that there are no more steps than
characters. -/
def readAll (r : Reader) : (left : Nat) → List Char → Option Reader
  | left, cs =>
    match r.setting.skip cs, left with
    | [], _ => some r
    | _ :: _, 0 => none
    | c :: rest, left + 1 => (r.step? c rest).bind fun (r, rest) => r.readAll left rest

end Reader

/-- How deep a pattern may be nested. -/
def deepest : Nat := 250

end Pattern

def isPattern (text : List Char) : Bool :=
  match Pattern.Reader.start.readAll text.length text with
  | some r => r.outer.isEmpty && r.here.depth ≤ Pattern.deepest
  | none => false

end Synod.LogFilter
