import Synod.LogFilter.Pattern.Basic

/-!
# Sets of characters in patterns

A set stands in brackets and has characters, ranges, classes and sets as items. Operators stand
between items, and each takes all that is in front of it as its first operand. What a set holds is
never asked, only whether it can be read and how deep it is nested.
-/
namespace Synod.LogFilter.Pattern

/-- A set that is not closed yet: how deep the operand in front of the last operator is nested,
and the items behind it. -/
structure OpenSet where
  operand : Option Nat
  items : List Nat
  /-- No item has been read but hyphens, which stand for themselves here. -/
  fresh : Bool
  deriving DecidableEq, Repr

namespace OpenSet

def new : OpenSet := ⟨none, [], true⟩

def add (o : OpenSet) (depth : Nat) : OpenSet := { o with items := depth :: o.items, fresh := false }

def depth (o : OpenSet) : Nat :=
  match o.operand with
  | none => beside o.items
  | some depth => max depth (beside o.items) + 1

/-- A set in which an operator has been read. -/
def operate (o : OpenSet) : OpenSet := ⟨some o.depth, [], false⟩

end OpenSet

def classNames : List String :=
  ["alnum", "alpha", "ascii", "blank", "cntrl", "digit", "graph", "lower", "print", "punct",
    "space", "upper", "word", "xdigit"]

/-- The class that is named behind an opening bracket: whether all other characters are meant, and
the text that follows. What names no class begins a set. -/
def className? (cs : List Char) : Option (Bool × List Char) :=
  let named (negated : Bool) (cs : List Char) : Option (Bool × List Char) :=
    match cs.dropWhile (· ≠ ':') with
    | ':' :: ']' :: rest =>
      if String.ofList (cs.takeWhile (· ≠ ':')) ∈ classNames then some (negated, rest) else none
    | _ => none
  match cs with
  | ':' :: '^' :: rest => named true rest
  | ':' :: rest => named false rest
  | _ => none

/-- A set just opened, and the text behind the mark that negates it. Bytes cannot be negated,
because then some of them would write no character. -/
def openSet? (s : Setting) (cs : List Char) : Option (List Char) :=
  match s.skip cs with
  | '^' :: rest => if s.unicode then some rest else none
  | rest => some rest

/-- A single character, or what stands behind a backslash. -/
def atom? (s : Setting) : List Char → Option (Atom × List Char)
  | [] => none
  | '\\' :: rest => escape? s rest
  | c :: rest => some (.character c.toNat, rest)

/-- Whether a hyphen stands for itself, because of what comes behind it: the end of the set, or a
hyphen. The number sign of a comment does not count here, but what the comment says does. -/
def standsAlone (s : Setting) (behind : List Char) : Bool :=
  let next := if s.spaced then
      match behind.dropWhile Text.isBlank with
      | '#' :: comment => (comment.dropWhile Text.isBlank).head?
      | cs => cs.head?
    else behind.head?
  next = some ']' || next = some '-'

/-- Whether something may be an item of a set. -/
def Atom.isItem (s : Setting) : Atom → Bool
  | .character code => s.takesInSet code
  | .kind => true
  | .place => false

/-- A range, or an item of another kind, and the text that follows. -/
def item? (s : Setting) (cs : List Char) : Option (List Char) := do
  let (first, rest) ← atom? s cs
  match s.skip rest with
  | '-' :: behind =>
    if standsAlone s behind then
      if first.isItem s then return '-' :: behind else none
    else
      let (last, rest) ← atom? s (s.skip behind)
      match first, last with
      | .character a, .character b =>
        if a ≤ b ∧ s.takesInSet a ∧ s.takesInSet b then return rest else none
      | _, _ => none
  | rest => if first.isItem s then return rest else none

/-- Reads on in the set `here`, which is in the sets `outer`, to the end of the outermost one: how
deep that is nested, and the text that follows. Every step reads a character, so that there are no
more steps than characters. -/
def readSet (s : Setting) :
    (left : Nat) → (outer : List OpenSet) → (here : OpenSet) → List Char → Option (Nat × List Char)
  | 0, _, _, _ => none
  | left + 1, outer, here, cs =>
    match s.skip cs with
    | [] => none
    | c :: rest =>
      if here.fresh ∧ (c = '-' ∨ c = ']' ∧ here.items = []) then
        if s.takesInSet c.toNat then
          readSet s left outer { here.add 0 with fresh := decide (c = '-') } rest
        else none
      else
        match c, rest with
        | '[', rest =>
          match className? rest with
          | some (negated, rest) =>
            if s.takesClass negated then readSet s left outer (here.add 0) rest else none
          | none => (openSet? s rest).bind (readSet s left (here :: outer) OpenSet.new)
        | ']', rest =>
          match outer with
          | [] => some (here.depth + 1, rest)
          | around :: outer => readSet s left outer (around.add (here.depth + 1)) rest
        | '&', '&' :: rest | '-', '-' :: rest | '~', '~' :: rest =>
          readSet s left outer here.operate rest
        | _, _ => (item? s (c :: rest)).bind (readSet s left outer (here.add 0))

/-- A set, behind its opening bracket: how deep it is nested, and the text that follows. -/
def set? (s : Setting) (cs : List Char) : Option (Nat × List Char) :=
  (openSet? s cs).bind (readSet s (cs.length + 1) [] OpenSet.new)

end Synod.LogFilter.Pattern
