/-!
# Paths

A path is the list of parts between its slashes, as it is written: empty parts, dots and double
dots are kept, because whether they lead anywhere depends on what stands there. A `Location` is
where a path leads to: the names on the way from the root, with nothing left to work out.
-/
namespace Synod

/-- The names on the way from the root. -/
abbrev Location := List String

def Location.toString (l : Location) : String := String.intercalate "/" l

structure Path where
  parts : List String
  deriving DecidableEq, Repr

namespace Path

def ofString (s : String) : Path := ⟨s.splitOn "/"⟩

def toString (p : Path) : String := String.intercalate "/" p.parts

/-- Whether a path starts at the root: a slash comes first. -/
def isAbsolute (p : Path) : Bool := decide (p.parts.head? = some "" ∧ 1 < p.parts.length)

/-- A path with the slashes at its end taken away. -/
def withoutTrailing (p : Path) : Path := ⟨(p.parts.reverse.dropWhile (· = "")).reverse⟩

/-- A path continued by another one, which stands alone if it starts at the root. -/
def join (p q : Path) : Path :=
  if q.isAbsolute then q
  else ⟨(if p.parts.getLast? = some "" then p.parts.dropLast else p.parts) ++ q.parts⟩

/-- A path continued by a single name. -/
def child (p : Path) (name : String) : Path := p.join ⟨[name]⟩

/-- Whether a path calls what it leads to by its name. -/
def endsInName (p : Path) : Bool :=
  match p.withoutTrailing.parts.getLast? with
  | none | some "." | some ".." => false
  | some _ => true

/-- The parts that lead somewhere. -/
def names (p : Path) : List String := p.parts.filter fun part => part ≠ "" ∧ part ≠ "."

/-- The paths of the directories that a path leads through, the nearest one first. -/
def above (p : Path) : List Path :=
  let root := if p.isAbsolute then [""] else []
  ((List.range (p.names.length - 1)).map fun n => ⟨root ++ p.names.take (n + 1)⟩).reverse

@[simp] theorem isAbsolute_singleton (name : String) : (Path.mk [name]).isAbsolute = false := by
  simp [isAbsolute]

end Path
end Synod
