import Synod.Quorum

/-!
# Tallies

Answers of one phase are counted as they arrive, until enough agree or so many do not that
enough never can. What arrives after that is not looked at. `Tally.collect` counts a list of
answers; `Tally.gather` counts answers that come into being only when they are awaited, each
by a step of some outside state. Both take answers with the one function `Tally.add`.
-/
namespace Synod

/-- Answers counted so far, in order of arrival. -/
structure Tally (α : Type) where
  agreed : List α
  refused : List α
  unreachable : Nat
  deriving DecidableEq, Repr

namespace Tally
variable {α ω : Type}

def empty : Tally α := ⟨[], [], 0⟩

/-- One more answer; `none` is a call that did not complete. -/
def add (agrees : α → Bool) (t : Tally α) : Option α → Tally α
  | none => { t with unreachable := t.unreachable + 1 }
  | some a =>
    if agrees a then { t with agreed := t.agreed ++ [a] }
    else { t with refused := t.refused ++ [a] }

@[simp] theorem agreed_add (agrees : α → Bool) (t : Tally α) (answer : Option α) :
    (t.add agrees answer).agreed = t.agreed ++ answer.toList.filter agrees := by
  cases answer with
  | none => simp [add]
  | some a => by_cases h : agrees a <;> simp [add, h]

@[simp] theorem refused_add (agrees : α → Bool) (t : Tally α) (answer : Option α) :
    (t.add agrees answer).refused = t.refused ++ answer.toList.filter fun a => !agrees a := by
  cases answer with
  | none => simp [add]
  | some a => by_cases h : agrees a <;> simp [add, h]

@[simp] theorem unreachable_add (agrees : α → Bool) (t : Tally α) (answer : Option α) :
    (t.add agrees answer).unreachable = t.unreachable + (if answer.isNone then 1 else 0) := by
  cases answer with
  | none => simp [add]
  | some a => by_cases h : agrees a <;> simp [add, h]

/-- Answers that did not help. -/
def against (t : Tally α) : Nat := t.refused.length + t.unreachable

/-- How many answers have been taken. -/
def count (t : Tally α) : Nat := t.agreed.length + t.against

@[simp] theorem count_empty : (empty : Tally α).count = 0 := rfl

@[simp] theorem count_add (agrees : α → Bool) (t : Tally α) (answer : Option α) :
    (t.add agrees answer).count = t.count + 1 := by
  cases answer with
  | none => simp only [count, against, add]; omega
  | some a =>
    by_cases h : agrees a
    · simp only [count, against, add, h, if_true, List.length_append, List.length_singleton]
      omega
    · simp only [count, against, add, h, if_false, List.length_append, List.length_singleton,
        Bool.false_eq_true]
      omega

def Reached (required : Nat) (t : Tally α) : Prop := required ≤ t.agreed.length

instance (required : Nat) (t : Tally α) : Decidable (t.Reached required) :=
  inferInstanceAs (Decidable (required ≤ t.agreed.length))

/-- Neither enough agreement yet nor too much against it. -/
def Undecided (total required : Nat) (t : Tally α) : Prop :=
  t.agreed.length < required ∧ t.against ≤ total - required

instance (total required : Nat) (t : Tally α) : Decidable (t.Undecided total required) :=
  inferInstanceAs (Decidable (t.agreed.length < required ∧ t.against ≤ total - required))

/-- Takes answers while the tally is undecided. -/
def take (agrees : α → Bool) (total required : Nat) (t : Tally α) : List (Option α) → Tally α
  | [] => t
  | answer :: rest =>
    if t.Undecided total required then take agrees total required (t.add agrees answer) rest
    else t

/-- The tally of a list of answers, `required` of `total` being needed. -/
def collect (agrees : α → Bool) (total required : Nat) (answers : List (Option α)) : Tally α :=
  take agrees total required empty answers

/-- Takes answers that arise by steps of an outside state, in the order of the list, while the
tally is undecided; steps after that are not made. -/
def gather (agrees : α → Bool) (total required : Nat) (t : Tally α) (w : ω) :
    List (ω → Option α × ω) → Tally α × ω
  | [] => (t, w)
  | await :: rest =>
    if t.Undecided total required then
      gather agrees total required (t.add agrees (await w).1) (await w).2 rest
    else (t, w)

end Tally
end Synod
