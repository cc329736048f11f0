import Synod.Learner
import Synod.Proofs.Assembly

/-!
# Learners that hear of an assembly

Whoever runs a round that succeeds tells learners of its value, and a node that wants to lead tells
its own learner. A learner may be told at any later time, in any order, more than once or never.
What it answers is kept, although nobody waits for it. How the assembly goes on is left open here.
-/
namespace Synod

/-- A value that a learner was told, and its answer. -/
structure Telling where
  learner : Nat
  slot : Slot
  value : ProposalValue
  answer : Except Failure Unit

/-- An assembly, learners, and all that they were told, the last first. -/
structure Audience (σ : Type) where
  assembly : Assembly σ
  learners : Nat → Learner
  tellings : List Telling

namespace Audience

variable {σ : Type}

def init (stores : Nat → σ) : Audience σ := ⟨Assembly.init stores, fun _ => Learner.empty, []⟩

def setAssembly (s : Audience σ) (assembly : Assembly σ) : Audience σ := { s with assembly }

def tell (s : Audience σ) (l : Nat) (slot : Slot) (v : ProposalValue) : Audience σ :=
  { s with
    learners := Function.update s.learners l ((s.learners l).record slot v).2
    tellings := ⟨l, slot, v, ((s.learners l).record slot v).1⟩ :: s.tellings }

/-- What a learner holds after some learner was told. -/
theorem get?_tell (s : Audience σ) (l l' : Nat) (slot slot' : Slot) (v : ProposalValue) :
    ((s.tell l slot v).learners l').get? slot' =
      ((s.learners l').get? slot').or
        (if l' = l ∧ slot = slot' ∧ v.slot = slot then some v else none) := by
  by_cases hl : l' = l
  · subst hl
    simp [tell, Learner.get?_record]
  · simp [tell, hl]

/-- It held that before, or it is what was told. -/
theorem eq_or_eq_of_get?_tell {s : Audience σ} {l l' : Nat} {slot slot' : Slot}
    {v w : ProposalValue} (h : ((s.tell l slot v).learners l').get? slot' = some w) :
    (s.learners l').get? slot' = some w ∨ slot' = slot ∧ w = v := by
  by_cases hl : l' = l
  · subst hl
    simp only [tell, Function.update_self] at h
    exact Learner.eq_or_eq_of_get?_record h
  · simp only [tell, Function.update_of_ne hl] at h
    exact .inl h

/-- One step of an assembly that goes on by `go`, or of its learners. -/
inductive Step (go : Assembly σ → Assembly σ → Prop) : Audience σ → Audience σ → Prop
  | proceed {s a} (step : go s.assembly a) : Step go s (s.setAssembly a)
  | tell {s r v} (l k : Nat) (round : s.assembly.rounds k = some r)
      (ended : r.stage = .ended (.ok v)) : Step go s (s.tell l r.slot v)

/-- What can come of an audience in any number of steps. -/
def Reaches (go : Assembly σ → Assembly σ → Prop) : Audience σ → Audience σ → Prop :=
  Relation.ReflTransGen (Step go)

/-- Every acceptor has a store of its own; stores and learners are empty at first. -/
def Reachable [RecordStore σ] (view : StoreView σ) (go : Assembly σ → Assembly σ → Prop)
    (s : Audience σ) : Prop :=
  ∃ stores : Nat → σ, (∀ a, view.held (stores a) = fun _ => none) ∧ Reaches go (init stores) s

/-- While nobody is told anything, the assembly goes on. -/
theorem reaches_setAssembly {go : Assembly σ → Assembly σ → Prop} {s : Audience σ} {a : Assembly σ}
    (h : Relation.ReflTransGen go s.assembly a) : Reaches go s (s.setAssembly a) := by
  induction h with
  | refl => exact .refl
  | tail _ step ih => exact ih.tail (.proceed step)

end Audience
end Synod
