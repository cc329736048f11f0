import Synod.Failure
import Synod.SlotMap

/-!
# Learners

A learner holds the first value it heard for each slot. Hearing the same decree again, under
whatever id, changes nothing; a different one is a conflict, as is a value offered under a slot
that is not its own.
-/
namespace Synod

structure Learner where
  learned : SlotMap ProposalValue
  deriving Repr

namespace Learner

def empty : Learner := ⟨∅⟩

def record (l : Learner) (slot : Slot) (value : ProposalValue) : Except Failure Unit × Learner :=
  if value.slot = slot then
    match l.learned.get? slot with
    | some held =>
      if held.SameDecree value then (.ok (), l) else (.error (.learnerConflict slot), l)
    | none => (.ok (), ⟨l.learned.insert slot value⟩)
  else (.error (.learnerConflict slot), l)

/-- Absence only means that nothing has been heard of the slot yet. -/
def get? (l : Learner) (slot : Slot) : Option ProposalValue := l.learned.get? slot

@[simp] theorem get?_empty (slot : Slot) : empty.get? slot = none := rfl

/-- What a slot holds after hearing a value: what it held, or else the value, if it is its own. -/
theorem get?_record (l : Learner) (slot : Slot) (value : ProposalValue) (s : Slot) :
    (l.record slot value).2.get? s =
      (l.get? s).or (if slot = s ∧ value.slot = slot then some value else none) := by
  unfold record get?
  split
  · rename_i hslot
    split
    · rename_i held hheld
      have hsame : ∀ l' : Learner, l' = l → l'.learned.get? s =
          (l.learned.get? s).or (if slot = s ∧ value.slot = slot then some value else none) := by
        rintro l' rfl
        by_cases hs : slot = s
        · subst hs
          simp [hheld]
        · simp [hs]
      split
      · exact hsame _ rfl
      · exact hsame _ rfl
    · rename_i hnone
      by_cases hs : slot = s
      · subst hs
        simp [hnone, hslot]
      · simp [hs]
  · rename_i hslot
    simp [hslot]

/-- An offer is taken if it is of a value under its own slot that repeats what is held there. -/
theorem record_eq_ok_iff {l : Learner} {slot : Slot} {value : ProposalValue} :
    (l.record slot value).1 = .ok () ↔
      value.slot = slot ∧ ∀ held, l.get? slot = some held → held.SameDecree value := by
  unfold record get?
  split
  · rename_i hslot
    cases l.learned.get? slot with
    | none => simp [hslot]
    | some held => by_cases hsame : held.SameDecree value <;> simp [hslot, hsame]
  · rename_i hslot
    simp [hslot]

/-- An offer that is not taken is a conflict, and changes nothing. -/
theorem record_of_ne_ok {l : Learner} {slot : Slot} {value : ProposalValue}
    (h : (l.record slot value).1 ≠ .ok ()) :
    l.record slot value = (.error (.learnerConflict slot), l) := by
  unfold record at h ⊢
  split
  · rename_i hslot
    rw [if_pos hslot] at h
    cases hheld : l.learned.get? slot with
    | none =>
      rw [hheld] at h
      exact absurd rfl h
    | some held =>
      rw [hheld] at h
      by_cases hsame : held.SameDecree value
      · simp [hsame] at h
      · simp [hsame]
  · rfl

/-- What is held stays held, whatever is heard. -/
theorem get?_record_of_get? {l : Learner} {slot : Slot} {v : ProposalValue}
    (h : l.get? slot = some v) (slot' : Slot) (value : ProposalValue) :
    (l.record slot' value).2.get? slot = some v := by
  rw [get?_record, h, Option.some_or]

/-- What is held after hearing a value was held before, or it is that value. -/
theorem eq_or_eq_of_get?_record {l : Learner} {slot s : Slot} {value v : ProposalValue}
    (h : (l.record slot value).2.get? s = some v) : l.get? s = some v ∨ s = slot ∧ v = value := by
  rw [get?_record, Option.or_eq_some_iff] at h
  rcases h with h | ⟨_, h⟩
  · exact .inl h
  · split at h
    · rename_i hslot
      cases h
      exact .inr ⟨hslot.1.symm, rfl⟩
    · cases h

/-- Every value is held under its own slot. -/
def Sound (l : Learner) : Prop := ∀ slot v, l.get? slot = some v → v.slot = slot

theorem sound_empty : Sound empty := by
  intro slot v h
  simp at h

theorem Sound.record {l : Learner} (h : l.Sound) (slot : Slot) (value : ProposalValue) :
    (l.record slot value).2.Sound := by
  intro s v hv
  rw [get?_record, Option.or_eq_some_iff] at hv
  rcases hv with hv | ⟨-, hv⟩
  · exact h s v hv
  · split at hv
    · rename_i hslot
      cases hv
      exact hslot.2.trans hslot.1
    · cases hv

def greatest? (l : Learner) : Option ProposalValue := l.learned.greatest?

def since (l : Learner) (slot : Slot) : List ProposalValue := l.learned.since slot

end Learner
end Synod
