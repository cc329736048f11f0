import Synod.Word

/-!
# Proposals

A slot is one independent decision. Everything proposed for it carries a `ProposalId`; ids are
ordered by round and then by the proposer's tiebreaker, so that two proposers never share one.
A `ProposalValue` is a decree (slot and payload) under the id that brought it.
-/
namespace Synod

/-- One independent consensus instance. -/
structure Slot where
  sequence : UInt64
  deriving DecidableEq, Repr

namespace Slot

instance : LT Slot := ⟨fun a b => a.sequence < b.sequence⟩
instance : LE Slot := ⟨fun a b => a.sequence ≤ b.sequence⟩
instance (a b : Slot) : Decidable (a < b) := inferInstanceAs (Decidable (a.sequence < b.sequence))
instance (a b : Slot) : Decidable (a ≤ b) := inferInstanceAs (Decidable (a.sequence ≤ b.sequence))

instance : ToString Slot := ⟨fun s => s!"slot({s.sequence})"⟩

/-- The following slot; there is none after the last word. -/
def next (s : Slot) : Except Overflow Slot :=
  (Word.add s.sequence 1).map Slot.mk

theorem lt_irrefl (a : Slot) : ¬ a < a := UInt64.lt_irrefl a.sequence

theorem lt_trans {a b c : Slot} (h : a < b) (k : b < c) : a < c := UInt64.lt_trans h k

theorem eq_of_toNat_eq {a b : Slot} (h : a.sequence.toNat = b.sequence.toNat) : a = b := by
  cases a
  cases b
  exact congrArg Slot.mk (UInt64.toNat_inj.mp h)

/-- Of two slots one comes first, or they are the same. -/
theorem lt_or_eq_or_gt (a b : Slot) : a < b ∨ a = b ∨ b < a := by
  rcases Nat.lt_trichotomy a.sequence.toNat b.sequence.toNat with h | h | h
  · exact .inl (UInt64.lt_iff_toNat_lt.mpr h)
  · exact .inr (.inl (eq_of_toNat_eq h))
  · exact .inr (.inr (UInt64.lt_iff_toNat_lt.mpr h))

end Slot

/-- The name of one proposal: the round it belongs to and the proposer that owns it. -/
structure ProposalId where
  round : UInt64
  tiebreaker : String
  deriving DecidableEq, Repr

namespace ProposalId

/-- Rounds decide; within a round the tiebreakers do, character by character. -/
instance : LT ProposalId :=
  ⟨fun a b => a.round < b.round ∨ (a.round = b.round ∧ a.tiebreaker < b.tiebreaker)⟩

instance : LE ProposalId := ⟨fun a b => ¬ b < a⟩

instance (a b : ProposalId) : Decidable (a < b) :=
  inferInstanceAs (Decidable (a.round < b.round ∨ (a.round = b.round ∧ a.tiebreaker < b.tiebreaker)))

instance (a b : ProposalId) : Decidable (a ≤ b) := inferInstanceAs (Decidable (¬ b < a))

instance : ToString ProposalId := ⟨fun i => s!"{i.round}:{i.tiebreaker}"⟩

def compare (a b : ProposalId) : Ordering :=
  if a < b then .lt else if b < a then .gt else .eq

/-- The least id of the proposer `tiebreaker` above `after`, absent when the rounds are used up. -/
def next (after : ProposalId) (tiebreaker : String) : Option ProposalId :=
  if after.tiebreaker < tiebreaker then
    some ⟨after.round, tiebreaker⟩
  else
    (Word.next? after.round).map (⟨·, tiebreaker⟩)

theorem lt_irrefl (a : ProposalId) : ¬ a < a := by
  rintro (h | ⟨_, h⟩)
  · exact UInt64.lt_irrefl _ h
  · exact String.lt_irrefl _ h

theorem lt_trans {a b c : ProposalId} (h : a < b) (k : b < c) : a < c := by
  rcases h with h | ⟨hr, ht⟩
  · rcases k with k | ⟨kr, _⟩
    · exact .inl (UInt64.lt_trans h k)
    · exact .inl (kr ▸ h)
  · rcases k with k | ⟨kr, kt⟩
    · exact .inl (hr ▸ k)
    · exact .inr ⟨hr.trans kr, String.lt_trans ht kt⟩

theorem eq_of_not_lt {a b : ProposalId} (h : ¬ a < b) (k : ¬ b < a) : a = b := by
  have hr : a.round = b.round := UInt64.le_antisymm
    (UInt64.not_lt.mp fun g => k (.inl g)) (UInt64.not_lt.mp fun g => h (.inl g))
  have ht : a.tiebreaker = b.tiebreaker := String.le_antisymm
    (fun g => k (.inr ⟨hr.symm, g⟩)) (fun g => h (.inr ⟨hr, g⟩))
  cases a
  cases b
  exact congr (congrArg ProposalId.mk hr) ht

/-- Of two ids one is lower, or they are the same. -/
theorem lt_or_eq_or_gt (a b : ProposalId) : a < b ∨ a = b ∨ b < a := by
  by_cases h : a < b
  · exact .inl h
  · by_cases k : b < a
    · exact .inr (.inr k)
    · exact .inr (.inl (eq_of_not_lt h k))

theorem le_iff_not_lt {a b : ProposalId} : a ≤ b ↔ ¬ b < a := Iff.rfl

instance : Std.IsLinearOrder ProposalId := .of_le
  ⟨fun _ _ h k => eq_of_not_lt k h⟩
  ⟨fun {a b c} h k g => by
    rcases lt_or_eq_or_gt b c with l | rfl | l
    · exact h (lt_trans l g)
    · exact h g
    · exact k l⟩
  ⟨fun a b => (Classical.em (b < a)).elim (fun h => .inr fun k => lt_irrefl a (lt_trans k h)) .inl⟩

instance : Std.LawfulOrderLT ProposalId where
  lt_iff a b := by
    rw [le_iff_not_lt, le_iff_not_lt, Classical.not_not]
    exact ⟨fun h => ⟨fun k => lt_irrefl a (lt_trans h k), h⟩, fun h => h.2⟩

/-- Ids in ascending order. -/
def sort (ids : List ProposalId) : List ProposalId :=
  ids.mergeSort (fun a b => decide (a ≤ b))

end ProposalId

/-- Uninterpreted bytes to agree upon. -/
abbrev Payload := List UInt8

/-- A payload proposed for a slot, under the id of the proposal. -/
structure ProposalValue where
  id : ProposalId
  slot : Slot
  payload : Payload
  deriving DecidableEq, Repr

namespace ProposalValue

/-- Two values decree the same if they agree on slot and payload, whatever rounds brought them. -/
def SameDecree (a b : ProposalValue) : Prop := a.slot = b.slot ∧ a.payload = b.payload

instance (a b : ProposalValue) : Decidable (a.SameDecree b) :=
  inferInstanceAs (Decidable (a.slot = b.slot ∧ a.payload = b.payload))

end ProposalValue
end Synod
