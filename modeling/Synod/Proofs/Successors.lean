import Mathlib.Order.Bounds.Basic
import Mathlib.Tactic.Lemma
import Synod.Proofs.ByteOrder
import Synod.Proposer

/-!
# Successors of ids

A proposer's ids above another id are those from some round on, which decides everything about the
next one: it is the least of them, and it is absent if that round is past the last word. The counter
of a proposer goes on to the same round.
-/
namespace Synod
namespace ProposalId
variable {after id n : ProposalId} {tiebreaker : String}

/-- Rounds decide, and within a round the bytes of the tiebreakers. -/
theorem lt_iff_toBytes_lt {a b : ProposalId} : a < b ↔ a.round < b.round ∨
    (a.round = b.round ∧ Text.toBytes a.tiebreaker < Text.toBytes b.tiebreaker) := by
  rw [Text.toBytes_lt_iff]
  exact Iff.rfl

theorem le_iff_toBytes_le {a b : ProposalId} : a ≤ b ↔ a.round < b.round ∨
    (a.round = b.round ∧ Text.toBytes a.tiebreaker ≤ Text.toBytes b.tiebreaker) := by
  rw [le_iff_not_lt, lt_iff_toBytes_lt, ← List.not_lt]
  simp only [UInt64.lt_iff_toNat_lt, ← UInt64.toNat_inj]
  rcases Nat.lt_trichotomy a.round.toNat b.round.toNat with h | h | h
  · simp [h, h.ne', h.not_gt]
  · simp [h]
  · simp [h, h.ne', h.not_gt]

/-- One proposer's ids are in the order of their rounds. -/
lemma lt_iff_round_lt {a b : ProposalId} (h : a.tiebreaker = b.tiebreaker) :
    a < b ↔ a.round.toNat < b.round.toNat := by
  rw [← UInt64.lt_iff_toNat_lt]
  refine ⟨fun hab => ?_, .inl⟩
  rcases hab with hab | ⟨_, htie⟩
  · exact hab
  · rw [h] at htie
    exact absurd htie (String.lt_irrefl _)

lemma le_iff_round_le {a b : ProposalId} (h : a.tiebreaker = b.tiebreaker) :
    a ≤ b ↔ a.round.toNat ≤ b.round.toNat := by
  rw [le_iff_not_lt, lt_iff_round_lt h.symm, Nat.not_lt]

/-- The first round in which a proposer has an id above another one; it may be no word. -/
def firstRound (after : ProposalId) (tiebreaker : String) : Nat :=
  if after.tiebreaker < tiebreaker then after.round.toNat else after.round.toNat + 1

lemma firstRound_le (after : ProposalId) (tiebreaker : String) :
    after.firstRound tiebreaker ≤ after.round.toNat + 1 := by
  unfold firstRound
  split <;> omega

lemma lt_iff_firstRound_le : after < id ↔ after.firstRound id.tiebreaker ≤ id.round.toNat := by
  have hlt : after < id ↔ after.round < id.round ∨
    (after.round = id.round ∧ after.tiebreaker < id.tiebreaker) := Iff.rfl
  rw [hlt, UInt64.lt_iff_toNat_lt, ← UInt64.toNat_inj, firstRound]
  split
  · rename_i htie
    simp only [htie, and_true]
    omega
  · rename_i htie
    simp only [htie, and_false, or_false]
    omega

lemma next_eq_some_iff_firstRound : next after tiebreaker = some n ↔
    n.tiebreaker = tiebreaker ∧ n.round.toNat = after.firstRound tiebreaker := by
  unfold next firstRound
  obtain ⟨round, tie⟩ := n
  split
  · simp only [Option.some.injEq, mk.injEq, UInt64.toNat_inj]
    exact ⟨fun h => ⟨h.2.symm, h.1.symm⟩, fun h => ⟨h.2.symm, h.1.symm⟩⟩
  · simp only [Option.map_eq_some_iff, Word.next?_eq_some_iff, mk.injEq]
    constructor
    · rintro ⟨_, hround, rfl, rfl⟩
      exact ⟨rfl, hround⟩
    · rintro ⟨rfl, hround⟩
      exact ⟨round, hround, rfl, rfl⟩

lemma exists_next_iff :
    (∃ n, next after tiebreaker = some n) ↔ after.firstRound tiebreaker < UInt64.size := by
  simp only [next_eq_some_iff_firstRound]
  constructor
  · rintro ⟨n, _, hround⟩
    exact hround ▸ n.round.toNat_lt
  · intro h
    exact ⟨⟨UInt64.ofNat (after.firstRound tiebreaker), tiebreaker⟩, rfl,
      UInt64.toNat_ofNat_of_lt' h⟩

lemma exists_next_of_lt (h : after < id) : ∃ n, next after id.tiebreaker = some n :=
  exists_next_iff.mpr (Nat.lt_of_le_of_lt (lt_iff_firstRound_le.mp h) id.round.toNat_lt)

/-- No set of ids has two least ones. -/
lemma eq_of_isLeast {ids : Set ProposalId} {a b : ProposalId} (ha : IsLeast ids a)
    (hb : IsLeast ids b) : a = b :=
  eq_of_not_lt (hb.2 ha.1) (ha.2 hb.1)

lemma isLeast_next (h : next after tiebreaker = some n) :
    IsLeast {id | id.tiebreaker = tiebreaker ∧ after < id} n := by
  obtain ⟨rfl, hround⟩ := next_eq_some_iff_firstRound.mp h
  refine ⟨⟨rfl, lt_iff_firstRound_le.mpr (Nat.le_of_eq hround.symm)⟩, ?_⟩
  rintro m ⟨hm, hlt⟩
  rw [lt_iff_firstRound_le, hm] at hlt
  exact (le_iff_round_le hm.symm).mpr (hround ▸ hlt)

/-- The next id of a proposer is the least of those that are its own and above. -/
theorem next_eq_some_iff : next after tiebreaker = some n ↔
    IsLeast {id | id.tiebreaker = tiebreaker ∧ after < id} n := by
  refine ⟨isLeast_next, fun h => ?_⟩
  obtain ⟨rfl, hlt⟩ := h.1
  obtain ⟨m, hm⟩ := exists_next_of_lt hlt
  rw [hm, eq_of_isLeast h (isLeast_next hm)]

theorem next_eq_none_iff :
    next after tiebreaker = none ↔ ¬∃ id : ProposalId, id.tiebreaker = tiebreaker ∧ after < id := by
  constructor
  · rintro hnone ⟨id, rfl, hlt⟩
    obtain ⟨n, hn⟩ := exists_next_of_lt hlt
    rw [hnone] at hn
    cases hn
  · intro h
    cases hn : next after tiebreaker with
    | none => rfl
    | some n => exact absurd ⟨n, (isLeast_next hn).1⟩ h

end ProposalId

/-- A refusal moves the counter to the first round that has an id above it, or to the last one. -/
lemma Proposer.toNat_nextRound_fastForward (p : Proposer) (seen : ProposalId) :
    (p.fastForward seen).nextRound.toNat =
      max p.nextRound.toNat (min (seen.firstRound p.uuid) (UInt64.size - 1)) := by
  rw [fastForward, Word.toNat_max]
  cases hnext : ProposalId.next seen p.uuid with
  | some n =>
    have hround := (ProposalId.next_eq_some_iff_firstRound.mp hnext).2
    have hlt := n.round.toNat_lt
    have hsize : UInt64.size = 18446744073709551616 := rfl
    dsimp only
    omega
  | none =>
    have hlarge : ¬seen.firstRound p.uuid < UInt64.size := fun h => by
      obtain ⟨n, hn⟩ := ProposalId.exists_next_iff.mpr h
      rw [hnext] at hn
      cases hn
    dsimp only
    rw [Word.toNat_last]
    omega

end Synod
