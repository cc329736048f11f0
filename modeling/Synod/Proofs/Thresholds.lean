import Mathlib.Data.Fintype.Fin
import Mathlib.Order.Bounds.Basic
import Synod.Quorum

/-!
# Which thresholds are accepted

Two quorums always share an acceptor just when their sizes add up to more than there are acceptors.
The checks of thresholds compare these numbers as words, and `Judged` says in exact numbers what
comes of that: thresholds are accepted, refused, or too large for the words. With fewer than `2 ^ 63`
acceptors nothing is too large, and thresholds are accepted just when the quorums meet that have to.
-/
namespace Synod.Quorum

/-- Among `n` acceptors, any `p` or more and any `q` or more have one in common. -/
def Meet (n p q : Nat) : Prop :=
  ∀ s t : Finset (Fin n), p ≤ s.card → q ≤ t.card → (s ∩ t).Nonempty

theorem meet_iff {n p q : Nat} : Meet n p q ↔ n < p + q := by
  constructor
  · intro h
    by_contra hle
    -- The first `p` acceptors and the rest would be quorums apart.
    let first : Finset (Fin n) := {i | (i : Nat) < p}
    have hfirst : first.card = min n p := Fin.card_filter_val_lt
    have hrest : firstᶜ.card = n - first.card := by rw [Finset.card_compl, Fintype.card_fin]
    obtain ⟨i, hi⟩ := h first firstᶜ (by omega) (by omega)
    rw [Finset.inter_compl] at hi
    exact absurd hi (Finset.notMem_empty i)
  · intro h s t hs ht
    refine Finset.inter_nonempty_of_card_lt_card_add_card (Finset.subset_univ s)
      (Finset.subset_univ t) ?_
    rw [Finset.card_univ, Fintype.card_fin]
    omega

variable {acceptors prepare accept : UInt64}

theorem safe_iff_toNat : Safe acceptors prepare accept ↔
    prepare.toNat ≤ acceptors.toNat ∧ accept.toNat ≤ acceptors.toNat ∧
      acceptors.toNat < 2 * prepare.toNat ∧ acceptors.toNat < prepare.toNat + accept.toNat := by
  simp only [← UInt64.le_iff_toNat_le]
  exact ⟨fun ⟨hp, ha, htwice, hboth⟩ => ⟨hp, ha, htwice, hboth⟩,
    fun ⟨hp, ha, htwice, hboth⟩ => ⟨hp, ha, htwice, hboth⟩⟩

/-- Safe thresholds are those within range whose quorums meet. -/
theorem safe_iff : Safe acceptors prepare accept ↔
    (1 ≤ prepare ∧ prepare ≤ acceptors) ∧ (1 ≤ accept ∧ accept ≤ acceptors) ∧
      Meet acceptors.toNat prepare.toNat prepare.toNat ∧
      Meet acceptors.toNat prepare.toNat accept.toNat := by
  simp only [safe_iff_toNat, meet_iff, UInt64.le_iff_toNat_le, UInt64.toNat_one]
  omega

/-- Thresholds that are in range, but for which one of the numbers compared is no word: twice the
first threshold or, once that has been found large enough, the sum of both. -/
def Oversized (acceptors prepare accept : UInt64) : Prop :=
  (0 < prepare.toNat ∧ prepare.toNat ≤ acceptors.toNat) ∧
  (0 < accept.toNat ∧ accept.toNat ≤ acceptors.toNat) ∧
  (2 ^ 64 ≤ 2 * prepare.toNat ∨
    acceptors.toNat < 2 * prepare.toNat ∧ 2 ^ 64 ≤ prepare.toNat + accept.toNat)

theorem not_oversized_of_lt (h : acceptors.toNat < 2 ^ 63) :
    ¬Oversized acceptors prepare accept := by
  unfold Oversized
  omega

/-- What the checks of some thresholds come to. -/
inductive Judged (acceptors prepare accept : UInt64) : Option Fault → Prop
  | accepted (safe : Safe acceptors prepare accept)
      (fits : ¬Oversized acceptors prepare accept) : Judged acceptors prepare accept none
  | refused (cause : ConfigFault) (endangered : ¬Safe acceptors prepare accept)
      (fits : ¬Oversized acceptors prepare accept) :
      Judged acceptors prepare accept (some (.failure (.invalidConfig cause)))
  | overflowed (o : Overflow) (oversized : Oversized acceptors prepare accept) :
      Judged acceptors prepare accept (some (.overflow o))

/-- The checks, one after the other. -/
theorem judged (acceptors prepare accept : UInt64) :
    Judged acceptors prepare accept (fault? acceptors prepare accept) := by
  have hsize : UInt64.size = 2 ^ 64 := rfl
  have hn := acceptors.toNat_lt
  unfold fault?
  simp only [← UInt64.toNat_inj, UInt64.lt_iff_toNat_lt, UInt64.le_iff_toNat_le, UInt64.toNat_zero]
  split
  · exact .refused _ (by rw [safe_iff_toNat]; omega) (by unfold Oversized; omega)
  split
  · exact .refused _ (by rw [safe_iff_toNat]; omega) (by unfold Oversized; omega)
  split
  · rename_i hmul
    have hlarge : UInt64.size ≤ 2 * prepare.toNat := Word.le_of_mul_eq_error hmul
    exact .overflowed _ (by unfold Oversized; omega)
  -- From here on both thresholds are in range and `twice` is exact.
  rename_i twice hmul
  have htwice : twice.toNat = 2 * prepare.toNat := Word.toNat_of_mul_eq_ok hmul
  have hfits := twice.toNat_lt
  split
  · exact .refused _ (by rw [safe_iff_toNat]; omega) (by unfold Oversized; omega)
  split
  · rename_i hadd
    have hlarge := Word.le_of_add_eq_error hadd
    exact .overflowed _ (by unfold Oversized; omega)
  rename_i both hadd
  have hboth : both.toNat = prepare.toNat + accept.toNat := Word.toNat_of_add_eq_ok hadd
  have hfits' := both.toNat_lt
  split
  · exact .refused _ (by rw [safe_iff_toNat]; omega) (by unfold Oversized; omega)
  · exact .accepted (by rw [safe_iff_toNat]; omega) (by unfold Oversized; omega)

theorem ofThresholds_of_none (h : fault? acceptors prepare accept = none) :
    ofThresholds acceptors prepare accept =
      .ok ⟨acceptors, prepare, accept, safe_of_fault?_eq_none h⟩ := by
  unfold ofThresholds
  split
  · simp_all
  · rfl

theorem ofThresholds_of_some {f : Fault} (h : fault? acceptors prepare accept = some f) :
    ofThresholds acceptors prepare accept = .error f := by
  unfold ofThresholds
  split
  · simp_all
  · simp_all

/-- Safe thresholds are accepted as they are, unless they are too large. -/
theorem ofThresholds_eq_ok_iff {q : Quorum} : ofThresholds acceptors prepare accept = .ok q ↔
    (q.acceptors = acceptors ∧ q.prepare = prepare ∧ q.accept = accept) ∧
      ¬Oversized acceptors prepare accept := by
  have h := judged acceptors prepare accept
  generalize hfault : fault? acceptors prepare accept = f at h
  cases h with
  | accepted safe fits =>
    rw [ofThresholds_of_none hfault, Except.ok.injEq]
    constructor
    · rintro rfl
      exact ⟨⟨rfl, rfl, rfl⟩, fits⟩
    · rintro ⟨⟨rfl, rfl, rfl⟩, -⟩
      rfl
  | refused cause endangered =>
    rw [ofThresholds_of_some hfault]
    refine iff_of_false (by simp) ?_
    rintro ⟨⟨rfl, rfl, rfl⟩, -⟩
    exact endangered q.safe
  | overflowed o oversized =>
    rw [ofThresholds_of_some hfault]
    exact iff_of_false (by simp) fun ⟨_, fits⟩ => fits oversized

theorem exists_ok_iff : (∃ q, ofThresholds acceptors prepare accept = .ok q) ↔
    Safe acceptors prepare accept ∧ ¬Oversized acceptors prepare accept := by
  simp only [ofThresholds_eq_ok_iff]
  constructor
  · rintro ⟨q, ⟨rfl, rfl, rfl⟩, fits⟩
    exact ⟨q.safe, fits⟩
  · rintro ⟨safe, fits⟩
    exact ⟨⟨acceptors, prepare, accept, safe⟩, ⟨rfl, rfl, rfl⟩, fits⟩

theorem exists_overflow_iff :
    (∃ o, ofThresholds acceptors prepare accept = .error (.overflow o)) ↔
      Oversized acceptors prepare accept := by
  have h := judged acceptors prepare accept
  generalize hfault : fault? acceptors prepare accept = f at h
  cases h with
  | accepted _ fits => simp [ofThresholds_of_none hfault, fits]
  | refused _ _ fits => simp [ofThresholds_of_some hfault, fits]
  | overflowed o oversized => simp [ofThresholds_of_some hfault, oversized]

/-- Whatever is not accepted, and not too large, is refused with the reason. -/
theorem ofThresholds_cases (acceptors prepare accept : UInt64) :
    (∃ q, ofThresholds acceptors prepare accept = .ok q) ∨
    (∃ cause, ofThresholds acceptors prepare accept = .error (.failure (.invalidConfig cause))) ∨
    ∃ o, ofThresholds acceptors prepare accept = .error (.overflow o) := by
  have h := judged acceptors prepare accept
  generalize hfault : fault? acceptors prepare accept = f at h
  cases h with
  | accepted => exact .inl ⟨_, ofThresholds_of_none hfault⟩
  | refused cause => exact .inr (.inl ⟨cause, ofThresholds_of_some hfault⟩)
  | overflowed o => exact .inr (.inr ⟨o, ofThresholds_of_some hfault⟩)

/-- Half of the acceptors and one more, in exact numbers. -/
theorem toNat_half (acceptors : UInt64) :
    (acceptors / 2 + 1).toNat = acceptors.toNat / 2 + 1 := by
  have hn := acceptors.toNat_lt
  rw [UInt64.toNat_add, UInt64.toNat_div]
  exact Nat.mod_eq_of_lt (by simp; omega)

/-- A majority is safe, and nothing smaller meets itself. -/
lemma majority_least (h : 1 ≤ acceptors) (hlt : acceptors.toNat < 2 ^ 63) :
    ∃ q, majority acceptors = .ok q ∧ q.accept = q.prepare ∧
      IsLeast {k | ∃ r, ofThresholds acceptors k k = .ok r} q.prepare := by
  have hhalf := toNat_half acceptors
  rw [UInt64.le_iff_toNat_le, UInt64.toNat_one] at h
  have safe : Safe acceptors (acceptors / 2 + 1) (acceptors / 2 + 1) := by
    rw [safe_iff_toNat, hhalf]
    omega
  obtain ⟨q, hq⟩ := exists_ok_iff.mpr ⟨safe, not_oversized_of_lt hlt⟩
  obtain ⟨⟨-, hprepare, haccept⟩, -⟩ := ofThresholds_eq_ok_iff.mp hq
  refine ⟨q, hq, haccept.trans hprepare.symm, ⟨q, by rw [hprepare]; exact hq⟩, fun k hk => ?_⟩
  have hmeet := (safe_iff_toNat.mp (exists_ok_iff.mp hk).1).2.2.1
  rw [hprepare, UInt64.le_iff_toNat_le, hhalf]
  omega

/-- Below `2 ^ 63` acceptors, thresholds are accepted just when they are in range, any two quorums
of the first phase meet, and any quorum of the first phase meets any of the second. The least
threshold that does for both phases is that of the majority. -/
theorem accepts_just_safe (hlt : acceptors.toNat < 2 ^ 63) :
    (∀ prepare accept, (∃ q, ofThresholds acceptors prepare accept = .ok q) ↔
      (1 ≤ prepare ∧ prepare ≤ acceptors) ∧ (1 ≤ accept ∧ accept ≤ acceptors) ∧
        Meet acceptors.toNat prepare.toNat prepare.toNat ∧
        Meet acceptors.toNat prepare.toNat accept.toNat) ∧
    (1 ≤ acceptors → ∃ q, majority acceptors = .ok q ∧ q.accept = q.prepare ∧
      IsLeast {k | ∃ r, ofThresholds acceptors k k = .ok r} q.prepare) := by
  refine ⟨fun prepare accept => ?_, fun h => majority_least h hlt⟩
  rw [exists_ok_iff, ← safe_iff, and_iff_left (not_oversized_of_lt hlt)]

/-- The greatest number of acceptors for which no threshold is too large, and the least threshold
that does for both phases there. -/
theorem accepts_just_safe_at_bound :
    (9223372036854775807 : UInt64).toNat < 2 ^ 63 ∧ (1 : UInt64) ≤ 9223372036854775807 ∧
      ∃ q, majority 9223372036854775807 = .ok q ∧ q.prepare = 4611686018427387904 ∧
        IsLeast {k | ∃ r, ofThresholds 9223372036854775807 k k = .ok r} 4611686018427387904 := by
  have hlt : (9223372036854775807 : UInt64).toNat < 2 ^ 63 := by decide
  obtain ⟨q, hq, -, hleast⟩ := (accepts_just_safe hlt).2 (by decide)
  have hprepare : q.prepare = 4611686018427387904 := (ofThresholds_eq_ok_iff.mp hq).1.2.1
  exact ⟨hlt, by decide, q, hq, hprepare, hprepare ▸ hleast⟩

end Synod.Quorum
