import Mathlib.Algebra.Group.Action.Defs
import Mathlib.Algebra.Order.BigOperators.Group.List
import Mathlib.Algebra.Order.Ring.Nat
import Mathlib.Order.Bounds.Basic
import Synod.Proofs.Attempts

/-!
# How long pauses are

The pause before a retry doubles up to a limit, and jitter makes it longer within that limit. Here is
between which bounds it lies and that both grow with the number of the retry. Adding the jitter is the
one step that may leave the words, which takes a limit of more than two thirds of the last word.
-/
namespace Synod

/-- The same draw at every retry, as far as the bound allows. -/
def Jitter.upTo (limit : UInt64) : Jitter := ⟨fun _ bound => min limit bound, fun _ bound => by
  rw [UInt64.le_iff_toNat_le, Word.toNat_min]
  exact Nat.min_le_right _ _⟩

namespace RetryPolicy

/-- The least pause before a retry: doubled with every retry up to the sixteenth, and limited. -/
def least (p : RetryPolicy) (retries : Nat) : Nat :=
  min (p.initialBackoff.toNat * 2 ^ min retries 16) p.maxBackoff.toNat

/-- The greatest pause before a retry: the least one and half of it, limited. -/
def greatest (p : RetryPolicy) (retries : Nat) : Nat :=
  min (p.least retries + p.least retries / 2) p.maxBackoff.toNat

/-- The jitter drawn for a retry. -/
def drawn (p : RetryPolicy) (jitter : Jitter) (retries : Nat) : Nat :=
  (jitter.draw retries (p.base retries / 2)).toNat

variable {p : RetryPolicy} {jitter : Jitter} {retries : Nat}

/-- Saturation goes unnoticed, since the limit is a word. -/
@[simp] theorem toNat_base (p : RetryPolicy) (retries : Nat) :
    (p.base retries).toNat = p.least retries := by
  have hmax := p.maxBackoff.toNat_lt
  have hsize : UInt64.size = 2 ^ 64 := rfl
  have hpow : 2 ^ min retries 16 < UInt64.size :=
    Nat.lt_of_le_of_lt (Nat.pow_le_pow_right (by decide) (Nat.min_le_right retries 16)) (by decide)
  rw [base, Word.toNat_min, Word.toNat_saturatingMul, Nat.one_shiftLeft,
    UInt64.toNat_ofNat_of_lt' hpow, least]
  omega

theorem drawn_le (p : RetryPolicy) (jitter : Jitter) (retries : Nat) :
    p.drawn jitter retries ≤ p.least retries / 2 := by
  have h := UInt64.le_iff_toNat_le.mp (jitter.draw_le retries (p.base retries / 2))
  rwa [UInt64.toNat_div, toNat_base] at h

theorem least_le_max (p : RetryPolicy) (retries : Nat) : p.least retries ≤ p.maxBackoff.toNat :=
  Nat.min_le_right _ _

theorem backoff_eq_ok_iff {d : UInt64} : p.backoff jitter retries = .ok d ↔
    p.least retries + p.drawn jitter retries < 2 ^ 64 ∧
      d.toNat = min (p.least retries + p.drawn jitter retries) p.maxBackoff.toNat := by
  have hsize : UInt64.size = 2 ^ 64 := rfl
  unfold backoff
  dsimp only
  cases hadd : Word.add (p.base retries) (jitter.draw retries (p.base retries / 2)) with
  | error o =>
    have hlarge := Word.le_of_add_eq_error hadd
    rw [toNat_base, hsize] at hlarge
    refine iff_of_false (by simp [Except.map]) fun h => ?_
    exact absurd h.1 (Nat.not_lt.mpr hlarge)
  | ok sum =>
    have hsum : sum.toNat = p.least retries + p.drawn jitter retries := by
      rw [Word.toNat_of_add_eq_ok hadd, toNat_base, drawn]
    have hlt := sum.toNat_lt
    simp only [Except.map, Except.ok.injEq, ← hsum, hlt, true_and, ← UInt64.toNat_inj,
      Word.toNat_min]
    exact eq_comm

theorem exists_backoff_iff : (∃ d, p.backoff jitter retries = .ok d) ↔
    p.least retries + p.drawn jitter retries < 2 ^ 64 := by
  simp only [backoff_eq_ok_iff, exists_and_left, and_iff_left_iff_imp]
  intro hlt
  have hmin := Nat.min_le_left (p.least retries + p.drawn jitter retries) p.maxBackoff.toNat
  exact ⟨UInt64.ofNat (min (p.least retries + p.drawn jitter retries) p.maxBackoff.toNat),
    UInt64.toNat_ofNat_of_lt' (Nat.lt_of_le_of_lt hmin hlt)⟩

/-- No pause is shorter than the least one or longer than the limit. -/
theorem backoff_mem_band {d : UInt64} (h : p.backoff jitter retries = .ok d) :
    p.least retries ≤ d.toNat ∧ d.toNat ≤ p.maxBackoff.toNat := by
  have hd := (backoff_eq_ok_iff.mp h).2
  have hle := p.least_le_max retries
  omega

/-- All the pauses that jitter may lead to. -/
def pauses (p : RetryPolicy) (retries : Nat) : Set Nat :=
  {n | ∃ jitter d, p.backoff jitter retries = .ok d ∧ d.toNat = n}

theorem isLeast_pauses (p : RetryPolicy) (retries : Nat) :
    IsLeast (p.pauses retries) (p.least retries) := by
  have hle := p.least_le_max retries
  have hmax := p.maxBackoff.toNat_lt
  constructor
  · have hnone : p.drawn .none retries = 0 := rfl
    have hfits : p.least retries + p.drawn .none retries < 2 ^ 64 := by omega
    obtain ⟨d, hd⟩ := exists_backoff_iff.mpr hfits
    refine ⟨.none, d, hd, ?_⟩
    have hvalue := (backoff_eq_ok_iff.mp hd).2
    omega
  · rintro _ ⟨jitter, d, hd, rfl⟩
    exact (backoff_mem_band hd).1

theorem isGreatest_pauses (p : RetryPolicy) (retries : Nat) :
    IsGreatest (p.pauses retries) (p.greatest retries) := by
  have hle := p.least_le_max retries
  have hmax := p.maxBackoff.toNat_lt
  unfold greatest
  constructor
  · -- Where half of the least pause would lead out of the words, `room` leads to the last of them,
    -- and so to the limit.
    let room := UInt64.ofNat (2 ^ 64 - 1 - p.least retries)
    have hroom : room.toNat = 2 ^ 64 - 1 - p.least retries :=
      UInt64.toNat_ofNat_of_lt' (Nat.lt_of_le_of_lt (Nat.sub_le _ _) (by decide))
    have hdrawn : p.drawn (.upTo room) retries = min room.toNat (p.least retries / 2) := by
      simp [drawn, Jitter.upTo, Word.toNat_min]
    have hfits : p.least retries + p.drawn (.upTo room) retries < 2 ^ 64 := by omega
    obtain ⟨d, hd⟩ := exists_backoff_iff.mpr hfits
    refine ⟨.upTo room, d, hd, ?_⟩
    have hvalue := (backoff_eq_ok_iff.mp hd).2
    omega
  · rintro _ ⟨jitter, d, hd, rfl⟩
    have hvalue := (backoff_eq_ok_iff.mp hd).2
    have hdrawn := p.drawn_le jitter retries
    omega

theorem least_mono (p : RetryPolicy) : Monotone p.least := by
  intro r s h
  have hpow : 2 ^ min r 16 ≤ 2 ^ min s 16 := Nat.pow_le_pow_right (by decide) (by omega)
  have hmul := Nat.mul_le_mul_left p.initialBackoff.toNat hpow
  unfold least
  omega

theorem greatest_mono (p : RetryPolicy) : Monotone p.greatest := by
  intro r s h
  have hle := p.least_mono h
  unfold greatest
  omega

/-- No pause can leave the words just when the longest one does not. -/
theorem forall_backoff_iff (p : RetryPolicy) :
    (∀ jitter retries, ∃ d, p.backoff jitter retries = .ok d) ↔
      p.least 16 + p.least 16 / 2 < 2 ^ 64 := by
  simp only [exists_backoff_iff]
  constructor
  · intro h
    have hmost : p.drawn .most 16 = p.least 16 / 2 := by simp [drawn, Jitter.most]
    exact hmost ▸ h .most 16
  · intro h jitter retries
    have hdrawn := p.drawn_le jitter retries
    have hsame : p.least (min retries 16) = p.least retries := by simp [least]
    have hle : p.least retries ≤ p.least 16 := hsame ▸ p.least_mono (Nat.min_le_right retries 16)
    omega

section Run
variable {σ α : Type} {attempt : σ → Except Fault α × σ}

/-- No more attempts than the budget allows, and between any two of them one pause, which is not
above the limit. -/
structure Paced (p : RetryPolicy) (r : Retried σ α) : Prop where
  within : r.attempts ≤ p.budget
  count : r.pauses.length + 1 = r.attempts
  bounded : ∀ d ∈ r.pauses, d.toNat ≤ p.maxBackoff.toNat

/-- Induction on the attempts left. -/
lemma runAfter_paced {left made : Nat} (within : made + left ≤ p.budget) (last : Failure)
    {pauses : List UInt64} (s : σ) (count : pauses.length + 1 = made)
    (bounded : ∀ d ∈ pauses, d.toNat ≤ p.maxBackoff.toNat) :
    p.Paced (p.runAfter jitter attempt left made last pauses s) := by
  induction left generalizing made last pauses s with
  | zero => exact ⟨within, count, bounded⟩
  | succ left ih =>
    unfold runAfter
    cases hpause : p.backoff jitter (made - 1) with
    | error o => exact ⟨(by omega : made ≤ p.budget), count, bounded⟩
    | ok pause =>
      have hcount : (pauses ++ [pause]).length + 1 = made + 1 := by simp [count]
      have hbounded : ∀ d ∈ pauses ++ [pause], d.toNat ≤ p.maxBackoff.toNat := by
        intro d hd
        rcases List.mem_append.mp hd with hd | hd
        · exact bounded d hd
        · rw [List.mem_singleton.mp hd]
          exact (backoff_mem_band hpause).2
      dsimp only
      split
      · exact ih (by omega) _ _ hcount hbounded
      · exact ⟨(by omega : made + 1 ≤ p.budget), hcount, hbounded⟩

theorem run_paced (p : RetryPolicy) (jitter : Jitter) (attempt : σ → Except Fault α × σ) (s : σ) :
    p.Paced (p.run jitter attempt s) := by
  have hbudget : 1 ≤ p.budget := Nat.le_max_right p.maxAttempts.toNat 1
  unfold run
  split
  · exact runAfter_paced (by omega) _ _ rfl (by simp)
  · exact ⟨hbudget, rfl, by simp⟩

/-- All the pauses of a run together. -/
lemma Paced.sum_le {r : Retried σ α} (h : p.Paced r) :
    (r.pauses.map UInt64.toNat).sum ≤ (r.attempts - 1) * p.maxBackoff.toNat := by
  have hsum : (r.pauses.map UInt64.toNat).sum ≤
      (r.pauses.map UInt64.toNat).length • p.maxBackoff.toNat := by
    refine List.sum_le_card_nsmul _ _ fun n hn => ?_
    obtain ⟨d, hd, rfl⟩ := List.mem_map.mp hn
    exact h.bounded d hd
  have hlength : r.pauses.length = r.attempts - 1 := by
    have := h.count
    omega
  rwa [List.length_map, smul_eq_mul, hlength] at hsum

lemma backoff_of_verdict {made : Nat} {e : Failure} {o : Overflow}
    (h : p.verdict jitter made e = some (.overflow o)) :
    made < p.budget ∧ p.backoff jitter (made - 1) = .error o := by
  unfold verdict at h
  split at h
  · split at h
    · rename_i hmade
      split at h
      · rename_i hpause
        cases h
        exact ⟨hmade, hpause⟩
      · cases h
    · cases h
  · cases h

/-- Only an attempt itself or the arithmetic of a pause breaks a run off. -/
lemma Ends.overflow {made : Nat} {s t : σ} {outcome : Except Fault α} {o : Overflow}
    (h : Ends p jitter attempt made s outcome t) (hmade : 1 ≤ made)
    (ho : outcome = .error (.overflow o)) :
    (∃ s, (attempt s).1 = .error (.overflow o)) ∨
      ∃ retries, retries + 1 < p.budget ∧ p.backoff jitter retries = .error o := by
  induction h with
  | answered => cases ho
  | @overflowed _ s _ _ attempted =>
    cases ho
    exact .inl ⟨s, by rw [attempted]⟩
  | @failed made _ _ _ _ _ verdict =>
    cases ho
    obtain ⟨hbudget, hpause⟩ := backoff_of_verdict verdict
    exact .inr ⟨made - 1, by omega, hpause⟩
  | retried _ _ _ ih => exact ih (by omega) ho

/-- Attempts whose outcomes are known beforehand, each taking the next one. -/
def following (outcomes : Nat → Except Failure α) (next : Nat) : Except Fault α × Nat :=
  (Fault.ofFailure (outcomes next), next + 1)

lemma following_ne_overflow (outcomes : Nat → Except Failure α) (next : Nat) (o : Overflow) :
    (following outcomes next).1 ≠ .error (.overflow o) := by
  unfold following Fault.ofFailure
  cases outcomes next <;> simp [Except.mapError]

end Run

/-- A pause is worked out unless its jitter leads out of the words; it lies between the least one and
the limit, and the least and the greatest pause grow with the number of the retry. No jitter leads
out of the words if the longest pause does not. A run makes one pause between any two attempts, so
they stay below as many limits, and breaks off only where a pause leaves the words. -/
theorem pauses_in_band (p : RetryPolicy) :
    (∀ jitter retries,
      ((∃ d, p.backoff jitter retries = .ok d) ↔
        p.least retries + p.drawn jitter retries < 2 ^ 64) ∧
      ∀ d, p.backoff jitter retries = .ok d →
        p.least retries ≤ d.toNat ∧ d.toNat ≤ p.maxBackoff.toNat) ∧
    ((∀ jitter retries, ∃ d, p.backoff jitter retries = .ok d) ↔
      p.least 16 + p.least 16 / 2 < 2 ^ 64) ∧
    (∀ retries, IsLeast (p.pauses retries) (p.least retries) ∧
      IsGreatest (p.pauses retries) (p.greatest retries)) ∧
    Monotone p.least ∧ Monotone p.greatest ∧
    ∀ {α : Type} jitter (outcomes : Nat → Except Failure α),
      let done := p.run jitter (following outcomes) 0
      done.attempts ≤ p.budget ∧ done.pauses.length + 1 = done.attempts ∧
      (done.pauses.map UInt64.toNat).sum ≤ (done.attempts - 1) * p.maxBackoff.toNat ∧
      ∀ o, done.outcome = .error (.overflow o) →
        ∃ retries, retries + 1 < p.budget ∧ p.backoff jitter retries = .error o := by
  refine ⟨fun jitter retries => ⟨exists_backoff_iff, fun d => backoff_mem_band⟩,
    p.forall_backoff_iff, fun retries => ⟨p.isLeast_pauses retries, p.isGreatest_pauses retries⟩,
    p.least_mono, p.greatest_mono, fun {α} jitter outcomes => ?_⟩
  have hpaced := run_paced p jitter (following outcomes) 0
  refine ⟨hpaced.within, hpaced.count, hpaced.sum_le, fun o ho => ?_⟩
  have hends : Ends p jitter (following outcomes) 1 0 _ _ := run_ends 0
  rcases hends.overflow (Nat.le_refl 1) ho with ⟨s, hs⟩ | hpause
  · exact absurd hs (following_ne_overflow outcomes s o)
  · exact hpause

/-- A limit of two thirds of the last word, which no jitter leads out of the words, and one at the
last word, where a run breaks off and the pause to blame is found. -/
theorem pauses_in_band_near_last_word :
    (∀ jitter retries, ∃ d,
      (RetryPolicy.mk 3 12297829382473034410 12297829382473034410).backoff jitter retries = .ok d) ∧
    ∃ retries, retries + 1 < 2 ∧
      (RetryPolicy.mk 2 Word.last Word.last).backoff .half retries = .error .add := by
  let outcomes (_ : Nat) : Except Failure Unit := .error (.roundFailure ⟨1⟩ .accept 0 1)
  have hrun := (pauses_in_band ⟨2, Word.last, Word.last⟩).2.2.2.2.2 .half outcomes
  exact ⟨(pauses_in_band _).2.1.mpr (by decide), hrun.2.2.2 .add rfl⟩

/-- With limits at the last word, half of the jitter allowed is too much, and a run that has to make
one pause breaks off. -/
theorem run_past_last_word :
    (RetryPolicy.mk 2 Word.last Word.last).backoff .half 0 = .error .add ∧
      ((RetryPolicy.mk 2 Word.last Word.last).run .half (following fun i =>
        if i = 0 then .error (.roundFailure ⟨1⟩ .accept 0 1) else .ok 7) 0).outcome =
        .error (.overflow .add) :=
  ⟨rfl, rfl⟩

end RetryPolicy
end Synod
