import Mathlib.Tactic.Lemma
import Synod.Commits

/-!
# A node's knowledge of commits

A commit service only knows what it was told: every entry of its table came from an agreed payload
or from the learner. If what it is told is true, then so is all that it knows and answers.
-/
namespace Synod
namespace CommitService

variable {ω : Type} {P : UInt64 → UInt64 → Prop}

/-- Every commit timestamp remembered is a true one. -/
def Knows (P : UInt64 → UInt64 → Prop) (s : CommitService) : Prop :=
  ∀ start commit, s.commits.get? ⟨start⟩ = some commit → P start commit

theorem knows_new (proposer : Proposer) (retry : RetryPolicy) : (new proposer retry).Knows P := by
  intro start commit h
  simp [new] at h

theorem Knows.mono {Q : UInt64 → UInt64 → Prop} {s : CommitService} (h : s.Knows P)
    (hPQ : ∀ start commit, P start commit → Q start commit) : s.Knows Q :=
  fun start commit hc => hPQ start commit (h start commit hc)

/-- An entry is made where there was none. -/
theorem get?_remember (s : CommitService) (start commit : UInt64) (slot : Slot) :
    (s.remember start commit).commits.get? slot =
      (s.commits.get? slot).or (if ⟨start⟩ = slot then some commit else none) := by
  unfold remember
  cases hheld : s.commits.get? ⟨start⟩ with
  | some held =>
    by_cases h : ⟨start⟩ = slot
    · subst h
      simp [hheld]
    · simp [h]
  | none =>
    by_cases h : ⟨start⟩ = slot
    · subst h
      simp [hheld]
    · simp [h]

lemma knows_remember {s : CommitService} (h : s.Knows P) {start commit : UInt64}
    (hP : P start commit) : (s.remember start commit).Knows P := by
  intro start' commit' hc
  rw [get?_remember] at hc
  rcases Option.or_eq_some_iff.mp hc with hold | ⟨_, hnew⟩
  · exact h start' commit' hold
  · split at hnew
    · rename_i heq
      obtain rfl := Slot.mk.inj heq
      obtain rfl := Option.some.inj hnew
      exact hP
    · cases hnew

/-- What a put answers once the payload of `agreed` is agreed. -/
theorem settle_encode (s : CommitService) (start commit agreed : UInt64) :
    s.settle start commit (encode agreed) =
      (if agreed = commit then .ok () else .error (.failure (.keyAlreadyExists start agreed)),
        s.remember start agreed) := by
  simp only [settle, decode_encode]
  split <;> rfl

/-- A lookup that answers with true commit timestamps, when it answers. -/
def Trusted (P : UInt64 → UInt64 → Prop)
    (lookup : Slot → ω → Except Failure (Option ProposalValue) × ω) : Prop :=
  ∀ start w v, (lookup ⟨start⟩ w).1 = .ok (some v) → ∃ commit, v.payload = encode commit ∧ P start commit

variable {lookup : Slot → ω → Except Failure (Option ProposalValue) × ω}

/-- A get answers truly, and fails only if its lookup does. -/
theorem get_spec (hl : Trusted P lookup) {s s' : CommitService} (hs : s.Knows P) {start : UInt64}
    {w w' : ω} {outcome : Except Failure (Option UInt64)}
    (h : s.get lookup start w = (outcome, s', w')) :
    s'.Knows P ∧ (∀ commit, outcome = .ok (some commit) → P start commit) ∧
    ∀ e, outcome = .error e → (lookup ⟨start⟩ w).1 = .error e := by
  have hlookup := hl start w
  unfold get at h
  cases hheld : s.commits.get? ⟨start⟩ with
  | some commit =>
    simp only [hheld, Prod.mk.injEq] at h
    obtain ⟨rfl, rfl, rfl⟩ := h
    refine ⟨hs, fun c hc => ?_, nofun⟩
    cases hc
    exact hs start commit hheld
  | none =>
    simp only [hheld] at h
    rcases hp : lookup ⟨start⟩ w with ⟨found | found, w₁⟩
    · simp only [hp, Prod.mk.injEq] at h
      obtain ⟨rfl, rfl, rfl⟩ := h
      exact ⟨hs, nofun, fun e he => congrArg Except.error (Except.error.inj he)⟩
    · rw [hp] at hlookup
      cases found with
      | none =>
        simp only [hp, Prod.mk.injEq] at h
        obtain ⟨rfl, rfl, rfl⟩ := h
        exact ⟨hs, nofun, nofun⟩
      | some v =>
        obtain ⟨commit, hpayload, hP⟩ := hlookup v rfl
        simp only [hp, hpayload, decode_encode, Prod.mk.injEq] at h
        obtain ⟨rfl, rfl, rfl⟩ := h
        refine ⟨knows_remember hs hP, fun c hc => ?_, nofun⟩
        cases hc
        exact hP

/-- Several gets in a row: induction on the timestamps still to be looked up. -/
theorem getManyInto_spec (hl : Trusted P lookup) {starts : List UInt64} {found : SlotMap UInt64}
    {s s' : CommitService} (hs : s.Knows P)
    (hf : ∀ start commit, found.get? ⟨start⟩ = some commit → P start commit) {w w' : ω}
    {outcome : Except Failure (SlotMap UInt64)}
    (h : s.getManyInto lookup starts found w = (outcome, s', w')) :
    s'.Knows P ∧
    (∀ found', outcome = .ok found' → ∀ start commit,
      found'.get? ⟨start⟩ = some commit → P start commit) ∧
    ∀ e, outcome = .error e → ∃ start w, (lookup ⟨start⟩ w).1 = .error e := by
  induction starts generalizing found s w with
  | nil =>
    simp only [getManyInto, Prod.mk.injEq] at h
    obtain ⟨rfl, rfl, rfl⟩ := h
    refine ⟨hs, fun found' hfound => ?_, nofun⟩
    cases hfound
    exact hf
  | cons start rest ih =>
    unfold getManyInto at h
    rcases hp : s.get lookup start w with ⟨e | commit, s₁, w₁⟩
    · obtain ⟨hs₁, _, herror⟩ := get_spec hl hs hp
      simp only [hp, Prod.mk.injEq] at h
      obtain ⟨rfl, rfl, rfl⟩ := h
      refine ⟨hs₁, nofun, fun e' he => ⟨start, w, ?_⟩⟩
      cases he
      exact herror e rfl
    · obtain ⟨hs₁, hcommit, _⟩ := get_spec hl hs hp
      cases commit with
      | none =>
        simp only [hp] at h
        exact ih hs₁ hf h
      | some commit =>
        simp only [hp] at h
        refine ih hs₁ (fun start' commit' hc => ?_) h
        rw [SlotMap.get?_insert] at hc
        split at hc
        · rename_i heq
          obtain rfl := Slot.mk.inj heq
          obtain rfl := Option.some.inj hc
          exact hcommit commit rfl
        · exact hf start' commit' hc

end CommitService
end Synod
