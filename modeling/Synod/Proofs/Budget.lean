import Synod.Proofs.Pauses

/-!
# What a run spends

A run ends with the first attempt that did not miss a quorum, or with the last one of its budget, and
it pauses once between any two attempts. What `run` records does not show in which order attempts and
pauses come. So the run is also made with a diary for a state, in which pauses and attempts note
themselves; the induction on the attempts left carries the diary along.
-/
namespace Synod.RetryPolicy

variable {α : Type} {p : RetryPolicy} {jitter : Jitter} {outcomes : Nat → Except Failure α}

/-- An outcome that a run ends with: a success, or a failure of any other kind than a missed
quorum. -/
def Final (outcome : Except Failure α) : Prop := ∀ e, outcome = .error e → e.isRoundFailure = false

/-- What is tried again is a missed quorum. -/
lemma exists_of_not_final {outcome : Except Failure α} (h : ¬Final outcome) :
    ∃ slot phase accepted required,
      outcome = .error (.roundFailure slot phase accepted required) := by
  simp only [Final, not_forall] at h
  obtain ⟨e, rfl, hround⟩ := h
  cases e with
  | roundFailure slot phase accepted required => exact ⟨slot, phase, accepted, required, rfl⟩
  | _ => exact absurd rfl hround

lemma Final.ne_roundFailure {outcome : Except Failure α} (h : Final outcome) (slot : Slot)
    (phase : Phase) (accepted required : Nat) :
    Fault.ofFailure outcome ≠ .error (.failure (.roundFailure slot phase accepted required)) := by
  rcases outcome with e | a
  · intro heq
    cases heq
    cases h _ rfl
  · exact nofun

/-! ### The diary of a run -/

/-- What is done in a run. -/
inductive Act
  | attempt
  | pause (length : UInt64)
  deriving DecidableEq, Repr

/-- Attempts whose outcomes are known beforehand, as in `following`, and which are noted. -/
def noting (outcomes : Nat → Except Failure α) (s : Nat × List Act) :
    Except Fault α × Nat × List Act :=
  (Fault.ofFailure (outcomes s.1), s.1 + 1, s.2 ++ [.attempt])

/-- A pause that is noted. -/
def notePause (length : UInt64) (s : Nat × List Act) : Nat × List Act :=
  (s.1, s.2 ++ [.pause length])

/-- A first attempt, and another one after each of some pauses. -/
def alternating (pauses : List UInt64) : List Act :=
  .attempt :: pauses.flatMap fun d => [.pause d, .attempt]

@[simp] lemma alternating_append (pauses : List UInt64) (d : UInt64) :
    alternating (pauses ++ [d]) = alternating pauses ++ [.pause d] ++ [.attempt] := by
  simp [alternating]

/-- How a run ends of which the first `made` attempts have failed: with the first final outcome that
comes, or with the budget. It has paused between any two attempts. -/
structure Spent (p : RetryPolicy) (jitter : Jitter) (outcomes : Nat → Except Failure α) (made : Nat)
    (r : Retried (Nat × List Act) α) : Prop where
  ends : (∃ n, made ≤ n ∧ n < p.budget ∧ Final (outcomes n) ∧
      (∀ m, made ≤ m → m < n → ¬Final (outcomes m)) ∧ r.attempts = n + 1 ∧
      r.outcome = Fault.ofFailure (outcomes n)) ∨
    (∀ m, made ≤ m → m < p.budget → ¬Final (outcomes m)) ∧ r.attempts = p.budget ∧
      ∃ e, outcomes (p.budget - 1) = .error e ∧ r.outcome = .error (p.exhausted e)
  calls : r.state.1 = r.attempts
  count : r.pauses.length + 1 = r.attempts
  each : ∀ j d, r.pauses[j]? = some d → p.backoff jitter j = .ok d
  diary : r.state.2 = alternating r.pauses

/-- One more attempt has failed, which was to be tried again. -/
lemma Spent.of_not_final {made : Nat} {r : Retried (Nat × List Act) α}
    (h : p.Spent jitter outcomes (made + 1) r) (hmade : ¬Final (outcomes made)) :
    p.Spent jitter outcomes made r := by
  have hfrom : ∀ {m}, made ≤ m → m = made ∨ made + 1 ≤ m := by omega
  refine ⟨?_, h.calls, h.count, h.each, h.diary⟩
  rcases h.ends with ⟨n, hn, hbudget, hfinal, hbefore, hends⟩ | ⟨hall, hends⟩
  · refine .inl ⟨n, by omega, hbudget, hfinal, fun m hm hlt => ?_, hends⟩
    rcases hfrom hm with rfl | hm
    · exact hmade
    · exact hbefore m hm hlt
  · refine .inr ⟨fun m hm hlt => ?_, hends⟩
    rcases hfrom hm with rfl | hm
    · exact hmade
    · exact hall m hm hlt

/-- The run ends here. -/
lemma spent_of_final {made : Nat} {pauses : List UInt64} (hbudget : made < p.budget)
    (hfinal : Final (outcomes made)) (count : pauses.length = made)
    (each : ∀ j d, pauses[j]? = some d → p.backoff jitter j = .ok d) :
    p.Spent jitter outcomes made
      ⟨Fault.ofFailure (outcomes made), (made + 1, alternating pauses), made + 1, pauses⟩ where
  ends := .inl ⟨made, Nat.le_refl _, hbudget, hfinal, by omega, rfl, rfl⟩
  calls := rfl
  count := congrArg (· + 1) count
  each := each
  diary := rfl

/-- Induction on the attempts left. -/
lemma spent_runAfter
    (fits : ∀ retries, retries + 1 < p.budget → ∃ d, p.backoff jitter retries = .ok d)
    {left made : Nat} (hbudget : made + left = p.budget) {last : Failure}
    (hlast : outcomes (made - 1) = .error last) {pauses : List UInt64}
    (count : pauses.length + 1 = made)
    (each : ∀ j d, pauses[j]? = some d → p.backoff jitter j = .ok d) :
    p.Spent jitter outcomes made (p.runAfterWaiting jitter notePause (noting outcomes) left made last
      pauses (made, alternating pauses)) := by
  induction left generalizing made last pauses with
  | zero =>
    obtain rfl : made = p.budget := hbudget
    exact ⟨.inr ⟨by omega, rfl, last, hlast, rfl⟩, rfl, count, each, rfl⟩
  | succ left ih =>
    obtain ⟨pause, hpause⟩ := fits (made - 1) (by omega)
    have heach : ∀ j d, (pauses ++ [pause])[j]? = some d → p.backoff jitter j = .ok d := by
      intro j d hd
      rcases Nat.lt_trichotomy j pauses.length with hj | rfl | hj
      · exact each j d (by rwa [List.getElem?_append_left hj] at hd)
      · have hindex : pauses.length = made - 1 := by omega
        simp only [List.getElem?_concat_length, Option.some.injEq] at hd
        rw [hindex, hpause, hd]
      · have hlength : (pauses ++ [pause]).length ≤ j := by simpa using Nat.succ_le_of_lt hj
        rw [List.getElem?_eq_none hlength] at hd
        cases hd
    have hnoted : noting outcomes (notePause pause (made, alternating pauses)) =
        (Fault.ofFailure (outcomes made), made + 1, alternating (pauses ++ [pause])) := by
      rw [alternating_append]
      rfl
    unfold runAfterWaiting
    simp only [hpause, hnoted]
    by_cases hfinal : Final (outcomes made)
    · split
      · rename_i hround
        exact absurd (congrArg Prod.fst hround) (hfinal.ne_roundFailure _ _ _ _)
      · rename_i hattempt
        cases hattempt
        exact spent_of_final (by omega) hfinal (by simpa using count) heach
    · obtain ⟨slot, phase, accepted, required, hround⟩ := exists_of_not_final hfinal
      have hlast : outcomes (made + 1 - 1) =
          .error (.roundFailure slot phase accepted required) := hround
      refine .of_not_final ?_ hfinal
      rw [hround]
      exact ih (by omega) hlast (by simpa using count) heach

theorem spent_run (fits : ∀ retries, retries + 1 < p.budget → ∃ d, p.backoff jitter retries = .ok d)
    (outcomes : Nat → Except Failure α) :
    p.Spent jitter outcomes 0 (p.runWaiting jitter notePause (noting outcomes) (0, [])) := by
  have hbudget : 1 ≤ p.budget := Nat.le_max_right p.maxAttempts.toNat 1
  have hnoted : noting outcomes (0, []) = (Fault.ofFailure (outcomes 0), 1, alternating []) := rfl
  unfold runWaiting
  simp only [hnoted]
  by_cases hfinal : Final (outcomes 0)
  · split
    · rename_i hround
      exact absurd (congrArg Prod.fst hround) (hfinal.ne_roundFailure _ _ _ _)
    · rename_i hattempt
      cases hattempt
      exact spent_of_final hbudget hfinal rfl (by simp)
  · obtain ⟨slot, phase, accepted, required, hround⟩ := exists_of_not_final hfinal
    refine .of_not_final ?_ hfinal
    rw [hround]
    exact spent_runAfter fits (by omega) hround rfl (by simp)

/-- A run makes attempts until one does not miss its quorum, and no more than its budget. It reports
what the last one reported, or that the budget is spent and how the last attempt failed. The pauses
are those of the retries in turn, one between any two attempts. -/
theorem run_spends_budget (p : RetryPolicy) (jitter : Jitter) (outcomes : Nat → Except Failure α)
    (fits : ∀ retries, retries + 1 < p.budget →
      p.least retries + p.drawn jitter retries < 2 ^ 64) :
    let done := p.run jitter (following outcomes) 0
    let noted := p.runWaiting jitter notePause (noting outcomes) (0, [])
    ((∃ n < p.budget, Final (outcomes n) ∧ (∀ m < n, ¬Final (outcomes m)) ∧
        done.attempts = n + 1 ∧ done.outcome = Fault.ofFailure (outcomes n)) ∨
      (∀ n < p.budget, ¬Final (outcomes n)) ∧ done.attempts = p.budget ∧
        ∃ e, outcomes (p.budget - 1) = .error e ∧
          done.outcome = .error (.failure (.serviceUnavailable (.gaveUp p.budget e.message)))) ∧
    (∀ n, n + 1 < done.attempts → ∃ slot phase accepted required,
      outcomes n = .error (.roundFailure slot phase accepted required)) ∧
    done.state = done.attempts ∧ done.pauses.length + 1 = done.attempts ∧
    (∀ j d, done.pauses[j]? = some d → p.backoff jitter j = .ok d) ∧
    done = noted.mapState Prod.fst ∧ noted.state.2 = alternating done.pauses := by
  intro done noted
  have hspent : p.Spent jitter outcomes 0 noted :=
    spent_run (fun retries hr => exists_backoff_iff.mpr (fits retries hr)) outcomes
  have hunseen : ∀ d t, (notePause d t).1 = t.1 := fun _ _ => rfl
  have hattempt : ∀ t, following outcomes t.1 = ((noting outcomes t).1, (noting outcomes t).2.1) :=
    fun _ => rfl
  have hsame : done = noted.mapState Prod.fst := run_part_waiting Prod.fst hunseen hattempt (0, [])
  have hends := hspent.ends
  simp only [Nat.zero_le, forall_true_left, true_and] at hends
  rw [hsame]
  have hagain : ∀ n, n + 1 < noted.attempts → ¬Final (outcomes n) := by
    intro n hn
    rcases hends with ⟨last, -, -, hbefore, hattempts, -⟩ | ⟨hall, hattempts, -⟩
    · exact hbefore n (by omega)
    · exact hall n (by omega)
  exact ⟨hends, fun n hn => exists_of_not_final (hagain n hn), hspent.calls, hspent.count,
    hspent.each, rfl, hspent.diary⟩

/-- Two attempts miss their quorum and the third one finds the disk broken, two attempts before the
budget would be spent. -/
theorem run_spends_budget_until_broken :
    let p : RetryPolicy := ⟨5, 10, 1000⟩
    let outcomes (n : Nat) : Except Failure Unit :=
      .error (if n < 2 then .roundFailure ⟨1⟩ .prepare 0 1 else .durability .refused)
    let done := p.run .half (following outcomes) 0
    let noted := p.runWaiting .half notePause (noting outcomes) (0, [])
    (∀ retries, retries + 1 < p.budget → p.least retries + p.drawn .half retries < 2 ^ 64) ∧
      done.attempts = 3 ∧ done.outcome = .error (.failure (.durability .refused)) ∧
      noted.state.2 = [.attempt, .pause 12, .attempt, .pause 25, .attempt] := by
  intro p outcomes done noted
  have fits : ∀ retries, retries + 1 < p.budget →
      p.least retries + p.drawn .half retries < 2 ^ 64 := by
    intro retries _
    have hleast : p.least retries ≤ 1000 := p.least_le_max retries
    have hdrawn := p.drawn_le .half retries
    omega
  have hspent := run_spends_budget p .half outcomes fits
  have hpauses : done.pauses = [12, 25] := by decide
  have hdiary : noted.state.2 = alternating done.pauses := hspent.2.2.2.2.2.2
  exact ⟨fits, by decide, by decide, hdiary.trans (congrArg alternating hpauses)⟩

end Synod.RetryPolicy
