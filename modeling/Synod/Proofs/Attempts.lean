import Mathlib.Tactic.Lemma
import Synod.Retry

/-!
# One attempt after the other

What a retry loop does is settled attempt by attempt: the failure of one, and its number, say
whether there is another. So whoever follows the verdicts may let other things happen between two
attempts, and still does what the loop does.
-/
namespace Synod

/-- The same run, seen through a function of the state. -/
def Retried.mapState {σ τ α : Type} (f : σ → τ) (r : Retried σ α) : Retried τ α :=
  ⟨r.outcome, f r.state, r.attempts, r.pauses⟩

namespace RetryPolicy

/-- What follows attempt number `made`, which missed a quorum or worse: another attempt, or the
failure to report. -/
def verdict (p : RetryPolicy) (jitter : Jitter) (made : Nat) (e : Failure) :
    Option Fault :=
  if e.isRoundFailure then
    if made < p.budget then
      match p.backoff jitter (made - 1) with
      | .error o => some (.overflow o)
      | .ok _ => none
    else some (p.exhausted e)
  else some (.failure e)

/-- The failure of an attempt is reported as it is only if it is no round failure. -/
lemma verdict_cases {p : RetryPolicy} {jitter : Jitter} {made : Nat} {e : Failure}
    {f : Fault} (h : p.verdict jitter made e = some f) :
    (∃ o, f = .overflow o) ∨ (∃ cause, f = .failure (.serviceUnavailable cause)) ∨
      (e.isRoundFailure = false ∧ f = .failure e) := by
  unfold verdict at h
  split at h
  · split at h
    · split at h
      · exact .inl ⟨_, (Option.some.inj h).symm⟩
      · cases h
    · exact .inr (.inl ⟨_, (Option.some.inj h).symm⟩)
  · rename_i hround
    exact .inr (.inr ⟨by simpa using hround, (Option.some.inj h).symm⟩)

variable {σ α : Type}

/-- How attempts go on from attempt number `made`, one verdict after the other. -/
inductive Ends (p : RetryPolicy) (jitter : Jitter) (attempt : σ → Except Fault α × σ) :
    (made : Nat) → σ → Except Fault α → σ → Prop
  | answered {made s a t} (attempted : attempt s = (.ok a, t)) :
      Ends p jitter attempt made s (.ok a) t
  | overflowed {made s o t} (attempted : attempt s = (.error (.overflow o), t)) :
      Ends p jitter attempt made s (.error (.overflow o)) t
  | failed {made s e f t} (attempted : attempt s = (.error (.failure e), t))
      (verdict : p.verdict jitter made e = some f) : Ends p jitter attempt made s (.error f) t
  | retried {made s e t outcome u} (attempted : attempt s = (.error (.failure e), t))
      (verdict : p.verdict jitter made e = none)
      (rest : Ends p jitter attempt (made + 1) t outcome u) :
      Ends p jitter attempt made s outcome u

variable {p : RetryPolicy} {jitter : Jitter} {attempt : σ → Except Fault α × σ}

/-- An attempt that did not end in a round failure is the last one. -/
lemma Ends.last {made : Nat} {s t : σ} {outcome : Except Fault α}
    (h : attempt s = (outcome, t))
    (hother : ∀ slot phase accepted required,
      outcome = .error (.failure (.roundFailure slot phase accepted required)) → False) :
    Ends p jitter attempt made s outcome t := by
  rcases outcome with (e | o) | a
  · have hround : e.isRoundFailure = false := by
      cases e with
      | roundFailure => exact (hother _ _ _ _ rfl).elim
      | _ => rfl
    exact .failed h (by simp [verdict, hround])
  · exact .overflowed h
  · exact .answered h

/-- Induction on the attempts left. -/
lemma runAfter_ends {left made : Nat} (hbudget : made + left = p.budget) {last : Failure}
    (hround : last.isRoundFailure) {s t : σ} (h : attempt s = (.error (.failure last), t))
    (pauses : List UInt64) :
    Ends p jitter attempt made s (p.runAfter jitter attempt left made last pauses t).outcome
      (p.runAfter jitter attempt left made last pauses t).state := by
  induction left generalizing made last s t pauses with
  | zero => exact .failed h (by simp [verdict, hround, ← hbudget])
  | succ left ih =>
    have hspare : made < p.budget := by omega
    unfold runAfter
    cases hpause : p.backoff jitter (made - 1) with
    | error o => exact .failed h (by simp [verdict, hround, hspare, hpause])
    | ok pause =>
      refine .retried h (by simp [verdict, hround, hspare, hpause]) ?_
      dsimp only
      split
      · rename_i hattempt
        exact ih (by omega) rfl hattempt _
      · rename_i hother hattempt
        exact Ends.last hattempt hother

/-- The retry loop goes by the verdicts. -/
theorem run_ends (s : σ) :
    Ends p jitter attempt 1 s (p.run jitter attempt s).outcome (p.run jitter attempt s).state := by
  have hbudget : 1 + (p.budget - 1) = p.budget := by
    have := Nat.le_max_right p.maxAttempts.toNat 1
    unfold budget
    omega
  unfold run
  split
  · rename_i hattempt
    exact runAfter_ends hbudget rfl hattempt _
  · rename_i hother hattempt
    exact Ends.last hattempt hother

/-- A failure that is reported is one of giving up, or it is what an attempt met with. -/
theorem Ends.failure {made : Nat} {s t : σ} {outcome : Except Fault α} {e : Failure}
    (h : Ends p jitter attempt made s outcome t) (he : outcome = .error (.failure e)) :
    (∃ cause, e = .serviceUnavailable cause) ∨
      e.isRoundFailure = false ∧ ∃ s t, attempt s = (.error (.failure e), t) := by
  induction h with
  | answered => cases he
  | overflowed => cases he
  | @failed made s e' f t attempted verdict =>
    cases he
    rcases verdict_cases verdict with ⟨o, ho⟩ | ⟨cause, hcause⟩ | ⟨hround, hsame⟩
    · cases ho
    · cases hcause
      exact .inl ⟨cause, rfl⟩
    · cases hsame
      exact .inr ⟨hround, s, t, attempted⟩
  | retried attempted verdict rest ih => exact ih he

/-! ### Pauses that do something -/

/-- The loop of `runAfter`, where `wait` says what a pause does to the state. -/
def runAfterWaiting (p : RetryPolicy) (jitter : Jitter) (wait : UInt64 → σ → σ)
    (attempt : σ → Except Fault α × σ) :
    (left made : Nat) → (last : Failure) → (pauses : List UInt64) → σ → Retried σ α
  | 0, made, last, pauses, s => ⟨.error (p.exhausted last), s, made, pauses⟩
  | left + 1, made, _, pauses, s =>
    match p.backoff jitter (made - 1) with
    | .error o => ⟨.error (.overflow o), s, made, pauses⟩
    | .ok pause =>
      match attempt (wait pause s) with
      | (.error (.failure (.roundFailure slot phase accepted required)), s) =>
        runAfterWaiting p jitter wait attempt left (made + 1)
          (.roundFailure slot phase accepted required) (pauses ++ [pause]) s
      | (outcome, s) => ⟨outcome, s, made + 1, pauses ++ [pause]⟩

/-- The loop of `run`, where `wait` says what a pause does to the state. -/
def runWaiting (p : RetryPolicy) (jitter : Jitter) (wait : UInt64 → σ → σ)
    (attempt : σ → Except Fault α × σ) (s : σ) : Retried σ α :=
  match attempt s with
  | (.error (.failure (.roundFailure slot phase accepted required)), s) =>
    runAfterWaiting p jitter wait attempt (p.budget - 1) 1
      (.roundFailure slot phase accepted required) [] s
  | (outcome, s) => ⟨outcome, s, 1, []⟩

variable {τ : Type} (part : τ → σ) {attempt' : τ → Except Fault α × τ}

section Waiting
variable {wait : UInt64 → τ → τ}

lemma runAfter_part_waiting (hwait : ∀ d t, part (wait d t) = part t)
    (h : ∀ t, attempt (part t) = ((attempt' t).1, part (attempt' t).2))
    (left made : Nat) (last : Failure) (pauses : List UInt64) (t : τ) :
    p.runAfter jitter attempt left made last pauses (part t) =
      (p.runAfterWaiting jitter wait attempt' left made last pauses t).mapState part := by
  induction left generalizing made last pauses t with
  | zero => rfl
  | succ left ih =>
    unfold runAfter runAfterWaiting
    cases p.backoff jitter (made - 1) with
    | error o => rfl
    | ok pause =>
      rw [← hwait pause t]
      rcases hattempt : attempt' (wait pause t) with ⟨(_ | _) | _, t'⟩
      · rename_i e
        simp only [h, hattempt]
        cases e with
        | roundFailure => exact ih _ _ _ _
        | _ => rfl
      · simp only [h, hattempt]
        rfl
      · simp only [h, hattempt]
        rfl

/-- A run is one with pauses that do something, seen through a function of the state that does not
show what they do. -/
theorem run_part_waiting (hwait : ∀ d t, part (wait d t) = part t)
    (h : ∀ t, attempt (part t) = ((attempt' t).1, part (attempt' t).2)) (t : τ) :
    p.run jitter attempt (part t) = (p.runWaiting jitter wait attempt' t).mapState part := by
  unfold run runWaiting
  rcases hattempt : attempt' t with ⟨(_ | _) | _, t'⟩
  · rename_i e
    simp only [h, hattempt]
    cases e with
    | roundFailure => exact runAfter_part_waiting part hwait h _ _ _ _ _
    | _ => rfl
  · simp only [h, hattempt]
    rfl
  · simp only [h, hattempt]
    rfl

end Waiting

/-- Attempts on a part of a state go as the attempts on the whole that do the same to the part. -/
theorem run_part (h : ∀ t, attempt (part t) = ((attempt' t).1, part (attempt' t).2)) (t : τ) :
    p.run jitter attempt (part t) = (p.run jitter attempt' t).mapState part := by
  have hidle : p.run jitter attempt' t = p.runWaiting jitter (fun _ t => t) attempt' t :=
    run_part_waiting id (fun _ _ => rfl) (fun _ => rfl) t
  rw [hidle]
  exact run_part_waiting part (fun _ _ => rfl) h t

end RetryPolicy
end Synod
