import Synod.Failure

/-!
# Retrying

A failed round is tried again after a pause that doubles up to a limit, lengthened by jitter of
at most half. The jitter is an input here, and so are the outcomes of the attempts: `run` is a
function of both, and its result records the pauses as well as the outcome.
-/
namespace Synod

/-- How often to try, and how long to pause in between, in milliseconds. -/
structure RetryPolicy where
  maxAttempts : UInt32
  initialBackoff : UInt64
  maxBackoff : UInt64
  deriving DecidableEq, Repr

/-- Where jitter comes from: a number of milliseconds for each retry, within a bound. -/
structure Jitter where
  draw : (retries : Nat) → (bound : UInt64) → UInt64
  draw_le : ∀ retries bound, draw retries bound ≤ bound

namespace Jitter

/-- No jitter at all. -/
def none : Jitter := ⟨fun _ _ => 0, fun _ _ => UInt64.zero_le⟩

/-- Half of the jitter allowed. -/
def half : Jitter := ⟨fun _ bound => bound / 2, fun _ bound => by
  simpa [UInt64.le_iff_toNat_le] using Nat.div_le_self bound.toNat 2⟩

/-- As much jitter as allowed. -/
def most : Jitter := ⟨fun _ bound => bound, fun _ _ => UInt64.le_refl _⟩

end Jitter

/-- What became of a run of attempts, started from and ending in some outside state. -/
structure Retried (σ α : Type) where
  outcome : Except Fault α
  state : σ
  attempts : Nat
  pauses : List UInt64

namespace RetryPolicy

def default : RetryPolicy := ⟨5, 10, 1000⟩

instance : Inhabited RetryPolicy := ⟨default⟩

/-- At least one attempt is made. -/
def budget (p : RetryPolicy) : Nat := max p.maxAttempts.toNat 1

/-- The pause before jitter: doubled with every retry up to the sixteenth, and limited. -/
def base (p : RetryPolicy) (retries : Nat) : UInt64 :=
  min (Word.saturatingMul p.initialBackoff (UInt64.ofNat (1 <<< min retries 16))) p.maxBackoff

/-- The pause before retry number `retries`, counted from zero. -/
def backoff (p : RetryPolicy) (jitter : Jitter) (retries : Nat) : Except Overflow UInt64 :=
  let base := p.base retries
  (Word.add base (jitter.draw retries (base / 2))).map (min · p.maxBackoff)

variable {σ α : Type}

/-- The failure reported when the budget is spent. -/
def exhausted (p : RetryPolicy) (last : Failure) : Fault :=
  .failure (.serviceUnavailable (.gaveUp p.budget last.message))

/-- Tries again after the failed attempt number `made`, while `left` attempts remain. -/
def runAfter (p : RetryPolicy) (jitter : Jitter) (attempt : σ → Except Fault α × σ) :
    (left made : Nat) → (last : Failure) → (pauses : List UInt64) → σ → Retried σ α
  | 0, made, last, pauses, s => ⟨.error (p.exhausted last), s, made, pauses⟩
  | left + 1, made, _, pauses, s =>
    match p.backoff jitter (made - 1) with
    | .error o => ⟨.error (.overflow o), s, made, pauses⟩
    | .ok pause =>
      match attempt s with
      | (.error (.failure (.roundFailure slot phase accepted required)), s) =>
        runAfter p jitter attempt left (made + 1) (.roundFailure slot phase accepted required)
          (pauses ++ [pause]) s
      | (outcome, s) => ⟨outcome, s, made + 1, pauses ++ [pause]⟩

/-- Attempts until one ends with anything but a failed round, or the budget is spent. -/
def run (p : RetryPolicy) (jitter : Jitter) (attempt : σ → Except Fault α × σ) (s : σ) :
    Retried σ α :=
  match attempt s with
  | (.error (.failure (.roundFailure slot phase accepted required)), s) =>
    runAfter p jitter attempt (p.budget - 1) 1 (.roundFailure slot phase accepted required) [] s
  | (outcome, s) => ⟨outcome, s, 1, []⟩

end RetryPolicy
end Synod
