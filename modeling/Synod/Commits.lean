import Synod.Proposer
import Synod.Retry
import Synod.SlotMap
import Synod.Text.Numeral

/-!
# Commit timestamps

The commit timestamp of a transaction is agreed upon in the slot of its start timestamp, so the
first one chosen is final. A node remembers every commit timestamp it has seen agreed, and never
replaces one that it remembers.
-/
namespace Synod

/-- A node's part: its proposer, and the commit timestamps it has seen, by start timestamp. -/
structure CommitService where
  proposer : Proposer
  retry : RetryPolicy
  commits : SlotMap UInt64

namespace CommitService
variable {ω : Type}

def new (proposer : Proposer) (retry : RetryPolicy) : CommitService := ⟨proposer, retry, ∅⟩

/-- A commit timestamp is agreed upon as its eight bytes, most significant first. -/
def encode (commit : UInt64) : Payload := Numeral.bigEndian 8 commit.toNat

def decode (slot : Slot) (payload : Payload) : Except Failure UInt64 :=
  if payload.length = 8 then .ok (UInt64.ofNat (Numeral.ofBigEndian payload))
  else .error (.malformedValue slot)

theorem decode_encode (slot : Slot) (commit : UInt64) : decode slot (encode commit) = .ok commit := by
  have h := Numeral.ofBigEndian_bigEndian 8 commit.toNat commit.toNat_lt
  simp [decode, encode, h]

/-- Remembers a commit timestamp, unless one is remembered already. -/
def remember (s : CommitService) (start commit : UInt64) : CommitService :=
  match s.commits.get? ⟨start⟩ with
  | some _ => s
  | none => { s with commits := s.commits.insert ⟨start⟩ commit }

/-- The commit timestamp of a transaction: the one remembered, or the one its learner knows. -/
def get (lookup : Slot → ω → Except Failure (Option ProposalValue) × ω) (start : UInt64)
    (s : CommitService) (w : ω) : Except Failure (Option UInt64) × CommitService × ω :=
  match s.commits.get? ⟨start⟩ with
  | some commit => (.ok (some commit), s, w)
  | none =>
    match lookup ⟨start⟩ w with
    | (.error e, w) => (.error e, s, w)
    | (.ok none, w) => (.ok none, s, w)
    | (.ok (some value), w) =>
      match decode ⟨start⟩ value.payload with
      | .error e => (.error e, s, w)
      | .ok commit => (.ok (some commit), s.remember start commit, w)

/-- Those of several transactions that have a commit timestamp, added to the ones found. -/
def getManyInto (lookup : Slot → ω → Except Failure (Option ProposalValue) × ω) :
    (starts : List UInt64) → (found : SlotMap UInt64) → CommitService → ω →
    Except Failure (SlotMap UInt64) × CommitService × ω
  | [], found, s, w => (.ok found, s, w)
  | start :: rest, found, s, w =>
    match s.get lookup start w with
    | (.error e, s, w) => (.error e, s, w)
    | (.ok none, s, w) => getManyInto lookup rest found s w
    | (.ok (some commit), s, w) => getManyInto lookup rest (found.insert ⟨start⟩ commit) s w

def getMany (lookup : Slot → ω → Except Failure (Option ProposalValue) × ω) (starts : List UInt64)
    (s : CommitService) (w : ω) : Except Failure (SlotMap UInt64) × CommitService × ω :=
  getManyInto lookup starts ∅ s w

/-- Rounds for a transaction's slot until one succeeds; the payload agreed upon. -/
def agree (t : Transport ω) (jitter : Jitter) (start commit : UInt64) (s : CommitService) (w : ω) :
    Except Fault Payload × CommitService × ω :=
  let run := s.retry.run jitter (fun (p, w) =>
    let (outcome, p, w) := p.propose t ⟨start⟩ (encode commit) w
    (Fault.ofFailure outcome, p, w)) (s.proposer, w)
  (run.outcome.map (·.payload), { s with proposer := run.state.1 }, run.state.2)

/-- What a commit comes to once a payload is agreed, which is remembered before the call returns. -/
def settle (start commit : UInt64) (payload : Payload) (s : CommitService) :
    Except Fault Unit × CommitService :=
  match decode ⟨start⟩ payload with
  | .error e => (.error (.failure e), s)
  | .ok agreed =>
    let s := s.remember start agreed
    if agreed = commit then (.ok (), s)
    else (.error (.failure (.keyAlreadyExists start agreed)), s)

/-- Commits a transaction, unless another commit timestamp is agreed already. -/
def put (t : Transport ω) (jitter : Jitter) (start commit : UInt64) (s : CommitService) (w : ω) :
    Except Fault Unit × CommitService × ω :=
  match s.agree t jitter start commit w with
  | (.error e, s, w) => (.error e, s, w)
  | (.ok payload, s, w) =>
    let (outcome, s) := s.settle start commit payload
    (outcome, s, w)

end CommitService
end Synod
