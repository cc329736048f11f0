import Synod.Message
import Synod.Tally

/-!
# Proposers

A proposer runs rounds against a fixed set of acceptors. Every round takes a fresh id from one
counter; refusals move the counter past the ids they name. `afterPrepare` and `afterAccept` are
what a proposer does with the tally of a phase, and `propose` is the whole round, given how
answers come about: a `Transport` turns a request into answers that arrive when awaited.
-/
namespace Synod

/-- How requests reach acceptors and learners. A request yields the answers to await, each a
step of the outside state; `none` stands for a call that did not complete. -/
structure Transport (ω : Type) where
  prepare : Slot → ProposalId → ω → List (ω → Option Promise × ω) × ω
  accept : Slot → ProposalValue → ω → List (ω → Option Acceptance × ω) × ω
  notify : Slot → ProposalValue → ω → ω

/-- A transport for a part of a larger state. -/
def Transport.within {σ ω : Type} (part : σ → ω) (replace : σ → ω → σ) (t : Transport ω) :
    Transport σ where
  prepare slot id s :=
    let (answers, w) := t.prepare slot id (part s)
    (answers.map fun await s => let (a, w) := await (part s); (a, replace s w), replace s w)
  accept slot value s :=
    let (answers, w) := t.accept slot value (part s)
    (answers.map fun await s => let (a, w) := await (part s); (a, replace s w), replace s w)
  notify slot value s := replace s (t.notify slot value (part s))

/-- The acceptance that a promise reports: it must accept, and name both the id and the value. -/
def Promise.reported? (p : Promise) : Option (ProposalId × ProposalValue) :=
  match p.accepted, p.priorId, p.priorValue with
  | true, some id, some value => some (id, value)
  | _, _, _ => none

/-- The entry with the highest id, the last one where several have it. -/
def highest? : List (ProposalId × ProposalValue) → Option (ProposalId × ProposalValue)
  | [] => none
  | e :: rest =>
    match highest? rest with
    | none => some e
    | some best => if best.1 < e.1 then some e else some best

/-- What a round has to propose: the payload accepted under the highest id that its promises
report, and its own only if they report none. -/
def resolvePayload (promises : List Promise) (own : Payload) : Payload :=
  match highest? (promises.filterMap Promise.reported?) with
  | some e => e.2.payload
  | none => own

/-- A proposer's name, its thresholds, and the next round it will use. -/
structure Proposer where
  uuid : String
  quorum : Quorum
  nextRound : UInt64
  deriving DecidableEq

namespace Proposer

/-- A proposer for a number of acceptors, which its quorum has to be made for. -/
def make (uuid : String) (quorum : Quorum) (acceptors : Nat) (floor : UInt64) :
    Except Failure Proposer :=
  if quorum.acceptors.toNat = acceptors then .ok ⟨uuid, quorum, floor⟩
  else .error (.invalidConfig (.sizeMismatch quorum.acceptors acceptors))

/-- A fresh id. The last round is never handed out. -/
def nextId (p : Proposer) : Except Failure (ProposalId × Proposer) :=
  match Word.next? p.nextRound with
  | none => .error (.roundsExhausted p.uuid)
  | some after => .ok (⟨p.nextRound, p.uuid⟩, { p with nextRound := after })

/-- Makes sure that the ids still to come are above `seen`. -/
def fastForward (p : Proposer) (seen : ProposalId) : Proposer :=
  let floor := match ProposalId.next seen p.uuid with
    | some id => id.round
    | none => Word.last
  { p with nextRound := max p.nextRound floor }

/-- The counter never goes back. -/
theorem nextRound_le_fastForward (p : Proposer) (seen : ProposalId) :
    p.nextRound ≤ (p.fastForward seen).nextRound := by
  rw [fastForward, UInt64.le_iff_toNat_le, Word.toNat_max]
  exact Nat.le_max_left _ _

@[simp] theorem uuid_fastForward (p : Proposer) (seen : ProposalId) :
    (p.fastForward seen).uuid = p.uuid := rfl

@[simp] theorem quorum_fastForward (p : Proposer) (seen : ProposalId) :
    (p.fastForward seen).quorum = p.quorum := rfl

def fastForwardAll (p : Proposer) (seen : List ProposalId) : Proposer :=
  seen.foldl fastForward p

/-- Closes the prepare phase: the value to propose, if enough promises were given. -/
def afterPrepare (p : Proposer) (slot : Slot) (id : ProposalId) (own : Payload)
    (tally : Tally Promise) : Except Failure ProposalValue × Proposer :=
  let required := p.quorum.prepare.toNat
  let p := p.fastForwardAll (tally.refused.map (·.id))
  if tally.Reached required then (.ok ⟨id, slot, resolvePayload tally.agreed own⟩, p)
  else (.error (.roundFailure slot .prepare tally.agreed.length required), p)

/-- Closes the accept phase: the value is chosen, if enough acceptors accepted it. -/
def afterAccept (p : Proposer) (slot : Slot) (value : ProposalValue) (tally : Tally Acceptance) :
    Except Failure ProposalValue × Proposer :=
  let required := p.quorum.accept.toNat
  let p := p.fastForwardAll (tally.refused.map (·.promised))
  if tally.Reached required then (.ok value, p)
  else (.error (.roundFailure slot .accept tally.agreed.length required), p)

variable {ω : Type}

/-- The second half of a round: accept, and on success tell the learners. -/
def acceptPhase (t : Transport ω) (slot : Slot) (value : ProposalValue) (p : Proposer) (w : ω) :
    Except Failure ProposalValue × Proposer × ω :=
  let (answers, w) := t.accept slot value w
  let (tally, w) := Tally.gather (·.accepted) p.quorum.acceptors.toNat p.quorum.accept.toNat
    Tally.empty w answers
  match p.afterAccept slot value tally with
  | (.error e, p) => (.error e, p, w)
  | (.ok value, p) => (.ok value, p, t.notify slot value w)

/-- One round for a slot. The value chosen carries the round's id; its payload is the one that
the acceptors bound the round to, or `own`. -/
def propose (t : Transport ω) (slot : Slot) (own : Payload) (p : Proposer) (w : ω) :
    Except Failure ProposalValue × Proposer × ω :=
  match p.nextId with
  | .error e => (.error e, p, w)
  | .ok (id, p) =>
    let (answers, w) := t.prepare slot id w
    let (tally, w) := Tally.gather (·.accepted) p.quorum.acceptors.toNat p.quorum.prepare.toNat
      Tally.empty w answers
    match p.afterPrepare slot id own tally with
    | (.error e, p) => (.error e, p, w)
    | (.ok value, p) => p.acceptPhase t slot value w

end Proposer
end Synod
