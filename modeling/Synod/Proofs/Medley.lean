import Synod.Proofs.Lawful

/-!
# Proposers that share nothing but acceptors

In a medley every proposer has thresholds and a list of acceptors of its own, in which an acceptor may
stand more than once. A round sends one request to each place of its proposer's list, and hears one
answer from each place at most. All else is as in an assembly. An assembly is a medley whose proposers
have the same thresholds and list every acceptor once.
-/
namespace Synod.Assembly
open RecordStore

variable {σ : Type} [RecordStore σ]

/-- One step of a medley. The proposer of a name asks the acceptors that `asks` lists for it, and its
rounds await places of this list. -/
inductive MedleyStep (view : StoreView σ) (asks : String → List Nat) :
    Assembly σ → Assembly σ → Prop
  | join {s p} (uuid : String) (quorum : Quorum) (floor : UInt64) (unused : s.proposers uuid = none)
      (made : Proposer.make uuid quorum (asks uuid).length floor = .ok p) :
      MedleyStep view asks s (s.setProposer uuid p)
  | start {s p id after} (k : Nat) (uuid : String) (slot : Slot) (own : Payload)
      (unused : s.rounds k = none) (known : s.proposers uuid = some p)
      (fresh : p.nextId = .ok (id, after)) :
      MedleyStep view asks s (s.begin (asks uuid).length k uuid after id slot own)
  | overtake {s p} (uuid : String) (seen : ProposalId) (known : s.proposers uuid = some p) :
      MedleyStep view asks s (s.setProposer uuid (p.fastForward seen))
  | act {s} (a : Nat) (e : Acceptor.Event view) (asked : ∀ r, e.request? = some r → r ∈ s.sent) :
      MedleyStep view asks s (s.act a e)
  | hearPromise {s r p awaited tally} (k i a : Nat) (answer : Option Promise)
      (round : s.rounds k = some r) (stage : r.stage = .preparing awaited tally)
      (known : s.proposers r.proposer = some p)
      (undecided : tally.Undecided p.quorum.acceptors.toNat p.quorum.prepare.toNat)
      (awaits : i ∈ awaited) (place : (asks r.proposer)[i]? = some a)
      (heard : ∀ promise, answer = some promise →
        .prepare r.slot r.id (.ok promise) ∈ s.calls a) :
      MedleyStep view asks s (s.setRound k { r with
        stage := .preparing (awaited.erase i) (tally.add (·.accepted) answer) })
  | hearAcceptance {s r p value awaited tally} (k i a : Nat) (answer : Option Acceptance)
      (round : s.rounds k = some r) (stage : r.stage = .accepting value awaited tally)
      (known : s.proposers r.proposer = some p)
      (undecided : tally.Undecided p.quorum.acceptors.toNat p.quorum.accept.toNat)
      (awaits : i ∈ awaited) (place : (asks r.proposer)[i]? = some a)
      (heard : ∀ acceptance, answer = some acceptance →
        .accept r.slot value (.ok acceptance) ∈ s.calls a) :
      MedleyStep view asks s (s.setRound k { r with
        stage := .accepting value (awaited.erase i) (tally.add (·.accepted) answer) })
  | offer {s r p awaited tally value after} (k : Nat) (round : s.rounds k = some r)
      (stage : r.stage = .preparing awaited tally) (known : s.proposers r.proposer = some p)
      (decided : ¬tally.Undecided p.quorum.acceptors.toNat p.quorum.prepare.toNat ∨ awaited = ∅)
      (closed : p.afterPrepare r.slot r.id r.own tally = (.ok value, after)) :
      MedleyStep view asks s
        (((s.setProposer r.proposer after).setRound k { r with
          stage := .accepting value (Finset.range (asks r.proposer).length) Tally.empty }).send
          (.accept r.slot value))
  | giveUp {s r p awaited tally e after} (k : Nat) (round : s.rounds k = some r)
      (stage : r.stage = .preparing awaited tally) (known : s.proposers r.proposer = some p)
      (decided : ¬tally.Undecided p.quorum.acceptors.toNat p.quorum.prepare.toNat ∨ awaited = ∅)
      (closed : p.afterPrepare r.slot r.id r.own tally = (.error e, after)) :
      MedleyStep view asks s ((s.setProposer r.proposer after).setRound k { r with
        stage := .ended (.error e) })
  | finish {s r p value awaited tally outcome after} (k : Nat) (round : s.rounds k = some r)
      (stage : r.stage = .accepting value awaited tally) (known : s.proposers r.proposer = some p)
      (decided : ¬tally.Undecided p.quorum.acceptors.toNat p.quorum.accept.toNat ∨ awaited = ∅)
      (closed : p.afterAccept r.slot value tally = (outcome, after)) :
      MedleyStep view asks s ((s.setProposer r.proposer after).setRound k { r with
        stage := .ended outcome })

variable {view : StoreView σ} {asks : String → List Nat} {s t : Assembly σ}

/-- An assembly is a medley. Its rounds await acceptors, which are the places of the list of all
acceptors. -/
theorem Lawful.medleyStep {quorum : Quorum} {size : Nat} (h : Lawful view quorum size s)
    (hstep : Step view quorum size s t) : MedleyStep view (fun _ => List.range size) s t := by
  have hlength : (List.range size).length = size := List.length_range
  have hplace : ∀ a, a < size → (List.range size)[a]? = some a := fun a ha => by simp [ha]
  cases hstep with
  | join uuid floor unused made =>
    exact .join uuid quorum floor unused (by rwa [hlength])
  | start k uuid slot own unused known fresh =>
    have hbegun : MedleyStep view (fun _ => List.range size) s _ :=
      .start k uuid slot own unused known fresh
    rwa [hlength] at hbegun
  | overtake uuid seen known => exact .overtake uuid seen known
  | act a e present asked => exact .act a e asked
  | hearPromise k a answer round stage known undecided awaits heard =>
    have hsound := h.staged round
    rw [stage] at hsound
    exact .hearPromise k a a answer round stage known undecided awaits
      (hplace a (hsound.awaited_lt a awaits)) heard
  | hearAcceptance k a answer round stage known undecided awaits heard =>
    have hsound := h.staged round
    rw [stage] at hsound
    exact .hearAcceptance k a a answer round stage known undecided awaits
      (hplace a (hsound.2.2.awaited_lt a awaits)) heard
  | offer k round stage known decided closed =>
    have hoffered : MedleyStep view (fun _ => List.range size) s _ :=
      .offer k round stage known decided closed
    rwa [hlength] at hoffered
  | giveUp k round stage known decided closed => exact .giveUp k round stage known decided closed
  | finish k round stage known decided closed => exact .finish k round stage known decided closed

end Synod.Assembly
