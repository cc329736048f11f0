import Synod.Proposal

/-!
# Messages

What an acceptor answers in the two phases of a round. A refusal is an answer too, and names
the id that the acceptor has promised, so that the proposer can go past it.
-/
namespace Synod

/-- The two phases of a round. -/
inductive Phase
  | prepare
  | accept
  deriving DecidableEq, Repr

instance : ToString Phase := ⟨fun
  | .prepare => "prepare"
  | .accept => "accept"⟩

/-- An answer to a prepare request. -/
structure Promise where
  accepted : Bool
  id : ProposalId
  priorId : Option ProposalId
  priorValue : Option ProposalValue
  deriving DecidableEq, Repr

/-- A promise given for `id`, with the value accepted before it. -/
def Promise.give (id : ProposalId) (prior : Option ProposalValue) : Promise :=
  ⟨true, id, prior.map (·.id), prior⟩

/-- A promise refused because of the promise already given for `promised`. -/
def Promise.refuse (promised : ProposalId) : Promise := ⟨false, promised, none, none⟩

/-- An answer to an accept request; `promised` is the acceptor's promise after it. -/
structure Acceptance where
  accepted : Bool
  promised : ProposalId
  deriving DecidableEq, Repr

end Synod
