import Synod.Proofs.Assembly
import Synod.Proofs.Candidacy

/-!
# Candidates that share an assembly

Every node has a candidate, whose proposer takes part in the assembly, and a learner. Any number of
attempts to become leader are under way at the same time, and between two parts of one anything may
happen elsewhere. Whoever calls `acquire` makes one attempt after the other. Learners hear of the
rounds that succeeded, at any later time, more than once or never, and peers that are pinged may
answer anything or nothing. A node that has gone takes no more steps; one that is restarted is
another node here, whose name is new.
-/
namespace Synod
namespace Election

structure Node (π : Type) where
  candidate : Candidate π
  learner : Nat

/-- How far an attempt has come. -/
inductive Part
  /-- The node does not lead. -/
  | behind
  /-- The leader known, if there is one, is asked whether it is alive. -/
  | asking (known : Option (Slot × String))
  /-- A round of the node goes on. -/
  | standing (round : Nat)

structure Bid where
  node : Nat
  part : Part

end Election

/-- An assembly, learners, the nodes that use them, and the attempts of the nodes under way. -/
structure Election (σ π : Type) where
  assembly : Assembly σ
  learners : Nat → Learner
  nodes : Nat → Option (Election.Node π)
  bids : Nat → Option Election.Bid

namespace Election

variable {σ π : Type}

def init (stores : Nat → σ) : Election σ π :=
  ⟨Assembly.init stores, fun _ => Learner.empty, fun _ => none, fun _ => none⟩

def setAssembly (s : Election σ π) (assembly : Assembly σ) : Election σ π := { s with assembly }

def setLearner (s : Election σ π) (l : Nat) (learner : Learner) : Election σ π :=
  { s with learners := Function.update s.learners l learner }

def setNode (s : Election σ π) (i : Nat) (node : Node π) : Election σ π :=
  { s with nodes := Function.update s.nodes i (some node) }

def setBid (s : Election σ π) (b : Nat) (bid : Option Bid) : Election σ π :=
  { s with bids := Function.update s.bids b bid }

variable [RecordStore σ]

/-- One step of a node, or of the assembly behind the nodes. -/
inductive Step (view : StoreView σ) (quorum : Quorum) (size : Nat) :
    Election σ π → Election σ π → Prop
  /-- Any step of the assembly except that rounds are begun by attempts alone. -/
  | proceed {s a} (step : Assembly.Step view quorum size s.assembly a)
      (quiet : ∀ k, s.assembly.rounds k = none → a.rounds k = none) :
      Step view quorum size s (s.setAssembly a)
  | boot {s p} (i l : Nat) (uuid : String) (floor : UInt64) (unused : s.nodes i = none)
      (unnamed : s.assembly.proposers uuid = none)
      (made : Proposer.make uuid quorum size floor = .ok p) :
      Step view quorum size s
        ((s.setAssembly (s.assembly.setProposer uuid p)).setNode i ⟨.new p, l⟩)
  | notify {s r v} (l k : Nat) (round : s.assembly.rounds k = some r)
      (ended : r.stage = .ended (.ok v)) :
      Step view quorum size s (s.setLearner l ((s.learners l).record r.slot v).2)
  /-- A node looks whether it leads, for its own sake or to answer a ping. -/
  | look {s node leads candidate} (i : Nat) (present : s.nodes i = some node)
      (looked : node.candidate.isLeader (s.learners node.learner) = (leads, candidate)) :
      Step view quorum size s (s.setNode i { node with candidate })
  /-- Peers are added or tell their names, or somebody looks at the state. -/
  | tend {s node} (i : Nat) (peers : List (Peer π)) (changed : Bool)
      (present : s.nodes i = some node) :
      Step view quorum size s
        (s.setNode i { node with candidate := { node.candidate with peers, changed } })
  /-- An attempt is over at once, because the node leads. -/
  | lead {s node candidate} (i : Nat) (present : s.nodes i = some node)
      (leads : node.candidate.isLeader (s.learners node.learner) = (true, candidate)) :
      Step view quorum size s (s.setNode i { node with candidate := candidate.setState .leading })
  | enter {s node candidate} (b i : Nat) (unused : s.bids b = none)
      (present : s.nodes i = some node)
      (behind : node.candidate.isLeader (s.learners node.learner) = (false, candidate)) :
      Step view quorum size s ((s.setNode i { node with candidate }).setBid b (some ⟨i, .behind⟩))
  | ask {s bid node} (b : Nat) (pending : s.bids b = some bid) (part : bid.part = .behind)
      (present : s.nodes bid.node = some node) :
      Step view quorum size s
        (s.setBid b (some { bid with part := .asking (s.learners node.learner).leader? }))
  /-- No round is run: the leader known is alive, or no generation follows. -/
  | stay {s bid node known alive course candidate} (b : Nat) (pending : s.bids b = some bid)
      (part : bid.part = .asking known) (present : s.nodes bid.node = some node)
      (asked : alive = true → known.isSome)
      (weighed : node.candidate.weigh known alive = (course, candidate))
      (settled : ∀ generation, course ≠ .ok (.standing generation)) :
      Step view quorum size s ((s.setNode bid.node { node with candidate }).setBid b none)
  | stand {s bid node known generation candidate p id after} (b k : Nat)
      (pending : s.bids b = some bid) (part : bid.part = .asking known)
      (present : s.nodes bid.node = some node)
      (weighed : node.candidate.weigh known false = (.ok (.standing generation), candidate))
      (unused : s.assembly.rounds k = none)
      (joined : s.assembly.proposers candidate.uuid = some p)
      (fresh : p.nextId = .ok (id, after)) :
      Step view quorum size s
        (((s.setAssembly (s.assembly.begin size k candidate.uuid after id generation
          (Text.toBytes candidate.uuid))).setNode bid.node { node with candidate }).setBid b
            (some { bid with part := .standing k }))
  /-- No round is left to run. -/
  | exhaust {s bid node known generation candidate p e} (b : Nat)
      (pending : s.bids b = some bid) (part : bid.part = .asking known)
      (present : s.nodes bid.node = some node)
      (weighed : node.candidate.weigh known false = (.ok (.standing generation), candidate))
      (joined : s.assembly.proposers candidate.uuid = some p) (spent : p.nextId = .error e) :
      Step view quorum size s
        ((s.setNode bid.node { node with candidate := candidate.setState .notLeading }).setBid b
          none)
  | fail {s bid node k r e} (b : Nat) (pending : s.bids b = some bid)
      (part : bid.part = .standing k) (present : s.nodes bid.node = some node)
      (round : s.assembly.rounds k = some r) (ended : r.stage = .ended (.error e)) :
      Step view quorum size s
        ((s.setNode bid.node { node with
          candidate := node.candidate.setState .notLeading }).setBid b none)
  | conclude {s bid node k r v recorded learner outcome candidate} (b : Nat)
      (pending : s.bids b = some bid) (part : bid.part = .standing k)
      (present : s.nodes bid.node = some node) (round : s.assembly.rounds k = some r)
      (ended : r.stage = .ended (.ok v))
      (record : (s.learners node.learner).record r.slot v = (recorded, learner))
      (concluded : node.candidate.conclude v recorded = (outcome, candidate)) :
      Step view quorum size s
        (((s.setLearner node.learner learner).setNode bid.node { node with candidate }).setBid b
          none)
  /-- Whoever made the attempt waits no longer, or has gone. -/
  | drop {s} (b : Nat) : Step view quorum size s (s.setBid b none)

/-- What can come of an election in any number of steps. -/
def Reaches (view : StoreView σ) (quorum : Quorum) (size : Nat) :
    Election σ π → Election σ π → Prop :=
  Relation.ReflTransGen (Step view quorum size)

/-- Every acceptor has a store of its own, which is empty at first. -/
def Reachable (view : StoreView σ) (quorum : Quorum) (size : Nat) (s : Election σ π) : Prop :=
  ∃ stores : Nat → σ, (∀ a, view.held (stores a) = fun _ => none) ∧
    Reaches view quorum size (init stores) s

end Election
end Synod
