import Synod.Commits
import Synod.Leadership
import Synod.Network

/-!
# Simulated nodes

Proposers, leadership candidates and commit services on one network, driven one call at a time.
Candidates reach each other as peers, besides peers that only follow a script. A node that was
dropped is no longer there for anybody.
-/
namespace Synod

/-- What a scripted peer does when it is asked. -/
inductive PeerAnswer (α : Type)
  | gives (answer : α)
  | fails
  | hangs

def PeerAnswer.toOption {α : Type} : PeerAnswer α → Option α
  | gives answer => some answer
  | fails | hangs => none

structure ScriptedPeer where
  uuid : PeerAnswer String
  leading : PeerAnswer Bool

/-- Where a candidate's peer is found. -/
inductive PeerAddress
  | node (index : Nat)
  | scripted (index : Nat)
  deriving DecidableEq, Repr

inductive Role
  | proposer (p : Proposer)
  | candidate (c : Candidate PeerAddress)
  | commits (s : CommitService)

def Role.core : Role → Proposer
  | proposer p => p
  | candidate c => c.proposer
  | commits s => s.proposer

/-- A node and its connections: the acceptors it asks, the learners it tells, and its own. -/
structure SimulatedNode where
  role : Role
  acceptors : List Nat
  learners : List Nat
  learner : Nat
  dropped : Bool

structure Simulation where
  network : Network
  nodes : List SimulatedNode
  peers : List ScriptedPeer

namespace Simulation

def changeNode (s : Simulation) (i : Nat) (f : SimulatedNode → SimulatedNode) : Simulation :=
  { s with nodes := s.nodes.modify i f }

def setRole (s : Simulation) (i : Nat) (role : Role) : Simulation :=
  s.changeNode i ({ · with role })

/-- A proposer for a node: its thresholds, or the majority of its acceptors, have to be safe and
made for them. -/
def makeProposer (uuid : String) (thresholds : Option (UInt64 × UInt64 × UInt64))
    (acceptors : Nat) (floor : UInt64) : Except Fault Proposer := do
  let quorum ← match thresholds with
    | some (n, prepare, accept) => Quorum.ofThresholds n prepare accept
    | none => Quorum.majority (UInt64.ofNat acceptors)
  Fault.ofFailure (Proposer.make uuid quorum acceptors floor)

/-- The candidate of a node, unless the node is gone or is none. -/
def candidate? (s : Simulation) (i : Nat) : Option (SimulatedNode × Candidate PeerAddress) :=
  match s.nodes[i]? with
  | some node =>
    match node.role, node.dropped with
    | .candidate c, false => some (node, c)
    | _, _ => none
  | none => none

/-- Whether a candidate leads, asked of itself or by others. -/
def pingNode (s : Simulation) (i : Nat) : Option Bool × Simulation :=
  match s.candidate? i with
  | none => (none, s)
  | some (node, c) =>
    let (leading, c) := c.isLeader (s.network.learner node.learner)
    (some leading, s.setRole i (.candidate c))

def ping (address : PeerAddress) (s : Simulation) : Option Bool × Simulation :=
  match address with
  | .node i => s.pingNode i
  | .scripted k => (s.peers[k]?.bind (·.leading.toOption), s)

def identify (address : PeerAddress) (s : Simulation) : Option String × Simulation :=
  match address with
  | .node i => ((s.candidate? i).map (·.2.uuid), s)
  | .scripted k => (s.peers[k]?.bind (·.uuid.toOption), s)

def transport (node : SimulatedNode) : Transport Simulation :=
  (Network.transport node.acceptors node.learners).within (·.network)
    fun s network => { s with network }

def surroundings (node : SimulatedNode) : Surroundings PeerAddress Simulation where
  transport := transport node
  learner s := s.network.learner node.learner
  record slot value s :=
    let (r, network) := s.network.record node.learner slot value
    (r, { s with network })
  ping := ping
  identify := identify

def lookup (node : SimulatedNode) (slot : Slot) (s : Simulation) :
    Except Failure (Option ProposalValue) × Simulation :=
  let (r, network) := s.network.lookup node.learner slot
  (r, { s with network })

variable {α : Type}

/-- Lets the proposer of a node act. -/
def withProposer (i : Nat) (act : SimulatedNode → Proposer → Simulation → α × Proposer × Simulation)
    (s : Simulation) : Option (α × Simulation) :=
  match s.nodes[i]? with
  | some node =>
    match node.role with
    | .proposer p => let (a, p, s) := act node p s; some (a, s.setRole i (.proposer p))
    | _ => none
  | none => none

def withCandidate (i : Nat)
    (act : SimulatedNode → Candidate PeerAddress → Simulation →
      α × Candidate PeerAddress × Simulation)
    (s : Simulation) : Option (α × Simulation) :=
  match s.candidate? i with
  | some (node, c) => let (a, c, s) := act node c s; some (a, s.setRole i (.candidate c))
  | none => none

def withCommits (i : Nat)
    (act : SimulatedNode → CommitService → Simulation → α × CommitService × Simulation)
    (s : Simulation) : Option (α × Simulation) :=
  match s.nodes[i]? with
  | some node =>
    match node.role with
    | .commits c => let (a, c, s) := act node c s; some (a, s.setRole i (.commits c))
    | _ => none
  | none => none

def propose (i : Nat) (slot : Slot) (own : Payload) :
    Simulation → Option (Except Fault ProposalValue × Simulation) :=
  withProposer i fun node p s =>
    let (r, p, s) := p.propose (transport node) slot own s
    (Fault.ofFailure r, p, s)

def proposeRetrying (i : Nat) (policy : RetryPolicy) (jitter : Jitter) (slot : Slot) (own : Payload) :
    Simulation → Option (Except Fault ProposalValue × Simulation) :=
  withProposer i fun node p s =>
    let run := policy.run jitter (fun (p, s) =>
      let (r, p, s) := p.propose (transport node) slot own s
      (Fault.ofFailure r, p, s)) (p, s)
    (run.outcome, run.state)

/-- One attempt of a candidate; the second answer is its state while its round runs. -/
def tryAcquire (i : Nat) :
    Simulation → Option ((Except Fault LeadershipState × LeadershipState) × Simulation) :=
  withCandidate i fun node c s =>
    let standing := (c.course (surroundings node) s).2.1.state
    let (r, c, s) := c.tryAcquire (surroundings node) s
    ((r, standing), c, s)

def acquire (i : Nat) (policy : RetryPolicy) (jitter : Jitter) :
    Simulation → Option (Except Fault LeadershipState × Simulation) :=
  withCandidate i fun node c s =>
    let run := c.acquire (surroundings node) policy jitter s
    (run.outcome, run.state)

def refresh (i : Nat) : Simulation → Option (List Nat × Simulation) :=
  withCandidate i fun node c s => c.refresh (surroundings node) s

def observe (i : Nat) : Simulation → Option ((LeadershipState × Bool) × Simulation) :=
  withCandidate i fun _ c s =>
    let (seen, c) := c.observe
    (seen, c, s)

def addPeer (i : Nat) (address : PeerAddress) : Simulation → Option (Unit × Simulation) :=
  withCandidate i fun _ c s => ((), c.addPeer address, s)

/-- The leader that a candidate's learner knows. -/
def currentLeader (s : Simulation) (i : Nat) : Option (Slot × String) :=
  (s.nodes[i]?).bind fun node => (s.network.learner node.learner).leader?

def put (i : Nat) (jitter : Jitter) (start commit : UInt64) :
    Simulation → Option (Except Fault Unit × Simulation) :=
  withCommits i fun node c s => c.put (transport node) jitter start commit s

def get (i : Nat) (start : UInt64) : Simulation → Option (Except Failure (Option UInt64) × Simulation) :=
  withCommits i fun node c s => c.get (lookup node) start s

def getMany (i : Nat) (starts : List UInt64) :
    Simulation → Option (Except Failure (SlotMap UInt64) × Simulation) :=
  withCommits i fun node c s => c.getMany (lookup node) starts s

end Simulation
end Synod
