import Synod.Learner
import Synod.Proposer
import Synod.Retry
import Synod.Text.Utf8

/-!
# Leadership

Every leadership generation is a slot, and the payload chosen for it is the name of the node
that leads. A node leads while the greatest generation its learner knows names it. A candidate
first looks whether the known leader answers, by asking the peer that goes by the leader's name,
and stands for the next generation only if it does not. What a candidate can reach is a
`Surroundings`; its functions may do anything, and every rule here holds whatever they do.
-/
namespace Synod

inductive LeadershipState
  | notLeading
  | attempting
  | leading
  deriving DecidableEq, Repr

def LeadershipState.name : LeadershipState → String
  | .notLeading => "NotLeading"
  | .attempting => "Attempting"
  | .leading => "Leading"

/-- Another node: where to reach it, and the name it gave when last asked. -/
structure Peer (π : Type) where
  address : π
  uuid : Option String
  deriving DecidableEq, Repr

/-- A node that can lead. `changed` tells whether its state was set since someone last looked. -/
structure Candidate (π : Type) where
  proposer : Proposer
  state : LeadershipState
  changed : Bool
  peers : List (Peer π)

/-- What a candidate can reach: acceptors, its own learner, and peers at addresses `π`. A peer
that does not answer in time answers `none`. -/
structure Surroundings (π ω : Type) where
  transport : Transport ω
  learner : ω → Learner
  record : Slot → ProposalValue → ω → Except Failure Unit × ω
  ping : π → ω → Option Bool × ω
  identify : π → ω → Option String × ω

/-- The leader that a learner knows: the generation and the node's name. -/
def Learner.leader? (l : Learner) : Option (Slot × String) :=
  l.greatest?.map fun v => (v.slot, Text.ofBytesLossy v.payload)

/-- Asks peers for their names, and keeps the answers. The numbers returned are those of the
peers that gave another name than before, which means that they restarted. -/
def Peer.refresh {π ω : Type} (identify : π → ω → Option String × ω) :
    (index : Nat) → List (Peer π) → ω → List Nat × List (Peer π) × ω
  | _, [], w => ([], [], w)
  | index, peer :: rest, w =>
    let (answer, w) := identify peer.address w
    let (restarted, rest, w) := refresh identify (index + 1) rest w
    match answer with
    | none => (restarted, peer :: rest, w)
    | some uuid =>
      let restarted := if peer.uuid.isSome ∧ peer.uuid ≠ some uuid then index :: restarted else restarted
      (restarted, { peer with uuid := some uuid } :: rest, w)

namespace Candidate
variable {π ω : Type}

def new (proposer : Proposer) : Candidate π := ⟨proposer, .notLeading, false, []⟩

def uuid (c : Candidate π) : String := c.proposer.uuid

def setState (c : Candidate π) (state : LeadershipState) : Candidate π :=
  { c with state, changed := true }

/-- The state, and whether it was set since the last look. -/
def observe (c : Candidate π) : (LeadershipState × Bool) × Candidate π :=
  ((c.state, c.changed), { c with changed := false })

def addPeer (c : Candidate π) (address : π) : Candidate π :=
  { c with peers := c.peers ++ [⟨address, none⟩] }

/-- Whether the greatest generation known names this node. Asking notices a lost leadership. -/
def isLeader (l : Learner) (c : Candidate π) : Bool × Candidate π :=
  if l.leader?.map (·.2) = some c.uuid then (true, c)
  else (false, if c.state = .leading then c.setState .notLeading else c)

def refresh (s : Surroundings π ω) (c : Candidate π) (w : ω) : List Nat × Candidate π × ω :=
  let (restarted, peers, w) := Peer.refresh s.identify 0 c.peers w
  (restarted, { c with peers }, w)

/-- The peer that last gave this name. -/
def peerNamed? (c : Candidate π) (uuid : String) : Option π :=
  (c.peers.find? (·.uuid = some uuid)).map (·.address)

/-- The peer of this name, all peers being asked again if none is known by it. -/
def locate (s : Surroundings π ω) (uuid : String) (c : Candidate π) (w : ω) :
    Option π × Candidate π × ω :=
  match c.peerNamed? uuid with
  | some address => (some address, c, w)
  | none =>
    let (_, c, w) := c.refresh s w
    (c.peerNamed? uuid, c, w)

/-- Whether the node of this name answers a ping, and claims to lead. -/
def leaderIsAlive (s : Surroundings π ω) (uuid : String) (c : Candidate π) (w : ω) :
    Bool × Candidate π × ω :=
  match c.locate s uuid w with
  | (none, c, w) => (false, c, w)
  | (some address, c, w) =>
    let (answer, w) := s.ping address w
    (answer.getD false, c, w)

/-- What a candidate does next. -/
inductive Course
  | settled (state : LeadershipState)
  | standing (generation : Slot)
  deriving DecidableEq, Repr

/-- The generation after the one known, or the first. -/
def nextGeneration : Option (Slot × String) → Except Overflow Slot
  | none => .ok ⟨0⟩
  | some (generation, _) => generation.next

/-- Stays out if this node leads already or the known leader is alive, and otherwise stands for
the next generation. -/
def course (s : Surroundings π ω) (c : Candidate π) (w : ω) :
    Except Fault Course × Candidate π × ω :=
  let l := s.learner w
  match c.isLeader l with
  | (true, c) => (.ok (.settled .leading), c.setState .leading, w)
  | (false, c) =>
    let known := l.leader?
    let (alive, c, w) := match known with
      | none => (false, c, w)
      | some (_, leader) => c.leaderIsAlive s leader w
    if alive then (.ok (.settled .notLeading), c.setState .notLeading, w)
    else match nextGeneration known with
      | .error o => (.error (.overflow o), c, w)
      | .ok generation => (.ok (.standing generation), c.setState .attempting, w)

/-- Runs a round for a generation, and records what was chosen. -/
def stand (s : Surroundings π ω) (generation : Slot) (c : Candidate π) (w : ω) :
    Except Fault LeadershipState × Candidate π × ω :=
  match c.proposer.propose s.transport generation (Text.toBytes c.uuid) w with
  | (.error e, proposer, w) => (.error (.failure e), { c with proposer }.setState .notLeading, w)
  | (.ok chosen, proposer, w) =>
    let c := { c with proposer }
    match s.record generation chosen w with
    | (.error e, w) => (.error (.failure e), c.setState .notLeading, w)
    | (.ok (), w) =>
      let outcome := if Text.ofBytesLossy chosen.payload = c.uuid then .leading else .notLeading
      (.ok outcome, c.setState outcome, w)

/-- One attempt to become leader. -/
def tryAcquire (s : Surroundings π ω) (c : Candidate π) (w : ω) :
    Except Fault LeadershipState × Candidate π × ω :=
  match c.course s w with
  | (.error e, c, w) => (.error e, c, w)
  | (.ok (.settled state), c, w) => (.ok state, c, w)
  | (.ok (.standing generation), c, w) => c.stand s generation w

/-- Attempts while rounds fail and the budget lasts. -/
def acquire (s : Surroundings π ω) (policy : RetryPolicy) (jitter : Jitter) (c : Candidate π) (w : ω) :
    Retried (Candidate π × ω) LeadershipState :=
  policy.run jitter (fun (c, w) => c.tryAcquire s w) (c, w)

end Candidate
end Synod
