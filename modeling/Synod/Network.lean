import Synod.Acceptor
import Synod.Learner
import Synod.Proposer
import Synod.Store.Faulty
import Synod.Store.Medium

/-!
# A network with a schedule

Acceptors and learners behind links that deliver, lose or hold back messages. Time is a list of
positions: the acceptors of a phase are asked in the order of theirs, while the proposer still
waits, and what has not arrived by the position where patience ends times out. A call that is
handled may be preceded by others, which were injected at that acceptor, and is logged.
-/
namespace Synod

/-- How the calls of one kind fare on their way to an acceptor and back. -/
inductive Link
  | ok
  /-- Handled before any other call of the phase. -/
  | eager
  /-- Neither handled nor answered; the caller notices. -/
  | down
  /-- Handled, but the caller only notices that no answer came. -/
  | lost
  /-- Neither handled nor answered, and nobody notices. -/
  | hang
  /-- Handled, and nobody notices that no answer came. -/
  | mute
  deriving DecidableEq, Repr

/-- How an acceptor without a state answers. -/
inductive Script (α : Type)
  | agree
  | unreachable
  | fixed (answer : α)

def Script.run {α : Type} (agreement : α) : Script α → Except Failure α
  | agree => .ok agreement
  | unreachable => .error (.transport .unreachable)
  | fixed answer => .ok answer

inductive Service
  | durable (acceptor : Acceptor (FaultyStore Medium))
  | scripted (prepare : Script Promise) (accept : Script Acceptance)

namespace Service

def prepare (slot : Slot) (id : ProposalId) : Service → Except Failure Promise × Service
  | durable a => let (r, a) := a.prepare slot id; (r, durable a)
  | scripted p a => (p.run (Promise.give id none), scripted p a)

def accept (slot : Slot) (value : ProposalValue) : Service → Except Failure Acceptance × Service
  | durable a => let (r, a) := a.accept slot value; (r, durable a)
  | scripted p a => (a.run ⟨true, value.id⟩, scripted p a)

/-- The acceptor, if it is one with a store. -/
def acceptor? : Service → Option (Acceptor (FaultyStore Medium))
  | durable a => some a
  | scripted _ _ => none

end Service

/-- Something that happens just before an acceptor handles a call. -/
inductive Injection
  | prepare (slot : Slot) (id : ProposalId)
  | accept (slot : Slot) (value : ProposalValue)
  | learn (learner : Nat) (slot : Slot) (value : ProposalValue)

/-- A call that an acceptor handled, and its answer. -/
inductive Call
  | prepare (slot : Slot) (id : ProposalId) (outcome : Except Failure Promise)
  | accept (slot : Slot) (value : ProposalValue) (outcome : Except Failure Acceptance)

/-- An acceptor, its links, and what was injected and logged there. -/
structure Endpoint where
  service : Service
  position : Nat
  prepareLink : Link
  acceptLink : Link
  beforePrepare : List Injection
  beforeAccept : List Injection
  calls : List Call

def Endpoint.new (service : Service) (position : Nat) : Endpoint :=
  ⟨service, position, .ok, .ok, [], [], []⟩

/-- How notifications reach a learner. -/
inductive LearnerLink
  | ok
  | down
  | hang
  deriving DecidableEq, Repr

structure Network where
  endpoints : List Endpoint
  learners : List (Learner × LearnerLink)
  patience : Nat

namespace Network

/-- Acceptors in the order of their positions, and empty learners. -/
def new (services : List Service) (learners patience : Nat) : Network :=
  ⟨services.zipIdx.map fun (s, i) => Endpoint.new s i,
    List.replicate learners (Learner.empty, .ok), patience⟩

def learner (n : Network) (i : Nat) : Learner := (n.learners[i]?.map (·.1)).getD Learner.empty

def learnerLink (n : Network) (i : Nat) : LearnerLink := (n.learners[i]?.map (·.2)).getD .ok

def acceptor? (n : Network) (i : Nat) : Option (Acceptor (FaultyStore Medium)) :=
  n.endpoints[i]?.bind (·.service.acceptor?)

def changeEndpoint (n : Network) (i : Nat) (f : Endpoint → Endpoint) : Network :=
  { n with endpoints := n.endpoints.modify i f }

def setService (n : Network) (i : Nat) (service : Service) : Network :=
  n.changeEndpoint i ({ · with service })

/-- Records a value at a learner, whatever its link. -/
def record (n : Network) (i : Nat) (slot : Slot) (value : ProposalValue) :
    Except Failure Unit × Network :=
  let (r, l) := (n.learner i).record slot value
  (r, { n with learners := n.learners.modify i fun e => (l, e.2) })

/-- A prepare request at an acceptor, past its links. -/
def prepareAt (n : Network) (i : Nat) (slot : Slot) (id : ProposalId) :
    Except Failure Promise × Network :=
  match n.endpoints[i]? with
  | none => (.error (.transport .unreachable), n)
  | some e => let (r, s) := e.service.prepare slot id; (r, n.setService i s)

def acceptAt (n : Network) (i : Nat) (slot : Slot) (value : ProposalValue) :
    Except Failure Acceptance × Network :=
  match n.endpoints[i]? with
  | none => (.error (.transport .unreachable), n)
  | some e => let (r, s) := e.service.accept slot value; (r, n.setService i s)

def inject (i : Nat) (n : Network) : Injection → Network
  | .prepare slot id => (n.prepareAt i slot id).2
  | .accept slot value => (n.acceptAt i slot value).2
  | .learn l slot value => (n.record l slot value).2

/-- A prepare call that has come through: injections first, then the request; both once. -/
def handlePrepare (slot : Slot) (id : ProposalId) (i : Nat) (n : Network) :
    Option Promise × Network :=
  let due := (n.endpoints[i]?.map (·.beforePrepare)).getD []
  let n := due.foldl (inject i) (n.changeEndpoint i ({ · with beforePrepare := [] }))
  let (outcome, n) := n.prepareAt i slot id
  (outcome.toOption,
    n.changeEndpoint i fun e => { e with calls := e.calls ++ [.prepare slot id outcome] })

def handleAccept (slot : Slot) (value : ProposalValue) (i : Nat) (n : Network) :
    Option Acceptance × Network :=
  let due := (n.endpoints[i]?.map (·.beforeAccept)).getD []
  let n := due.foldl (inject i) (n.changeEndpoint i ({ · with beforeAccept := [] }))
  let (outcome, n) := n.acceptAt i slot value
  (outcome.toOption,
    n.changeEndpoint i fun e => { e with calls := e.calls ++ [.accept slot value outcome] })

variable {α : Type}

/-- What the time at one position brings: an answer, or a step that nobody notices. -/
inductive Event (α : Type)
  | arrival (await : Network → Option α × Network)
  | silence (step : Network → Network)

/-- The turn of an acceptor; `held` is the answer it gave before, if its link is eager. -/
def turn (handle : Nat → Network → Option α × Network) (link : Link) (i : Nat) (held : Option α) :
    Event α :=
  match link with
  | .ok => .arrival (handle i)
  | .eager => .arrival fun n => (held, n)
  | .down => .arrival fun n => (none, n)
  | .lost => .arrival fun n => (none, (handle i n).2)
  | .hang => .silence id
  | .mute => .silence fun n => (handle i n).2

/-- The answers of a list of events. Silent steps are made before the next answer is awaited;
for each of them a call times out at the end. -/
def answers (before : Network → Network) (timeouts : Nat) :
    List (Event α) → List (Network → Option α × Network)
  | [] => match timeouts with
    | 0 => []
    | k + 1 => (fun n => (none, before n)) :: List.replicate k fun n => (none, n)
  | .arrival await :: rest => (fun n => await (before n)) :: answers id timeouts rest
  | .silence step :: rest => answers (fun n => step (before n)) (timeouts + 1) rest

/-- The answers that the eager acceptors give at once, and `none` for every other one. -/
def askEager (handle : Nat → Network → Option α × Network) (link : Endpoint → Link) :
    (acceptors : List Nat) → Network → List (Option α) × Network
  | [], n => ([], n)
  | i :: rest, n =>
    let (answer, n) := if n.endpoints[i]?.map link = some .eager then handle i n else (none, n)
    let (held, n) := askEager handle link rest n
    (answer :: held, n)

/-- One phase: the answers of some acceptors, in the order of their positions. -/
def broadcast (handle : Nat → Network → Option α × Network) (link : Endpoint → Link)
    (acceptors : List Nat) (n : Network) : List (Network → Option α × Network) × Network :=
  let (held, n) := askEager handle link acceptors n
  let asked := (acceptors.zip held).filterMap fun (i, answer) =>
    n.endpoints[i]?.map fun e => (i, answer, e)
  let ordered := asked.mergeSort fun (_, _, d) (_, _, e) => d.position ≤ e.position
  let events := ordered.map fun (i, answer, e) =>
    if e.position < n.patience then turn handle (link e) i answer else .silence id
  (answers id 0 events, n)

/-- Tells a learner what was chosen, if its link lets it through. It may refuse. -/
def notify (slot : Slot) (value : ProposalValue) (n : Network) (i : Nat) : Network :=
  if n.learnerLink i = .ok then (n.record i slot value).2 else n

/-- How a proposer with these acceptors and learners is connected. -/
def transport (acceptors learners : List Nat) : Transport Network where
  prepare slot id n := n.broadcast (handlePrepare slot id) (·.prepareLink) acceptors
  accept slot value n := n.broadcast (handleAccept slot value) (·.acceptLink) acceptors
  notify slot value n := learners.foldl (notify slot value) n

/-- What a learner answers over its link. -/
def lookup (i : Nat) (slot : Slot) (n : Network) :
    Except Failure (Option ProposalValue) × Network :=
  if n.learnerLink i = .down then (.error (.transport .learnerDown), n)
  else (.ok ((n.learner i).get? slot), n)

/-- Changes the links of an acceptor that are given. -/
def setLinks (n : Network) (i : Nat) (prepare accept : Option Link) : Network :=
  n.changeEndpoint i fun e => { e with
    prepareLink := prepare.getD e.prepareLink
    acceptLink := accept.getD e.acceptLink }

/-- Gives acceptors their positions, the first one listed coming first. -/
def setOrder (n : Network) (order : List Nat) : Network :=
  order.zipIdx.foldl (fun n (i, position) => n.changeEndpoint i ({ · with position })) n

/-- Has something happen before the next call of a phase that an acceptor handles. -/
def schedule (n : Network) (i : Nat) (phase : Phase) (injection : Injection) : Network :=
  n.changeEndpoint i fun e =>
    match phase with
    | .prepare => { e with beforePrepare := e.beforePrepare ++ [injection] }
    | .accept => { e with beforeAccept := e.beforeAccept ++ [injection] }

def setLearnerLink (n : Network) (i : Nat) (link : LearnerLink) : Network :=
  { n with learners := n.learners.modify i fun e => (e.1, link) }

/-- Changes an acceptor that has a store. -/
def changeAcceptor (n : Network) (i : Nat)
    (f : Acceptor (FaultyStore Medium) → Acceptor (FaultyStore Medium)) : Network :=
  match n.acceptor? i with
  | none => n
  | some a => n.setService i (.durable (f a))

def setFaultMode (n : Network) (i : Nat) (mode : FaultMode) : Network :=
  n.changeAcceptor i fun a => { a with store := { a.store with mode } }

def restartAcceptor (n : Network) (i : Nat) : Network := n.changeAcceptor i Acceptor.restart

/-- Saves a record below the faults of a store, without its acceptor noticing. -/
def plantRecord (n : Network) (i : Nat) (slot : Slot) (record : AcceptorRecord) : Network :=
  n.changeAcceptor i fun a =>
    { a with store := { a.store with inner := (RecordStore.save slot record a.store.inner).2 } }

/-- Forgets the log. -/
def clearCalls (n : Network) : Network :=
  { n with endpoints := n.endpoints.map ({ · with calls := [] }) }

end Network
end Synod
