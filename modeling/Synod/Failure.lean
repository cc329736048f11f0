import Synod.Message

/-!
# Failures

Every operation that can go wrong says why with a `Failure`: a cause, worded in one place.
Arithmetic that leaves the words is kept apart as the other kind of `Fault`.
-/
namespace Synod

/-- Why an acceptor's record could not be kept or read back. -/
inductive StorageFault
  | refused
  | corrupt (slot : Slot)
  | crashed (slot : Slot)
  | described (text : String)
  deriving DecidableEq, Repr

def StorageFault.text : StorageFault → String
  | .refused => "os error"
  | .corrupt slot => s!"corrupt record for {slot}"
  | .crashed slot => s!"acceptor task for {slot}"
  | .described text => text

/-- Why a set of thresholds or nodes cannot run. -/
inductive ConfigFault
  | noAcceptors
  | outOfRange (prepare accept acceptors : UInt64)
  | preparesDisjoint (prepare acceptors : UInt64)
  | phasesDisjoint (prepare accept acceptors : UInt64)
  | sizeMismatch (sized : UInt64) (configured : Nat)
  | described (text : String)
  deriving DecidableEq, Repr

def ConfigFault.text : ConfigFault → String
  | .noAcceptors => "no acceptors configured"
  | .outOfRange p a n => s!"quorum thresholds {p}/{a} out of range for {n} acceptors"
  | .preparesDisjoint p n => s!"prepare quorum {p} does not intersect itself over {n} acceptors"
  | .phasesDisjoint p a n =>
    s!"prepare quorum {p} and accept quorum {a} do not intersect over {n} acceptors"
  | .sizeMismatch sized n => s!"quorum sized for {sized} acceptors but {n} configured"
  | .described text => text

/-- Why a service stopped trying. -/
inductive Unavailability
  | gaveUp (attempts : Nat) (lastFailure : String)
  | noLeader
  | described (text : String)
  deriving DecidableEq, Repr

def Unavailability.text : Unavailability → String
  | .gaveUp attempts lastFailure => s!"gave up after {attempts} attempts: {lastFailure}"
  | .noLeader => "no leader elected"
  | .described text => text

/-- Why a call to another process did not complete. -/
inductive TransportFault
  | unreachable
  | peerGone
  | learnerDown
  | described (text : String)
  deriving DecidableEq, Repr

def TransportFault.text : TransportFault → String
  | .unreachable => "unreachable"
  | .peerGone => "peer is not running"
  | .learnerDown => "learner down"
  | .described text => text

inductive Failure
  /-- A phase missed its quorum; a higher id may get through. -/
  | roundFailure (slot : Slot) (phase : Phase) (accepted required : Nat)
  | durability (cause : StorageFault)
  | learnerConflict (slot : Slot)
  | serviceUnavailable (cause : Unavailability)
  | keyAlreadyExists (start commit : UInt64)
  | malformedValue (slot : Slot)
  /-- The proposer has no round left and can never win again. -/
  | roundsExhausted (proposer : String)
  | invalidConfig (cause : ConfigFault)
  | transport (cause : TransportFault)
  | unreadableFile
  | malformedText
  deriving DecidableEq, Repr

namespace Failure

/-- The wording of each failure. The last two are worded by the system that met them. -/
def message : Failure → String
  | roundFailure slot phase accepted required =>
    s!"{phase} round failed for {slot}: {accepted} of {required} acceptors agreed"
  | durability cause => s!"acceptor could not persist state: {cause.text}"
  | learnerConflict slot => s!"learner already holds a different value for {slot}"
  | serviceUnavailable cause => s!"service unavailable: {cause.text}"
  | keyAlreadyExists start commit => s!"key {start} already exists and is mapped to {commit}"
  | malformedValue slot => s!"agreed value for {slot} is malformed"
  | roundsExhausted proposer => s!"proposer {proposer} has no proposal rounds left"
  | invalidConfig cause => s!"invalid configuration: {cause.text}"
  | transport cause => s!"transport error: {cause.text}"
  | unreadableFile => "io error"
  | malformedText => "json error"

/-- Only a phase that missed its quorum is worth another attempt. -/
def isRoundFailure : Failure → Bool
  | roundFailure .. => true
  | _ => false

end Failure

/-- How an operation ends when it does not succeed. -/
inductive Fault
  | failure (cause : Failure)
  | overflow (operation : Overflow)
  deriving DecidableEq, Repr

/-- Checked arithmetic inside an operation. -/
def Fault.ofOverflow {α : Type} : Except Overflow α → Except Fault α :=
  Except.mapError Fault.overflow

def Fault.ofFailure {α : Type} : Except Failure α → Except Fault α :=
  Except.mapError Fault.failure

end Synod
