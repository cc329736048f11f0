import Synod.SlotMap
import Synod.Store.Basic

/-!
# Acceptors

An acceptor answers requests for any number of slots, one at a time for each. It reads the
record of a slot once, when the slot is first asked for, and remembers it; a new record is
remembered only after the store has it. A restarted acceptor has its store and nothing else.
-/
namespace Synod

/-- A store, and the records known from it; a slot that was read and empty is known as `none`. -/
structure Acceptor (σ : Type) where
  store : σ
  known : SlotMap (Option AcceptorRecord)

namespace Acceptor
variable {σ : Type}

/-- An acceptor over a store, as it is after a start or a restart. -/
def start (store : σ) : Acceptor σ := ⟨store, ∅⟩

def restart (a : Acceptor σ) : Acceptor σ := start a.store

/-- A store operation that breaks off is a failure of the slot's task. -/
def failureOf (slot : Slot) : StoreFault → Failure
  | .failed cause => cause
  | .crashed => .durability (.crashed slot)

variable [RecordStore σ]

/-- The record of a slot, read from the store unless it is known already. -/
def current (a : Acceptor σ) (slot : Slot) : Except Failure (Option AcceptorRecord) × Acceptor σ :=
  match a.known.get? slot with
  | some record => (.ok record, a)
  | none =>
    match RecordStore.load slot a.store with
    | (.ok record, s) => (.ok record, ⟨s, a.known.insert slot record⟩)
    | (.error e, s) => (.error (failureOf slot e), { a with store := s })

/-- Saves what a reply has to write, and only then gives its answer. -/
def commit {α : Type} (a : Acceptor σ) (slot : Slot) (r : Reply α) :
    Except Failure α × Acceptor σ :=
  match r.write with
  | none => (.ok r.answer, a)
  | some record =>
    match RecordStore.save slot record a.store with
    | (.ok (), s) => (.ok r.answer, ⟨s, a.known.insert slot (some record)⟩)
    | (.error e, s) => (.error (failureOf slot e), { a with store := s })

/-- One request for a slot: read, decide, write, answer. -/
def handle {α : Type} (reply : Option AcceptorRecord → Reply α) (a : Acceptor σ) (slot : Slot) :
    Except Failure α × Acceptor σ :=
  match a.current slot with
  | (.ok record, a) => a.commit slot (reply record)
  | (.error e, a) => (.error e, a)

def prepare (a : Acceptor σ) (slot : Slot) (id : ProposalId) : Except Failure Promise × Acceptor σ :=
  a.handle (Reply.toPrepare · id) slot

def accept (a : Acceptor σ) (slot : Slot) (value : ProposalValue) :
    Except Failure Acceptance × Acceptor σ :=
  a.handle (Reply.toAccept · value) slot

end Acceptor
end Synod
