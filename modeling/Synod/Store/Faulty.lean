import Synod.Store.Basic

/-!
# Stores with faults

A layer over a store that refuses operations on demand, without effect, and counts the loads
asked for and the records saved.
-/
namespace Synod

inductive FaultMode
  | ok
  | failLoad
  | failSave
  | crashSave
  deriving DecidableEq, Repr

structure FaultyStore (σ : Type) where
  inner : σ
  mode : FaultMode
  loads : Nat
  saves : Nat

namespace FaultyStore
variable {σ : Type}

def new (inner : σ) : FaultyStore σ := ⟨inner, .ok, 0, 0⟩

variable [RecordStore σ]

def load (slot : Slot) (s : FaultyStore σ) :
    Except StoreFault (Option AcceptorRecord) × FaultyStore σ :=
  let s := { s with loads := s.loads + 1 }
  if s.mode = .failLoad then (.error (.failed (.durability (.described "unreadable"))), s)
  else
    let (r, inner) := RecordStore.load slot s.inner
    (r, { s with inner })

def save (slot : Slot) (record : AcceptorRecord) (s : FaultyStore σ) :
    Except StoreFault Unit × FaultyStore σ :=
  if s.mode = .failSave then (.error (.failed (.durability (.described "disk full"))), s)
  else if s.mode = .crashSave then (.error .crashed, s)
  else
    match RecordStore.save slot record s.inner with
    | (.ok (), inner) => (.ok (), { s with inner, saves := s.saves + 1 })
    | (.error e, inner) => (.error e, { s with inner })

instance : RecordStore (FaultyStore σ) := ⟨load, save⟩

end FaultyStore
end Synod
