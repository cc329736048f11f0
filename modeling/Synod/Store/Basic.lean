import Synod.Failure
import Synod.Record

/-!
# Record stores

Where acceptors keep their records. A store is a state with two operations that can fail, or
break off in the middle; either way they say what state they leave behind. `RecordStore.save`
promises that a record is durable when it answers `ok`, and nothing more.
-/
namespace Synod

/-- How a store operation ends when it does not succeed. -/
inductive StoreFault
  | failed (cause : Failure)
  /-- The operation broke off without an answer. -/
  | crashed
  deriving DecidableEq, Repr

class RecordStore (σ : Type) where
  load : Slot → σ → Except StoreFault (Option AcceptorRecord) × σ
  save : Slot → AcceptorRecord → σ → Except StoreFault Unit × σ

end Synod
