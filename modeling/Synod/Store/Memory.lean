import Synod.SlotMap
import Synod.Store.Basic

/-!
# Records in memory

The last record saved for each slot. Nothing can fail.
-/
namespace Synod

structure MemoryStore where
  records : SlotMap AcceptorRecord
  deriving Repr

namespace MemoryStore

def empty : MemoryStore := ⟨∅⟩

instance : RecordStore MemoryStore where
  load slot s := (.ok (s.records.get? slot), s)
  save slot record s := (.ok (), ⟨s.records.insert slot record⟩)

end MemoryStore
end Synod
