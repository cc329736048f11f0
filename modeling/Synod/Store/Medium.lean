import Synod.Store.Directory
import Synod.Store.Memory

/-!
# Kinds of stores

Records are kept in memory or in a directory. A medium can be mounted on the files as they are
at some moment, so that several acceptors keep their directories in one file system.
-/
namespace Synod

inductive Medium
  | memory (store : MemoryStore)
  | directory (store : DirectoryStore)
  deriving Repr

namespace Medium

/-- The medium, its directory standing among the given files. -/
def mount (m : Medium) (files : FileSystem) : Medium :=
  match m with
  | memory s => memory s
  | directory s => directory { s with files }

/-- The files as the medium leaves them; a medium in memory leaves them alone. -/
def files (m : Medium) (before : FileSystem) : FileSystem :=
  match m with
  | memory _ => before
  | directory s => s.files

/-- A new medium of the same kind and place, with nothing but the files that there are. -/
def reopen (m : Medium) : Except Failure Medium :=
  match m with
  | memory _ => .ok (memory MemoryStore.empty)
  | directory s => (DirectoryStore.open s.dir s.files).map directory

instance : RecordStore Medium where
  load slot
    | memory s => let (r, s) := RecordStore.load slot s; (r, memory s)
    | directory s => let (r, s) := RecordStore.load slot s; (r, directory s)
  save slot record
    | memory s => let (r, s) := RecordStore.save slot record s; (r, memory s)
    | directory s => let (r, s) := RecordStore.save slot record s; (r, directory s)

end Medium
end Synod
