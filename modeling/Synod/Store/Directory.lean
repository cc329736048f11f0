import Synod.FileSystem
import Synod.Format
import Synod.Store.Basic

/-!
# Records in a directory

One file for each slot, named by twenty digits, which holds the record's JSON text. A record is
first written to a draft beside it and then moved into place, so that a reader finds the old
record or the new one and nothing in between.
-/
namespace Synod

/-- A directory, and the file system that it is in. -/
structure DirectoryStore where
  dir : Path
  files : FileSystem
  deriving Repr

namespace DirectoryStore

/-- The digits that name the file of a slot. -/
def slotDigits (slot : Slot) : String :=
  String.ofList ((Numeral.padded 20 slot.sequence.toNat).map fun b => Char.ofNat b.toNat)

def recordName (slot : Slot) : String := slotDigits slot ++ ".json"

def draftName (slot : Slot) : String := recordName slot ++ ".tmp"

def recordPath (dir : Path) (slot : Slot) : Path := dir.child (recordName slot)

def draftPath (dir : Path) (slot : Slot) : Path := dir.child (draftName slot)

def refused : Failure := .durability .refused

/-- A store in a directory, which is made if it is missing. -/
def «open» (dir : Path) (files : FileSystem) : Except Failure DirectoryStore :=
  match files.makeDirectories dir with
  | .error _ => .error refused
  | .ok files => .ok ⟨dir, files⟩

/-- The record that a file holds; no file, no record. -/
def load (slot : Slot) (s : DirectoryStore) : Except Failure (Option AcceptorRecord) :=
  match s.files.readFile (recordPath s.dir slot) with
  | .error .notFound => .ok none
  | .error _ => .error refused
  | .ok bytes =>
    match JsonForm.read? bytes with
    | none => .error (.durability (.corrupt slot))
    | some record => .ok (some record)

/-- All that saving a record asks of the operating system. The directory is synced last, because
only then is the move sure to last. -/
def saveSteps (dir : Path) (slot : Slot) (record : AcceptorRecord) : List FileStep :=
  [.create (draftPath dir slot), .append (draftPath dir slot) (JsonForm.compact record),
    .sync (draftPath dir slot), .rename (draftPath dir slot) (recordPath dir slot),
    .syncDirectory dir]

def save (slot : Slot) (record : AcceptorRecord) (s : DirectoryStore) :
    Except Failure Unit × DirectoryStore :=
  match FileStep.run (saveSteps s.dir slot record) s.files with
  | (.ok (), files) => (.ok (), { s with files })
  | (.error _, files) => (.error refused, { s with files })

instance : RecordStore DirectoryStore where
  load slot s := ((load slot s).mapError StoreFault.failed, s)
  save slot record s :=
    match save slot record s with
    | (.ok (), s) => (.ok (), s)
    | (.error e, s) => (.error (.failed e), s)

end DirectoryStore
end Synod
