import Synod.Path

/-!
# A file system

Files and directories by location, as far as keeping records needs them. A path is followed part
by part, through directories that have to be there. A change is a list of steps, each of which
the operating system may refuse; what earlier steps did stays. Steps say when data reach the
disk (`sync`, `syncDirectory`) although that changes no answer while the system runs.
-/
namespace Synod

inductive Entry
  | file (content : List UInt8)
  | directory
  deriving DecidableEq, Repr

/-- Why the operating system refuses a step. -/
inductive OsError
  | notFound
  | notDirectory
  | isDirectory
  | alreadyExists
  | nameTooLong
  | invalidName
  deriving DecidableEq, Repr

/-- What stands where, and the directory in which relative paths start. The root is a directory
that is not listed. -/
structure FileSystem where
  entries : List (Location × Entry)
  current : Location
  deriving DecidableEq, Repr

namespace FileSystem

def empty : FileSystem := ⟨[], []⟩

instance : Inhabited FileSystem := ⟨empty⟩

def find? (l : Location) : List (Location × Entry) → Option Entry
  | [] => none
  | (q, e) :: rest => if q = l then some e else find? l rest

def lookup (fs : FileSystem) (l : Location) : Option Entry :=
  if l = [] then some .directory else find? l fs.entries

def erase (fs : FileSystem) (l : Location) : FileSystem :=
  { fs with entries := fs.entries.filter fun e => e.1 ≠ l }

/-- Entries with one put at a location, in place of an older one. What is new comes last, so that
directories, which are there before anything in them, are found first. -/
def place (l : Location) (e : Entry) : List (Location × Entry) → List (Location × Entry)
  | [] => [(l, e)]
  | (q, f) :: rest => if q = l then (l, e) :: rest else (q, f) :: place l e rest

def put (fs : FileSystem) (l : Location) (e : Entry) : FileSystem :=
  { fs with entries := place l e fs.entries }

theorem find?_filter_ne (l q : Location) (es : List (Location × Entry)) :
    find? q (es.filter fun e => e.1 ≠ l) = if l = q then none else find? q es := by
  induction es with
  | nil => simp [find?]
  | cons e rest ih =>
    obtain ⟨r, e⟩ := e
    by_cases hr : r = l
    · subst hr
      by_cases hq : r = q <;> simp_all [find?]
    · by_cases hq : r = q
      · subst hq
        simp [find?, hr, Ne.symm hr]
      · simp_all [find?]

@[simp] theorem lookup_erase (fs : FileSystem) (l q : Location) :
    (fs.erase l).lookup q = if q = [] then some .directory else if l = q then none else fs.lookup q := by
  unfold lookup erase
  split
  · rfl
  · exact find?_filter_ne l q fs.entries

theorem find?_place (l q : Location) (e : Entry) (es : List (Location × Entry)) :
    find? q (place l e es) = if l = q then some e else find? q es := by
  induction es with
  | nil => rfl
  | cons head rest ih =>
    obtain ⟨r, f⟩ := head
    unfold place
    split
    · rename_i hr
      subst hr
      by_cases hq : r = q <;> simp [find?, hq]
    · rename_i hr
      by_cases hq : r = q
      · subst hq
        simp [find?, Ne.symm hr]
      · simp [find?, hq, ih]

@[simp] theorem lookup_put (fs : FileSystem) (l q : Location) (e : Entry) :
    (fs.put l e).lookup q = if q = [] then some .directory else if l = q then some e else fs.lookup q := by
  unfold lookup put
  split
  · rfl
  · exact find?_place l q e fs.entries

/-- The most bytes that a name may have. -/
def longestName : Nat := 255

/-- The most bytes that a path may have. -/
def longestPath : Nat := 4095

/-- Follows the parts of a path from a location on. All that is passed has to be a directory;
what stands at the end is not looked at. -/
def walk (fs : FileSystem) (here : Location) : List String → Except OsError Location
  | [] => .ok here
  | part :: rest =>
    match fs.lookup here with
    | none => .error .notFound
    | some (.file _) => .error .notDirectory
    | some .directory =>
      if part = "" ∨ part = "." then fs.walk here rest
      else if part = ".." then fs.walk here.dropLast rest
      else if longestName < part.utf8ByteSize then .error .nameTooLong
      else fs.walk (here ++ [part]) rest

/-- Where a path leads to, whether something stands there or not. -/
def locate (fs : FileSystem) (p : Path) : Except OsError Location :=
  if p.toString.toList.contains '\x00' then .error .invalidName
  else if p.parts = [""] then .error .notFound
  else if longestPath < p.toString.utf8ByteSize then .error .nameTooLong
  else fs.walk (if p.isAbsolute then [] else fs.current) p.parts

/-- What stands where a path leads to, or why nothing can be found there. -/
def stat (fs : FileSystem) (p : Path) : Except OsError Entry :=
  match fs.locate p with
  | .error e => .error e
  | .ok l =>
    match fs.lookup l with
    | none => .error .notFound
    | some e => .ok e

def readFile (fs : FileSystem) (p : Path) : Except OsError (List UInt8) :=
  match fs.stat p with
  | .error e => .error e
  | .ok .directory => .error .isDirectory
  | .ok (.file content) => .ok content

def isDirectory (fs : FileSystem) (p : Path) : Bool :=
  match fs.stat p with
  | .ok .directory => true
  | _ => false

/-- Makes one directory, where nothing stands yet. -/
def makeDirectory (fs : FileSystem) (p : Path) : Except OsError FileSystem :=
  match fs.locate p.withoutTrailing with
  | .error e => .error e
  | .ok l =>
    match fs.lookup l with
    | none => .ok (fs.put l .directory)
    | some _ => .error .alreadyExists

/-- Puts up with a refusal if the directory is there. -/
def unlessThere (fs : FileSystem) (p : Path) (r : Except OsError FileSystem) :
    Except OsError FileSystem :=
  match r with
  | .ok fs => .ok fs
  | .error e => if fs.isDirectory p then .ok fs else .error e

/-- Makes a directory; if it is the way there that is missing, first the ones above it, of which
the nearest comes first. -/
def makeBelow (fs : FileSystem) (p : Path) : (above : List Path) → Except OsError FileSystem
  | [] => fs.unlessThere p (fs.makeDirectory p)
  | nearest :: rest =>
    match fs.makeDirectory p with
    | .error .notFound =>
      match fs.makeBelow nearest rest with
      | .error e => .error e
      | .ok fs => fs.unlessThere p (fs.makeDirectory p)
    | r => fs.unlessThere p r

/-- Makes a directory and those that are missing above it. -/
def makeDirectories (fs : FileSystem) (p : Path) : Except OsError FileSystem :=
  if p.parts = [""] then .ok fs else fs.makeBelow p p.above

/-- Removes what stands where a path leads to, and all below it. A directory that is not called
by its name only loses what is below it. -/
def remove (fs : FileSystem) (p : Path) : FileSystem :=
  match fs.locate p with
  | .error _ => fs
  | .ok l =>
    { fs with entries := fs.entries.filter fun e => !l.isPrefixOf e.1 || !p.endsInName && e.1 = l }

/-- The entries below a location, by the rest of theirs. -/
def below (fs : FileSystem) (l : Location) : List (Location × Entry) :=
  (fs.entries.filter fun e => l.isPrefixOf e.1 ∧ l ≠ e.1).map fun e => (e.1.drop l.length, e.2)

end FileSystem

/-- One thing that a program asks of the operating system. -/
inductive FileStep
  /-- An empty file, in place of an older one. -/
  | create (p : Path)
  /-- More bytes at the end of a file. -/
  | append (p : Path) (bytes : List UInt8)
  | sync (p : Path)
  /-- Moves a file, in place of an older one. -/
  | rename (source target : Path)
  | syncDirectory (p : Path)
  deriving DecidableEq, Repr

namespace FileStep
open FileSystem

def apply (fs : FileSystem) : FileStep → Except OsError FileSystem
  | create p =>
    match fs.locate p with
    | .error e => .error e
    | .ok l =>
      if fs.lookup l = some .directory then .error .isDirectory else .ok (fs.put l (.file []))
  | append p bytes =>
    match fs.locate p, fs.readFile p with
    | .error e, _ => .error e
    | _, .error e => .error e
    | .ok l, .ok content => .ok (fs.put l (.file (content ++ bytes)))
  | sync p => (fs.readFile p).map fun _ => fs
  | rename source target =>
    match fs.locate source, fs.readFile source, fs.locate target with
    | .error e, _, _ => .error e
    | _, .error e, _ => .error e
    | _, _, .error e => .error e
    | .ok s, .ok content, .ok t =>
      if fs.lookup t = some .directory then .error .isDirectory
      else .ok ((fs.erase s).put t (.file content))
  | syncDirectory p =>
    match fs.stat p with
    | .error e => .error e
    | .ok (.file _) => .error .notDirectory
    | .ok .directory => .ok fs

/-- Makes steps until one is refused; the system stays as the steps made leave it. -/
def run : List FileStep → FileSystem → Except OsError Unit × FileSystem
  | [], fs => (.ok (), fs)
  | step :: rest, fs =>
    match step.apply fs with
    | .error e => (.error e, fs)
    | .ok fs => run rest fs

end FileStep

namespace FileSystem

/-- A file with a content, in a directory that is there. -/
def writeFile (fs : FileSystem) (p : Path) (content : List UInt8) : Except OsError FileSystem :=
  match FileStep.run [.create p, .append p content] fs with
  | (.ok (), fs) => .ok fs
  | (.error e, _) => .error e

/-- A file with a content; the directories on its way are made. -/
def plant (fs : FileSystem) (p : Path) (content : List UInt8) : Except OsError FileSystem :=
  let made : Except OsError FileSystem := match p.above with
    | [] => .ok fs
    | nearest :: rest => fs.makeBelow nearest rest
  made.bind fun fs => fs.writeFile p content

/-- What there is below a location, in the order of the texts. -/
def listing (fs : FileSystem) (l : Location) : List String :=
  ((fs.below l).map fun e => e.1.toString).mergeSort fun a b => decide (a ≤ b)

end FileSystem
end Synod
