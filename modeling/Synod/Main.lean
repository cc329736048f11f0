import Synod.CommandLine

/-!
# The program

Reads the arguments and the files that a run needs, makes the run, writes the records that it
changed, and prints the log. All that is decided is decided in `Synod.CommandLine`.
-/
namespace Synod.Program
open CommandLine

def usage : String := "Usage: synod [-c|--config FILE] [-n|--nodes NUMBER] [-t|--transactions NUMBER]"

/-- Where the lines of the log come from. -/
def target : String := "synod"

/-- The content of a file, if it can be read. -/
def contentOf (path : String) : IO (Option (List UInt8)) :=
  try
    return some (← IO.FS.readBinFile path).data.toList
  catch _ => return none

/-- The files of a run, and one more if it is there. -/
def withFile (files : FileSystem) (path : String) : IO FileSystem := do
  match ← contentOf path with
  | none => return files
  | some content => return (files.plant (Path.ofString path) content).toOption.getD files

/-- The files of a run, and those of the records that it may look at in one directory. A
directory that cannot be made is taken for a file. -/
def withRecords (files : FileSystem) (dir : Path) (slots : List UInt64) : IO FileSystem := do
  try
    IO.FS.createDirAll dir.toString
    slots.foldlM (fun files slot => withFile files (DirectoryStore.recordPath dir ⟨slot⟩).toString) files
  catch _ => return (files.plant dir []).toOption.getD files

/-- No files yet, in the directory where the program runs. -/
def startingFiles : IO FileSystem := do
  let here := Path.ofString (← IO.currentDir).toString
  let files := (FileSystem.empty.makeDirectories here).toOption.getD FileSystem.empty
  return { files with current := here.names }

/-- The files that a run looks at: its configuration, and the records of every node. No run
gets past as many generations as it has nodes. -/
def gather (a : Arguments) : IO FileSystem := do
  let files ← startingFiles
  let files ← match a.config with
    | none => pure files
    | some path => withFile files path
  match configure a files with
  | .error _ => return files
  | .ok config =>
    match config.dataDir, config.quorum with
    | some dataDir, .ok _ =>
      let generations := (List.range (config.nodes.toNat + 1)).map UInt64.ofNat
      let transactions := 1 :: starts (a.transactions.getD 5)
      (List.range config.nodes.toNat).foldlM (fun files i => do
        let files ← withRecords files (Cluster.recordDir dataDir i Cluster.leadershipName) generations
        withRecords files (Cluster.recordDir dataDir i Cluster.transactionsName) transactions) files
    | _, _ => return files

/-- Writes the files that a run changed. -/
def store (before after : FileSystem) : IO Unit :=
  after.entries.forM fun (l, e) => do
    match e with
    | .directory => return
    | .file content =>
      if before.lookup l = some e then return
      let path := "/" ++ l.toString
      let draft := path ++ ".tmp"
      IO.FS.writeBinFile draft ⟨content.toArray⟩
      IO.FS.rename draft path

/-- A fresh name, of the form that random identifiers have. -/
def freshName : IO String := do
  let digits (n : Nat) (value : Nat) : String :=
    let ds := Nat.toDigits 16 value
    String.ofList (List.replicate (n - ds.length) '0' ++ ds)
  let a ← IO.rand 0 0xFFFFFFFF
  let b ← IO.rand 0 0xFFFF
  let c ← IO.rand 0x4000 0x4FFF
  let d ← IO.rand 0x8000 0xBFFF
  let e ← IO.rand 0 0xFFFFFFFFFFFF
  return String.intercalate "-" [digits 8 a, digits 4 b, digits 4 c, digits 4 d, digits 12 e]

def perform (filter : LogFilter) (a : Arguments) : IO UInt32 := do
  let files ← gather a
  let count := match configure a files with
    | .ok config => if config.quorum.isOk then config.nodes.toNat else 0
    | .error _ => 0
  let names ← (List.range count).mapM fun _ => freshName
  let report := run a (fun i => names.getD i "") Jitter.half files
  store files report.files
  for line in report.shown target filter do
    IO.println line.text
  match report.outcome with
  | .ok () => pure ()
  | .error (.failure e) => IO.eprintln ("Error: " ++ particulars e)
  | .error (.overflow o) => IO.eprintln o.message
  return UInt32.ofNat report.exitCode

end Synod.Program

/-- The log is set up before the arguments are looked at. -/
def main (args : List String) : IO UInt32 := do
  match Synod.LogFilter.read? Synod.Program.target (← IO.getEnv "SYNOD_LOG") with
  | none => return UInt32.ofNat Synod.CommandLine.brokenCode
  | some filter =>
    match Synod.CommandLine.read args with
    | .help =>
      IO.println Synod.Program.usage
      return 0
    | .refused =>
      IO.eprintln Synod.Program.usage
      return 2
    | .run a => Synod.Program.perform filter a
