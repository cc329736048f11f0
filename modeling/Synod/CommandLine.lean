import Synod.Cluster
import Synod.LogFilter
import Synod.Text.Visible

/-!
# The command line

A run starts a cluster, lets every node try to lead, commits some transactions at the leader,
lets a follower race for the first of them, and reads them all back. What happens is logged; the
first failure ends the run.
-/
namespace Synod.CommandLine

/-- What a run is asked to do. -/
structure Arguments where
  config : Option String
  nodes : Option UInt64
  transactions : Option UInt64
  deriving DecidableEq, Repr

inductive Invocation
  | run (arguments : Arguments)
  | help
  | refused
  deriving DecidableEq, Repr

/-- The options that take a value. -/
inductive Key
  | config
  | nodes
  | transactions
  deriving DecidableEq, Repr

def longKey? : String → Option Key
  | "config" => some .config
  | "nodes" => some .nodes
  | "transactions" => some .transactions
  | _ => none

def shortKey? : Char → Option Key
  | 'c' => some .config
  | 'n' => some .nodes
  | 't' => some .transactions
  | _ => none

/-- The arguments with one more value. No option is given twice, and no value is empty. -/
def set? (a : Arguments) (key : Key) (value : List Char) : Option Arguments :=
  match key with
  | .config =>
    if a.config.isNone ∧ value ≠ [] then some { a with config := some (String.ofList value) }
    else none
  | .nodes =>
    if a.nodes.isNone then (Numeral.word? value).map fun n => { a with nodes := some n } else none
  | .transactions =>
    if a.transactions.isNone then (Numeral.word? value).map fun n => { a with transactions := some n }
    else none

/-- What one argument says. -/
inductive Word
  | help
  | set (key : Key) (value : List Char)
  /-- The value is the next argument. -/
  | expect (key : Key)
  /-- Nothing but values may follow, and there are none to give. -/
  | stop
  | unknown

def Word.ofChars : List Char → Word
  | ['-', '-'] => stop
  | '-' :: '-' :: rest =>
    let name := String.ofList (rest.takeWhile (· ≠ '='))
    match longKey? name, rest.dropWhile (· ≠ '=') with
    | some key, '=' :: value => set key value
    | some key, _ => expect key
    | none, [] => if name = "help" then help else unknown
    | none, _ => unknown
  | '-' :: 'h' :: _ => help
  | '-' :: c :: rest =>
    match shortKey? c, rest with
    | some key, [] => expect key
    | some key, '=' :: value => set key value
    | some key, value => set key value
    | none, _ => unknown
  | _ => unknown

/-- Whether an argument can be the value of the option before it. -/
def isValue : List Char → Bool
  | ['-'] => true
  | '-' :: _ => false
  | _ => true

/-- Reads arguments in order; the first one that is wrong, or asks for help, decides. -/
def readFrom (a : Arguments) : List String → Invocation
  | [] => .run a
  | arg :: rest =>
    match Word.ofChars arg.toList with
    | .help => .help
    | .stop => if rest = [] then .run a else .refused
    | .unknown => .refused
    | .set key value =>
      match set? a key value with
      | some a => readFrom a rest
      | none => .refused
    | .expect key =>
      match rest with
      | [] => .refused
      | value :: rest =>
        if isValue value.toList then
          match set? a key value.toList with
          | some a => readFrom a rest
          | none => .refused
        else .refused

def read (args : List String) : Invocation := readFrom ⟨none, none, none⟩ args

/-- A line of the log. -/
structure LogLine where
  severity : Severity
  message : String
  fields : List (String × String)
  deriving DecidableEq, Repr

def LogLine.text (l : LogLine) : String :=
  String.intercalate " "
    (l.severity.name :: l.message :: l.fields.map fun (name, value) => s!"{name}={value}")

/-- A character inside quotes. -/
def quotedChar (c : Char) : List Char :=
  if c = '"' then ['\\', '"']
  else if c = '\\' then ['\\', '\\']
  else if c = '\n' then ['\\', 'n']
  else if c = '\r' then ['\\', 'r']
  else if c = '\t' then ['\\', 't']
  else if c = '\x00' then ['\\', '0']
  else if Text.isVisible c then [c]
  else ['\\', 'u', '\x7b'] ++ Nat.toDigits 16 c.toNat ++ ['\x7d']

/-- A text between quotes, with everything escaped that would not show. -/
def quoted (s : String) : String := String.ofList ('"' :: s.toList.flatMap quotedChar ++ ['"'])

def optionalText : Option String → String
  | none => "None"
  | some s => s!"Some({quoted s})"

def phaseName : Phase → String
  | .prepare => "Prepare"
  | .accept => "Accept"

def slotText (slot : Slot) : String := s!"Slot({slot.sequence})"

/-- Fields and their values, between braces. -/
def record (name : String) (fields : List (String × String)) : String :=
  name ++ " \x7b " ++ String.intercalate ", " (fields.map fun (k, v) => k ++ ": " ++ v) ++ " \x7d"

/-- A failure with all its particulars, as a run reports the one that ends it. -/
def particulars : Failure → String
  | .roundFailure slot phase accepted required =>
    record "RoundFailure" [("slot", slotText slot), ("phase", phaseName phase),
      ("accepted", toString accepted), ("required", toString required)]
  | .durability cause => s!"Durability({quoted cause.text})"
  | .learnerConflict slot => record "LearnerConflict" [("slot", slotText slot)]
  | .serviceUnavailable cause => s!"ServiceUnavailable({quoted cause.text})"
  | .keyAlreadyExists start commit =>
    record "KeyAlreadyExists" [("start_ts", toString start), ("commit_ts", toString commit)]
  | .malformedValue slot => record "MalformedValue" [("slot", slotText slot)]
  | .roundsExhausted proposer => s!"RoundsExhausted({quoted proposer})"
  | .invalidConfig cause => s!"InvalidConfig({quoted cause.text})"
  | .transport cause => s!"Transport({quoted cause.text})"
  | .unreadableFile => "Io"
  | .malformedText => "Json"

/-- What a run did: its log, how it ended, and the files that it left. -/
structure Report where
  log : List LogLine
  outcome : Except Fault Unit
  files : FileSystem

/-- How a process ends that broke off. -/
def brokenCode : Nat := 101

/-- How a process ends that made this report. -/
def Report.exitCode (r : Report) : Nat :=
  match r.outcome with
  | .ok () => 0
  | .error (.failure _) => 1
  | .error (.overflow _) => brokenCode

/-- Steps that write to a log and change a cluster, until one fails. The last line of the log
stands first. -/
abbrev Run (α : Type) := ExceptT Fault (StateM (List LogLine × Cluster)) α

def log (severity : Severity) (message : String) (fields : List (String × String)) : Run Unit :=
  modify fun (lines, c) => (⟨severity, message, fields⟩ :: lines, c)

/-- A step of the cluster. A node that is not there has nothing to say. -/
def act {α : Type} (missing : α) (f : Cluster → Option (α × Cluster)) : Run α :=
  modifyGet fun (lines, c) =>
    match f c with
    | some (a, c) => (a, lines, c)
    | none => (missing, lines, c)

def nodeName (i : Nat) : Run String := do
  let (_, c) ← get
  return (c.nodes[i]?.map ClusterNode.uuid).getD ""

/-- Every node tries to lead. -/
def elect (jitter : Jitter) : (left node : Nat) → Run (List (Nat × Except Fault LeadershipState))
  | 0, _ => return []
  | left + 1, node => do
    let (_, c) ← get
    let outcome ← act (.ok .notLeading) (Cluster.acquire node c.config.retry jitter)
    if let .error (.overflow o) := outcome then throw (.overflow o)
    return (node, outcome) :: (← elect jitter left (node + 1))

/-- Says how the election went for each node. -/
def announce : List (Nat × Except Fault LeadershipState) → Run Unit
  | [] => return
  | (node, outcome) :: rest => do
    let uuid := ("uuid", ← nodeName node)
    match outcome with
    | .ok .leading => log .info "leading" [uuid]
    | .ok state => log .info "following" [uuid, ("state", state.name)]
    | .error (.failure e) => log .warn "leadership attempt failed" [uuid, ("err", e.message)]
    | .error (.overflow o) => throw (.overflow o)
    announce rest

/-- Commits a transaction; that it was committed before is no failure. -/
def commit (jitter : Jitter) (node : Nat) (start commit : UInt64) : Run (Except UInt64 Unit) := do
  match ← act (.ok ()) (Cluster.put node jitter start commit) with
  | .ok () => return .ok ()
  | .error (.failure (.keyAlreadyExists _ agreed)) => return .error agreed
  | .error e => throw e

/-- Commits transactions in turn, each one timestamp after it starts. -/
def commitFrom (jitter : Jitter) (leader : Nat) : (left : Nat) → (start : UInt64) → Run Unit
  | 0, _ => return
  | left + 1, start => do
    let after ← ExceptT.mk (pure (Fault.ofOverflow (Word.add start 1)))
    let times (t : UInt64) := [("start_ts", toString start), ("commit_ts", toString t)]
    match ← commit jitter leader start after with
    | .ok () => log .info "committed" (times after)
    | .error agreed => log .info "already committed" (times agreed)
    commitFrom jitter leader left after

/-- A node that does not lead tries to commit the first transaction as late as can be. -/
def race (jitter : Jitter) (leader : Nat) : Run Unit := do
  let (_, c) ← get
  match (List.range c.nodes.length).find? (· ≠ leader) with
  | none => return
  | some follower =>
    let uuid := ("uuid", ← nodeName follower)
    match ← commit jitter follower 1 Word.last with
    | .ok () => log .info "follower committed" [uuid]
    | .error agreed =>
      log .info "follower sees agreed commit" [uuid, ("commit_ts", toString agreed)]

/-- The start timestamps of a number of transactions. -/
def starts (transactions : UInt64) : List UInt64 :=
  (List.range transactions.toNat).map fun i => UInt64.ofNat (i + 1)

def session (jitter : Jitter) (transactions : UInt64) : Run Unit := do
  let (_, c) ← get
  announce (← elect jitter c.nodes.length 0)
  match ← act none fun c => some c.leader with
  | none =>
    log .error "no leader elected" []
    throw (.failure (.serviceUnavailable .noLeader))
  | some leader =>
    commitFrom jitter leader transactions.toNat 1
    race jitter leader
    match ← act (.ok ∅) (Cluster.getMany leader (starts transactions)) with
    | .error e => throw (.failure e)
    | .ok found => log .info "done" [("committed", toString found.entries.length)]

/-- The configuration of a run. A number of nodes on the command line goes with majorities. -/
def configure (a : Arguments) (files : FileSystem) : Except Fault Config := do
  let config ← match a.config with
    | none => pure Config.default
    | some path => Config.load (files.readFile (Path.ofString path)).toOption
  return match a.nodes with
    | none => config
    | some nodes => { config with nodes, thresholds := none }

/-- A whole run over the files that there are. -/
def run (a : Arguments) (uuids : Nat → String) (jitter : Jitter) (files : FileSystem) : Report :=
  match configure a files with
  | .error e => ⟨[], .error e, files⟩
  | .ok config =>
    let first : LogLine := ⟨.info, "starting cluster",
      [("nodes", toString config.nodes), ("data_dir", optionalText config.dataDir)]⟩
    match Cluster.start config uuids files with
    | (.error e, files) => ⟨[first], .error e, files⟩
    | (.ok cluster, _) =>
      let (outcome, lines, cluster) := (session jitter (a.transactions.getD 5)).run.run ([first], cluster)
      ⟨lines.reverse, outcome, cluster.files⟩

/-- The names of what a line says; its message is one of them. -/
def LogLine.fieldNames (l : LogLine) : List String := "message" :: l.fields.map (·.1)

/-- The lines of a report that a filter lets through, `target` being where they come from. -/
def Report.shown (r : Report) (target : String) (filter : LogFilter) : List LogLine :=
  r.log.filter fun l => filter.lets target l.severity l.fieldNames

end Synod.CommandLine
