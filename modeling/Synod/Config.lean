import Synod.Format
import Synod.Quorum

/-!
# Configurations

How many nodes a cluster has, and how they wait, retry and keep their records. A configuration
is read from JSON text, anything missing being as in the default one, and is refused if its
thresholds are not safe for its number of nodes.
-/
namespace Synod
open Json JsonForm

/-- Thresholds as configured, not yet checked. -/
structure QuorumSettings where
  prepare : UInt64
  accept : UInt64
  deriving DecidableEq, Repr

namespace QuorumSettings

def fieldNames : List String := ["phase1", "phase2"]

instance : JsonForm QuorumSettings where
  toJson q := ofFields [("phase1", toJson q.prepare), ("phase2", toJson q.accept)]
  ofJson? j := do
    match ← fields? fieldNames false j with
    | [prepare, accept] => return ⟨← required? prepare, ← required? accept⟩
    | _ => none

end QuorumSettings

/-- Times are in milliseconds. Thresholds that are not given are majorities; records are kept in
memory if no directory is given for them. -/
structure Config where
  nodes : UInt64
  thresholds : Option QuorumSettings
  rpcTimeout : UInt64
  pingTimeout : UInt64
  roundFloor : UInt64
  retry : RetryPolicy
  dataDir : Option String
  deriving DecidableEq, Repr

namespace Config

def default : Config := ⟨3, none, 500, 200, 0, RetryPolicy.default, none⟩

def fieldNames : List String :=
  ["nodes", "quorum", "rpc_timeout_ms", "ping_timeout_ms", "round_floor", "retry", "data_dir"]

instance : JsonForm Config where
  toJson c := ofFields
    [("nodes", toJson c.nodes), ("quorum", toJson c.thresholds),
      ("rpc_timeout_ms", toJson c.rpcTimeout), ("ping_timeout_ms", toJson c.pingTimeout),
      ("round_floor", toJson c.roundFloor), ("retry", toJson c.retry),
      ("data_dir", toJson c.dataDir)]
  ofJson? j := do
    match ← fields? fieldNames true j with
    | [nodes, thresholds, rpcTimeout, pingTimeout, roundFloor, retry, dataDir] =>
      return ⟨← orElse? default.nodes nodes, ← orElse? default.thresholds thresholds,
        ← orElse? default.rpcTimeout rpcTimeout, ← orElse? default.pingTimeout pingTimeout,
        ← orElse? default.roundFloor roundFloor, ← orElse? default.retry retry,
        ← orElse? default.dataDir dataDir⟩
    | _ => none

/-- The thresholds to run with. -/
def quorum (c : Config) : Except Fault Quorum :=
  match c.thresholds with
  | some t => Quorum.ofThresholds c.nodes t.prepare t.accept
  | none => Quorum.majority c.nodes

/-- The configuration that a file holds, if there is a file, it is text, the text is of a
configuration, and its thresholds are safe. -/
def load (file : Option (List UInt8)) : Except Fault Config :=
  match file with
  | none => .error (.failure .unreadableFile)
  | some bytes =>
    match Text.ofBytes? bytes with
    | none => .error (.failure .unreadableFile)
    | some _ =>
      match (JsonForm.read? bytes : Option Config) with
      | none => .error (.failure .malformedText)
      | some c => c.quorum.map fun _ => c

/-- The text of a configuration file. -/
def save (c : Config) : List UInt8 := pretty c

/-- Milliseconds in microseconds. -/
def microseconds (milliseconds : UInt64) : Nat := milliseconds.toNat * 1000

end Config
end Synod
