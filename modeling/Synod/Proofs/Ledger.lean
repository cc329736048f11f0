import Synod.Learner
import Synod.Proofs.Assembly
import Synod.Proofs.Attempts
import Synod.Proofs.Commits

/-!
# Nodes that share an assembly

Every node has a proposer in the assembly, a learner, and a table of the commits that it knows.
Puts and gets run on any node, several at once, and between two steps of one anything may happen
elsewhere. Learners hear of the rounds that succeeded, or not. A node that is halted loses all that
it knows, and its calls are never answered; what lasts is in the stores of the acceptors. So a
restart of everything is that all nodes are halted, the acceptors are restarted one by one, and
nodes with new names are booted.
-/
namespace Synod
namespace Ledger

structure Node where
  service : CommitService
  learner : Learner

/-- A put that has made some attempts, the last one in the round named, if it goes on. -/
structure Put where
  node : Nat
  start : UInt64
  commit : UInt64
  made : Nat
  round : Option Nat

/-- A lookup of several commits that has come some way. -/
structure Query where
  node : Nat
  starts : List UInt64
  found : SlotMap UInt64

/-- What a call answered. -/
inductive Answer
  | put (start commit : UInt64) (outcome : Except Fault Unit)
  | get (start : UInt64) (outcome : Except Failure (Option UInt64))
  | getMany (outcome : Except Failure (SlotMap UInt64))

/-- How a learner is asked. -/
abbrev Lookup := Slot → Unit → Except Failure (Option ProposalValue) × Unit

/-- A node's learner tells what it has heard, if it can be reached. -/
def Node.Hears (node : Node) (lookup : Lookup) : Prop :=
  ∀ slot w, (lookup slot w).1 = .ok (node.learner.get? slot) ∨
    ∃ cause, (lookup slot w).1 = .error (.transport cause)

end Ledger

/-- An assembly, the nodes that use it, their calls under way, and all answers given so far. -/
structure Ledger (σ : Type) where
  assembly : Assembly σ
  nodes : Nat → Option Ledger.Node
  puts : Nat → Option Ledger.Put
  queries : Nat → Option Ledger.Query
  answers : List Ledger.Answer

namespace Ledger

variable {σ : Type}

def init (stores : Nat → σ) : Ledger σ :=
  ⟨Assembly.init stores, fun _ => none, fun _ => none, fun _ => none, []⟩

def setAssembly (s : Ledger σ) (assembly : Assembly σ) : Ledger σ := { s with assembly }

def setNode (s : Ledger σ) (i : Nat) (node : Node) : Ledger σ :=
  { s with nodes := Function.update s.nodes i (some node) }

def setPut (s : Ledger σ) (c : Nat) (put : Option Put) : Ledger σ :=
  { s with puts := Function.update s.puts c put }

def setQuery (s : Ledger σ) (c : Nat) (query : Option Query) : Ledger σ :=
  { s with queries := Function.update s.queries c query }

def answer (s : Ledger σ) (a : Answer) : Ledger σ := { s with answers := a :: s.answers }

variable [RecordStore σ]

/-- One step of a node, or of the assembly behind the nodes. -/
inductive Step (view : StoreView σ) (quorum : Quorum) (size : Nat) : Ledger σ → Ledger σ → Prop
  /-- Any step of the assembly except that rounds are begun by puts alone. -/
  | proceed {s a} (step : Assembly.Step view quorum size s.assembly a)
      (quiet : ∀ k, s.assembly.rounds k = none → a.rounds k = none) :
      Step view quorum size s (s.setAssembly a)
  | boot {s p} (i : Nat) (uuid : String) (floor : UInt64) (retry : RetryPolicy)
      (unused : s.nodes i = none) (unnamed : s.assembly.proposers uuid = none)
      (made : Proposer.make uuid quorum size floor = .ok p) :
      Step view quorum size s
        ((s.setAssembly (s.assembly.setProposer uuid p)).setNode i
          ⟨.new p retry, Learner.empty⟩)
  | halt {s node} (i : Nat) (present : s.nodes i = some node) :
      Step view quorum size s { s with
        nodes := Function.update s.nodes i none
        puts := fun c => (s.puts c).filter (·.node ≠ i)
        queries := fun c => (s.queries c).filter (·.node ≠ i) }
  | notify {s node r v} (i k : Nat) (present : s.nodes i = some node)
      (round : s.assembly.rounds k = some r) (ended : r.stage = .ended (.ok v)) :
      Step view quorum size s
        (s.setNode i { node with learner := (node.learner.record r.slot v).2 })
  | callPut {s node} (c i : Nat) (start commit : UInt64) (unused : s.puts c = none)
      (present : s.nodes i = some node) :
      Step view quorum size s (s.setPut c (some ⟨i, start, commit, 0, none⟩))
  | attempt {s put node p id after} (c k : Nat) (pending : s.puts c = some put)
      (idle : put.round = none) (present : s.nodes put.node = some node)
      (unused : s.assembly.rounds k = none)
      (known : s.assembly.proposers node.service.proposer.uuid = some p)
      (fresh : p.nextId = .ok (id, after)) :
      Step view quorum size s
        ((s.setAssembly (s.assembly.begin size k node.service.proposer.uuid after id ⟨put.start⟩
          (CommitService.encode put.commit))).setPut c
            (some { put with made := put.made + 1, round := some k }))
  /-- No round is left to attempt. -/
  | exhaust {s put node p e f} (c : Nat) (jitter : Jitter) (pending : s.puts c = some put)
      (idle : put.round = none) (present : s.nodes put.node = some node)
      (known : s.assembly.proposers node.service.proposer.uuid = some p)
      (spent : p.nextId = .error e)
      (verdict : node.service.retry.verdict jitter (put.made + 1) e = some f) :
      Step view quorum size s
        ((s.setPut c none).answer (.put put.start put.commit (.error f)))
  | retry {s put node k r e} (c : Nat) (jitter : Jitter) (pending : s.puts c = some put)
      (trying : put.round = some k) (present : s.nodes put.node = some node)
      (round : s.assembly.rounds k = some r) (ended : r.stage = .ended (.error e))
      (verdict : node.service.retry.verdict jitter put.made e = none) :
      Step view quorum size s (s.setPut c (some { put with round := none }))
  | fail {s put node k r e f} (c : Nat) (jitter : Jitter) (pending : s.puts c = some put)
      (trying : put.round = some k) (present : s.nodes put.node = some node)
      (round : s.assembly.rounds k = some r) (ended : r.stage = .ended (.error e))
      (verdict : node.service.retry.verdict jitter put.made e = some f) :
      Step view quorum size s
        ((s.setPut c none).answer (.put put.start put.commit (.error f)))
  | settle {s put node k r v outcome service} (c : Nat) (pending : s.puts c = some put)
      (trying : put.round = some k) (present : s.nodes put.node = some node)
      (round : s.assembly.rounds k = some r) (ended : r.stage = .ended (.ok v))
      (settled : node.service.settle put.start put.commit v.payload = (outcome, service)) :
      Step view quorum size s
        (((s.setNode put.node { node with service }).setPut c none).answer
          (.put put.start put.commit outcome))
  | get {s node outcome service} (i : Nat) (start : UInt64) (lookup : Lookup)
      (present : s.nodes i = some node) (hears : node.Hears lookup)
      (got : node.service.get lookup start () = (outcome, service, ())) :
      Step view quorum size s ((s.setNode i { node with service }).answer (.get start outcome))
  | callGetMany {s node} (c i : Nat) (starts : List UInt64) (unused : s.queries c = none)
      (present : s.nodes i = some node) :
      Step view quorum size s (s.setQuery c (some ⟨i, starts, ∅⟩))
  /-- Some of the timestamps are looked up, the first ones of those left. -/
  | look {s q node found service chunk rest} (c : Nat) (lookup : Lookup)
      (pending : s.queries c = some q) (split : q.starts = chunk ++ rest)
      (present : s.nodes q.node = some node) (hears : node.Hears lookup)
      (got : node.service.getManyInto lookup chunk q.found () = (.ok found, service, ())) :
      Step view quorum size s
        ((s.setNode q.node { node with service }).setQuery c
          (some { q with starts := rest, found }))
  | lookFail {s q node e service chunk rest} (c : Nat) (lookup : Lookup)
      (pending : s.queries c = some q) (split : q.starts = chunk ++ rest)
      (present : s.nodes q.node = some node) (hears : node.Hears lookup)
      (got : node.service.getManyInto lookup chunk q.found () = (.error e, service, ())) :
      Step view quorum size s
        (((s.setNode q.node { node with service }).setQuery c none).answer (.getMany (.error e)))
  | found {s q} (c : Nat) (pending : s.queries c = some q) (done : q.starts = []) :
      Step view quorum size s ((s.setQuery c none).answer (.getMany (.ok q.found)))

/-- What can come of nodes over acceptors with empty stores. -/
def Reachable (view : StoreView σ) (quorum : Quorum) (size : Nat) (s : Ledger σ) : Prop :=
  ∃ stores : Nat → σ, (∀ a, view.held (stores a) = fun _ => none) ∧
    Relation.ReflTransGen (Step view quorum size) (init stores) s

end Ledger
end Synod
