import Synod.Commits
import Synod.Config
import Synod.Leadership
import Synod.Acceptor
import Synod.Store.Medium

/-!
# Clusters in one process

Every node of a cluster takes part in two spaces of slots, one for leadership generations and
one for commit timestamps, with an acceptor and a learner of its own in each. The acceptors of a
space are asked all at once and answer in the order of the nodes. Records of different nodes and
spaces are kept in different directories of one file system.
-/
namespace Synod

/-- The acceptors and learners of one space, by node. -/
structure Space where
  acceptors : List (Acceptor Medium)
  learners : List Learner

namespace Space

/-- Lets every acceptor handle a request, each finding the files as the one before left them. -/
def askAll {α : Type} (handle : Acceptor Medium → Except Failure α × Acceptor Medium) :
    List (Acceptor Medium) → FileSystem → List (Option α) × List (Acceptor Medium) × FileSystem
  | [], files => ([], [], files)
  | a :: rest, files =>
    let (outcome, a) := handle { a with store := a.store.mount files }
    let (answers, rest, files) := askAll handle rest (a.store.files files)
    (outcome.toOption :: answers, a :: rest, files)

def ask {α : Type} (handle : Acceptor Medium → Except Failure α × Acceptor Medium)
    (w : Space × FileSystem) :
    List (Space × FileSystem → Option α × Space × FileSystem) × Space × FileSystem :=
  let (answers, acceptors, files) := askAll handle w.1.acceptors w.2
  (answers.map fun answer w => (answer, w), { w.1 with acceptors }, files)

def transport : Transport (Space × FileSystem) where
  prepare slot id w := ask (·.prepare slot id) w
  accept slot value w := ask (·.accept slot value) w
  notify slot value w :=
    ({ w.1 with learners := w.1.learners.map fun l => (l.record slot value).2 }, w.2)

def learner (s : Space) (i : Nat) : Learner := s.learners[i]?.getD Learner.empty

end Space

/-- A node: its part in the election of a leader, and its part in commits. -/
structure ClusterNode where
  leadership : Candidate Nat
  transactions : CommitService

def ClusterNode.uuid (n : ClusterNode) : String := n.leadership.uuid

structure Cluster where
  config : Config
  files : FileSystem
  leadership : Space
  transactions : Space
  nodes : List ClusterNode

namespace Cluster

/-- The name of a space, as directories have it. -/
def leadershipName : String := "leadership"
def transactionsName : String := "transactions"

/-- Where a node keeps the records of a space. -/
def recordDir (dataDir : String) (node : Nat) (space : String) : Path :=
  ((Path.ofString dataDir).child s!"node-{node}").child space

/-- The acceptors of a space, from node `node` on, `left` of them. -/
def openAcceptors (dataDir : Option String) (space : String) :
    (left node : Nat) → FileSystem → Except Failure (List (Acceptor Medium)) × FileSystem
  | 0, _, files => (.ok [], files)
  | left + 1, node, files =>
    match dataDir with
    | none =>
      let (rest, files) := openAcceptors dataDir space left (node + 1) files
      (rest.map (.start (.memory MemoryStore.empty) :: ·), files)
    | some dataDir =>
      match DirectoryStore.open (recordDir dataDir node space) files with
      | .error e => (.error e, files)
      | .ok store =>
        let (rest, files) := openAcceptors (some dataDir) space left (node + 1) store.files
        (rest.map (.start (.directory store) :: ·), files)

/-- A node, before it knows its peers. -/
def makeNode (config : Config) (quorum : Quorum) (uuid : String) : Except Failure ClusterNode := do
  let proposer ← Proposer.make uuid quorum config.nodes.toNat config.roundFloor
  return ⟨.new proposer, .new proposer config.retry⟩

/-- Makes every node a peer of every other one. -/
def introduce (nodes : List ClusterNode) : List ClusterNode :=
  nodes.map fun node =>
    let others := nodes.zipIdx.filter fun (peer, _) => peer.uuid ≠ node.uuid
    { node with leadership := others.foldl (fun c (_, i) => c.addPeer i) node.leadership }

/-- A cluster over the files that there are. Node `i` goes by the name `uuids i`. -/
def start (config : Config) (uuids : Nat → String) (files : FileSystem) :
    Except Fault Cluster × FileSystem :=
  match config.quorum with
  | .error e => (.error e, files)
  | .ok quorum =>
    let count := config.nodes.toNat
    match openAcceptors config.dataDir leadershipName count 0 files with
    | (.error e, files) => (.error (.failure e), files)
    | (.ok leadership, files) =>
      match openAcceptors config.dataDir transactionsName count 0 files with
      | (.error e, files) => (.error (.failure e), files)
      | (.ok transactions, files) =>
        match (List.range count).mapM fun i => makeNode config quorum (uuids i) with
        | .error e => (.error (.failure e), files)
        | .ok nodes =>
          let learners := List.replicate count Learner.empty
          (.ok ⟨config, files, ⟨leadership, learners⟩, ⟨transactions, learners⟩, introduce nodes⟩,
            files)

/-- A new cluster over the files that this one leaves behind. -/
def restart (c : Cluster) (uuids : Nat → String) : Except Fault Cluster × FileSystem :=
  start c.config uuids c.files

def setLeadership (c : Cluster) (i : Nat) (leadership : Candidate Nat) : Cluster :=
  { c with nodes := c.nodes.modify i ({ · with leadership }) }

def setTransactions (c : Cluster) (i : Nat) (transactions : CommitService) : Cluster :=
  { c with nodes := c.nodes.modify i ({ · with transactions }) }

/-- Whether a node leads; `none` if there is no such node. -/
def isLeader (i : Nat) (c : Cluster) : Option Bool × Cluster :=
  match c.nodes[i]? with
  | none => (none, c)
  | some node =>
    let (leading, candidate) := node.leadership.isLeader (c.leadership.learner i)
    (some leading, c.setLeadership i candidate)

/-- The first node from `node` on that leads, `left` of them being asked. -/
def leaderFrom : (left node : Nat) → Cluster → Option Nat × Cluster
  | 0, _, c => (none, c)
  | left + 1, node, c =>
    match c.isLeader node with
    | (some true, c) => (some node, c)
    | (_, c) => leaderFrom left (node + 1) c

def leader (c : Cluster) : Option Nat × Cluster := leaderFrom c.nodes.length 0 c

def leadershipTransport : Transport Cluster :=
  Space.transport.within (fun c => (c.leadership, c.files)) fun c w =>
    { c with leadership := w.1, files := w.2 }

def transactionsTransport : Transport Cluster :=
  Space.transport.within (fun c => (c.transactions, c.files)) fun c w =>
    { c with transactions := w.1, files := w.2 }

/-- What the candidate of node `i` can reach. -/
def surroundings (i : Nat) : Surroundings Nat Cluster where
  transport := leadershipTransport
  learner c := c.leadership.learner i
  record slot value c :=
    let (r, l) := (c.leadership.learner i).record slot value
    (r, { c with leadership := { c.leadership with learners := c.leadership.learners.set i l } })
  ping := isLeader
  identify j c := (c.nodes[j]?.map ClusterNode.uuid, c)

def currentLeader (c : Cluster) (i : Nat) : Option (Slot × String) := (c.leadership.learner i).leader?

/-- The learner of node `i`, which always answers. -/
def lookup (i : Nat) (slot : Slot) (c : Cluster) :
    Except Failure (Option ProposalValue) × Cluster :=
  (.ok ((c.transactions.learner i).get? slot), c)

variable {α : Type}

def withLeadership (i : Nat) (act : Candidate Nat → Cluster → α × Candidate Nat × Cluster)
    (c : Cluster) : Option (α × Cluster) :=
  c.nodes[i]?.map fun node =>
    let (a, candidate, c) := act node.leadership c
    (a, c.setLeadership i candidate)

def withTransactions (i : Nat) (act : CommitService → Cluster → α × CommitService × Cluster)
    (c : Cluster) : Option (α × Cluster) :=
  c.nodes[i]?.map fun node =>
    let (a, service, c) := act node.transactions c
    (a, c.setTransactions i service)

def acquire (i : Nat) (policy : RetryPolicy) (jitter : Jitter) :
    Cluster → Option (Except Fault LeadershipState × Cluster) :=
  withLeadership i fun candidate c =>
    let run := candidate.acquire (surroundings i) policy jitter c
    (run.outcome, run.state)

def refresh (i : Nat) : Cluster → Option (List Nat × Cluster) :=
  withLeadership i fun candidate c => candidate.refresh (surroundings i) c

def put (i : Nat) (jitter : Jitter) (start commit : UInt64) :
    Cluster → Option (Except Fault Unit × Cluster) :=
  withTransactions i fun service c => service.put transactionsTransport jitter start commit c

def get (i : Nat) (start : UInt64) : Cluster → Option (Except Failure (Option UInt64) × Cluster) :=
  withTransactions i fun service c => service.get (lookup i) start c

def getMany (i : Nat) (starts : List UInt64) :
    Cluster → Option (Except Failure (SlotMap UInt64) × Cluster) :=
  withTransactions i fun service c => service.getMany (lookup i) starts c

end Cluster
end Synod
