import Mathlib.Logic.Function.Basic
import Synod.Cluster
import Synod.Proofs.History

/-!
# The sides of a cluster

A cluster has two sides, one for the election of a leader and one for commits. Whatever a call of a
side does comes down to three kinds of deeds: to ask an acceptor, to tell learners something, and to
alter a node's part. A task is a call as a tree of deeds, and in a session the tasks of both sides take
turns, deed by deed, in any order. Which requests arrive, and when, and which answers do, is part of a
task, so what is said of all tasks is said of every behaviour of the network.
-/
namespace Synod

inductive Side
  | leadership
  | transactions
  deriving DecidableEq, Repr

namespace Side

def other : Side → Side
  | leadership => transactions
  | transactions => leadership

/-- The name of the side's space, as directories have it. -/
def name : Side → String
  | leadership => Cluster.leadershipName
  | transactions => Cluster.transactionsName

/-- A node's part in a side. -/
def Part : Side → Type
  | leadership => Candidate Nat
  | transactions => CommitService

def part : (side : Side) → ClusterNode → side.Part
  | leadership, n => n.leadership
  | transactions, n => n.transactions

def setPart : (side : Side) → side.Part → ClusterNode → ClusterNode
  | leadership, p, n => { n with leadership := p }
  | transactions, p, n => { n with transactions := p }

variable {side side' : Side}

lemma ne_iff : side' ≠ side ↔ side' = side.other := by
  cases side <;> cases side' <;> decide

@[simp] lemma part_setPart (p : side.Part) (n : ClusterNode) : side.part (side.setPart p n) = p := by
  cases side <;> rfl

lemma part_setPart_of_ne (h : side' ≠ side) (p : side.Part) (n : ClusterNode) :
    side'.part (side.setPart p n) = side'.part n := by
  obtain rfl := ne_iff.mp h
  cases side <;> rfl

end Side

namespace Cluster

/-- The acceptors and learners of a side. -/
def space (c : Cluster) : Side → Space
  | .leadership => c.leadership
  | .transactions => c.transactions

def setSpace (c : Cluster) : Side → Space → Cluster
  | .leadership, s => { c with leadership := s }
  | .transactions, s => { c with transactions := s }

@[simp] lemma files_setSpace {side : Side} (c : Cluster) (s : Space) :
    (c.setSpace side s).files = c.files := by
  cases side <;> rfl

/-- What a side holds besides records: how many acceptors, its learners, and the nodes' parts. -/
structure Holdings (side : Side) where
  acceptors : Nat
  learners : List Learner
  parts : List side.Part

def holdings (side : Side) (c : Cluster) : Holdings side :=
  ⟨(c.space side).acceptors.length, (c.space side).learners, c.nodes.map side.part⟩

/-- An acceptor that finds the files as they are. -/
def mounted (c : Cluster) (a : Acceptor Medium) : Acceptor Medium :=
  { a with store := a.store.mount c.files }

/-- Puts an acceptor in its place, and the files as it leaves them. -/
def setAcceptor (side : Side) (i : Nat) (a : Acceptor Medium) (c : Cluster) : Cluster :=
  let s := c.space side
  { c.setSpace side { s with acceptors := s.acceptors.set i a } with files := a.store.files c.files }

/-- What an acceptor of a side makes of a request, if there is one of this number. -/
def ask (side : Side) (i : Nat) (r : Request) (c : Cluster) : Option Call × Cluster :=
  match (c.space side).acceptors[i]? with
  | none => (none, c)
  | some a =>
    let (call, a) := (c.mounted a).serve r
    (some call, c.setAcceptor side i a)

/-- Changes what the learners of a side hold. -/
def tell (side : Side) (change : List Learner → List Learner) (c : Cluster) : Cluster :=
  c.setSpace side { c.space side with learners := change (c.space side).learners }

/-- Changes a node's part in a side. -/
def alter (side : Side) (i : Nat) (change : side.Part → side.Part) (c : Cluster) : Cluster :=
  { c with nodes := c.nodes.modify i fun n => side.setPart (change (side.part n)) n }

section
variable {side side' : Side} (i : Nat) (a : Acceptor Medium) (c : Cluster)

@[simp] lemma acceptors_setAcceptor :
    ((c.setAcceptor side i a).space side).acceptors = (c.space side).acceptors.set i a := by
  cases side <;> rfl

lemma space_setAcceptor_of_ne (h : side' ≠ side) :
    (c.setAcceptor side i a).space side' = c.space side' := by
  obtain rfl := Side.ne_iff.mp h
  cases side <;> rfl

@[simp] lemma files_setAcceptor : (c.setAcceptor side i a).files = a.store.files c.files := rfl

@[simp] lemma holdings_setAcceptor : (c.setAcceptor side i a).holdings side' = c.holdings side' := by
  unfold holdings
  cases side <;> cases side' <;> simp [setAcceptor, setSpace, space]

end

/-- Neither an acceptor nor a file has changed. -/
structure Undisturbed (c d : Cluster) : Prop where
  acceptors : ∀ side, (d.space side).acceptors = (c.space side).acceptors
  files : d.files = c.files

section
variable {side side' : Side} (c : Cluster)

lemma undisturbed_tell (change : List Learner → List Learner) :
    Undisturbed c (c.tell side change) := by
  refine ⟨fun side' => ?_, files_setSpace c _⟩
  cases side <;> cases side' <;> rfl

lemma holdings_tell (change : List Learner → List Learner) : (c.tell side change).holdings side =
    { c.holdings side with learners := change (c.holdings side).learners } := by
  cases side <;> rfl

lemma holdings_tell_of_ne (h : side' ≠ side) (change : List Learner → List Learner) :
    (c.tell side change).holdings side' = c.holdings side' := by
  obtain rfl := Side.ne_iff.mp h
  cases side <;> rfl

variable (i : Nat) (change : side.Part → side.Part)

@[simp] lemma space_alter : (c.alter side i change).space side' = c.space side' := by
  cases side' <;> rfl

lemma nodes_alter : (c.alter side i change).nodes =
    c.nodes.modify i fun n => side.setPart (change (side.part n)) n := rfl

lemma undisturbed_alter : Undisturbed c (c.alter side i change) :=
  ⟨fun _ => by rw [space_alter], rfl⟩

lemma holdings_alter : (c.alter side i change).holdings side =
    { c.holdings side with parts := (c.holdings side).parts.modify i change } := by
  have hparts : (c.nodes.modify i fun n => side.setPart (change (side.part n)) n).map side.part =
      (c.nodes.map side.part).modify i change := by
    refine List.ext_getElem? fun j => ?_
    simp only [List.getElem?_map, List.getElem?_modify]
    cases c.nodes[j]? with
    | none => rfl
    | some n => by_cases hij : i = j <;> simp [hij]
  simp only [holdings, space_alter, nodes_alter, hparts]

lemma holdings_alter_of_ne (h : side' ≠ side) :
    (c.alter side i change).holdings side' = c.holdings side' := by
  have hparts : (c.nodes.modify i fun n => side.setPart (change (side.part n)) n).map side'.part =
      c.nodes.map side'.part := by
    refine List.ext_getElem? fun j => ?_
    simp only [List.getElem?_map, List.getElem?_modify]
    cases c.nodes[j]? with
    | none => rfl
    | some n => by_cases hij : i = j <;> simp [hij, Side.part_setPart_of_ne h]
  simp only [holdings, space_alter, nodes_alter, hparts]

end

end Cluster

/-- What the calls of a side can do, one thing at a time. -/
inductive Deed (side : Side)
  | ask (acceptor : Nat) (r : Request)
  | tell (change : List Learner → List Learner)
  | alter (node : Nat) (change : side.Part → side.Part)

/-- What is found out by a deed: the call, if an acceptor was asked, and what the side held before. -/
structure Finding (side : Side) where
  call : Option Call
  held : Cluster.Holdings side

def Deed.run {side : Side} (c : Cluster) : Deed side → Finding side × Cluster
  | ask i r => (⟨(c.ask side i r).1, c.holdings side⟩, (c.ask side i r).2)
  | tell change => (⟨none, c.holdings side⟩, c.tell side change)
  | alter i change => (⟨none, c.holdings side⟩, c.alter side i change)

/-- A call: what it answers, or the deed that is next and how it goes on with what is found out. -/
inductive Task (side : Side) (α : Type)
  | done (a : α)
  | act (d : Deed side) (next : Finding side → Task side α)

namespace Task
variable {side : Side} {α β : Type}

/-- One deed. -/
def step (c : Cluster) : Task side α → Task side α × Cluster
  | done a => (done a, c)
  | act d next => (next (d.run c).1, (d.run c).2)

/-- All deeds, with no others in between. -/
def run : Task side α → Cluster → α × Cluster
  | done a, c => (a, c)
  | act d next, c => (next (d.run c).1).run (d.run c).2

/-- A task, and then another one that may depend on its answer. -/
def bind (t : Task side α) (f : α → Task side β) : Task side β :=
  match t with
  | done a => f a
  | act d next => act d fun found => (next found).bind f

theorem run_bind (t : Task side α) (f : α → Task side β) (c : Cluster) :
    (t.bind f).run c = (f (t.run c).1).run (t.run c).2 := by
  induction t generalizing c with
  | done a => rfl
  | act d next ih => exact ih _ _

end Task

/-- Tasks that take turns in a cluster, numbered on either side. -/
structure Session (α : Side → Nat → Type) where
  cluster : Cluster
  jobs : (side : Side) → (k : Nat) → Task side (α side k)

namespace Session
variable {α : Side → Nat → Type}

/-- The next deed of one task. -/
def turn (s : Session α) (side : Side) (k : Nat) : Session α :=
  let next := (s.jobs side k).step s.cluster
  ⟨next.2, Function.update s.jobs side (Function.update (s.jobs side) k next.1)⟩

/-- The session after turns in some order. -/
def run (s : Session α) : List (Side × Nat) → Session α
  | [] => s
  | (side, k) :: rest => (s.turn side k).run rest

end Session

/-- All that there is to a side: what its acceptors remember, what their stores would say of every
slot, its learners, and its parts of the nodes with their round counters and commit timestamps. -/
structure Cluster.View (side : Side) where
  remembered : List (SlotMap (Option AcceptorRecord))
  stored : List (Slot → Except StoreFault (Option AcceptorRecord))
  held : Cluster.Holdings side

def Cluster.view (side : Side) (c : Cluster) : Cluster.View side where
  remembered := (c.space side).acceptors.map (·.known)
  stored := (c.space side).acceptors.map fun a slot => (RecordStore.load slot (c.mounted a).store).1
  held := c.holdings side

end Synod
