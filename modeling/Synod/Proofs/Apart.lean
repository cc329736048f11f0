import Mathlib
import Synod.Proofs.Calls
import Synod.Proofs.Separation
import Synod.Proofs.Within

/-!
# The calls of a cluster keep to their side

The acceptors of a side are asked one after the other, which takes as many deeds, and all else that a
call does in a cluster is to look, to tell learners and to alter the part of a node. So every call is a
task of its side.
-/
namespace Synod
open Cluster FileSystem

namespace Cluster
variable {side : Side} {α : Type}

/-- A side's acceptors and learners, and the files. -/
def part (side : Side) (c : Cluster) : Space × FileSystem := (c.space side, c.files)

def setPart (side : Side) (c : Cluster) (w : Space × FileSystem) : Cluster :=
  { c.setSpace side w.1 with files := w.2 }

/-- How the acceptors and learners of a side are reached. -/
def transport (side : Side) : Transport Cluster := Space.transport.within (part side) (setPart side)

lemma isPart (side : Side) : IsPart (part side) (setPart side) where
  part_replace c w := by cases side <;> rfl
  replace_part c := by cases side <;> rfl
  replace_replace c w w' := by cases side <;> rfl

/-- A request to acceptors from number `node` on, `left` of them. -/
def askEach (side : Side) (r : Request) : (left node : Nat) → Cluster → List (Option Call) × Cluster
  | 0, _, c => ([], c)
  | left + 1, node, c =>
    let (call, c) := c.ask side node r
    let (calls, c) := askEach side r left (node + 1) c
    (call :: calls, c)

lemma does_askEach (r : Request) (left node : Nat) : side.Does (askEach side r left node) := by
  induction left generalizing node with
  | zero => exact .pure []
  | succ left ih =>
    refine .of_leaves (.after (.ask node r) fun call => .after (ih (node + 1)) fun calls =>
      .done (call :: calls) ?_)
    rintro c d ⟨_, ⟨_, rfl, hasked⟩, hrest⟩
    simp only [askEach, hasked, hrest]

section
variable (r : Request) (handle : Acceptor Medium → Except Failure α × Acceptor Medium)
  (answer : Call → Option α)

/-- To ask all acceptors is to ask each: induction on those left. -/
lemma askAll_eq_askEach (h : ∀ a, (handle a).1.toOption = answer (a.serve r).1 ∧
    (handle a).2 = (a.serve r).2) (before rest : List (Acceptor Medium)) (c : Cluster)
    (hc : (c.space side).acceptors = before ++ rest) :
    let all := Space.askAll handle rest c.files
    let each := askEach side r rest.length before.length c
    all.1 = each.1.map (·.bind answer) ∧
    c.setPart side ({ c.space side with acceptors := before ++ all.2.1 }, all.2.2) = each.2 := by
  induction rest generalizing before c with
  | nil =>
    refine ⟨rfl, ?_⟩
    rw [List.append_nil] at hc
    simp only [Space.askAll, List.append_nil, ← hc]
    cases side <;> rfl
  | cons a rest ih =>
    obtain ⟨hanswer, hnext⟩ := h (c.mounted a)
    set served := (c.mounted a).serve r
    have hall : Space.askAll handle (a :: rest) c.files =
        (answer served.1 :: (Space.askAll handle rest (served.2.store.files c.files)).1,
          served.2 :: (Space.askAll handle rest (served.2.store.files c.files)).2.1,
          (Space.askAll handle rest (served.2.store.files c.files)).2.2) := by
      rw [← hanswer, ← hnext]
      rfl
    have hasked : c.ask side before.length r =
        (some served.1, c.setAcceptor side before.length served.2) :=
      ask_of_some _ r (by simp [hc])
    obtain ⟨hrest, hend⟩ := ih (before ++ [served.2]) (c.setAcceptor side before.length served.2)
      (by simp [hc])
    rw [List.length_append, List.length_singleton] at hrest hend
    simp only [hall, List.length_cons, askEach, hasked, List.map_cons, Option.bind_some]
    refine ⟨congrArg _ hrest, ?_⟩
    rw [← hend]
    cases side <;> simp [setPart, setAcceptor, setSpace, space]

/-- A request to all acceptors of a side, the answers of which need no more deeds. -/
lemma asks_all (h : ∀ a, (handle a).1.toOption = answer (a.serve r).1 ∧
    (handle a).2 = (a.serve r).2) :
    side.Asks fun c =>
      let asked := Space.ask handle (c.part side)
      (asked.1.map fun await c => ((await (c.part side)).1, c.setPart side (await (c.part side)).2),
        c.setPart side asked.2) := by
  obtain ⟨t, ht⟩ : side.Does fun c =>
      ((askEach side r (c.space side).acceptors.length 0 c).1.map fun call =>
        (Task.done (call.bind answer) : Task side (Option α)),
        (askEach side r (c.space side).acceptors.length 0 c).2) := by
    refine .of_leaves (.after .look fun held => .call ((does_askEach r held.acceptors 0).map fun calls =>
      calls.map fun call => .done (call.bind answer)) ?_)
    rintro c d ⟨_, rfl, hlooked⟩
    cases hlooked
    rfl
  refine ⟨t, fun c => ?_⟩
  obtain ⟨hanswers, hend⟩ := askAll_eq_askEach r handle answer h [] _ c rfl
  rw [← ht]
  refine Prod.ext ?_ hend
  have hanswers' : (Space.askAll handle (c.part side).1.acceptors (c.part side).2).1 = _ := hanswers
  simp only [Space.ask, hanswers', List.map_map]
  refine List.map_congr_left fun call _ => ?_
  funext d
  exact congrArg _ ((isPart side).replace_part d)

end

end Cluster

/-- The promise that came of a call. -/
def Call.promise? : Call → Option Promise
  | .prepare _ _ outcome => outcome.toOption
  | .accept .. => none

/-- The acceptance that came of a call. -/
def Call.acceptance? : Call → Option Acceptance
  | .prepare .. => none
  | .accept _ _ outcome => outcome.toOption

namespace Cluster
variable {side : Side} {α : Type}

/-- The calls of a side are made over its own acceptors and learners. -/
theorem transport_of (side : Side) : (transport side).Of side where
  prepare slot id := asks_all (.prepare slot id) (·.prepare slot id) Call.promise? fun _ => ⟨rfl, rfl⟩
  accept slot value :=
    asks_all (.accept slot value) (·.accept slot value) Call.acceptance? fun _ => ⟨rfl, rfl⟩
  notify slot value :=
    ((Side.Does.tell fun learners => learners.map fun l => (l.record slot value).2).map fun _ =>
      ()).congr fun c => by cases side <;> rfl

/-! ### Calls -/

/-- A call of a node, which has no answer if there is no such node. -/
def offered (call : Cluster → Option (α × Cluster)) (c : Cluster) : Option α × Cluster :=
  match call c with
  | none => (none, c)
  | some (a, c) => (some a, c)

/-- Something that a node's part in a side does, which takes its place again afterwards. -/
def withPart (side : Side) (i : Nat) (act : side.Part → Cluster → α × side.Part × Cluster)
    (c : Cluster) : Option (α × Cluster) :=
  c.nodes[i]?.map fun node =>
    let (a, p, c) := act (side.part node) c
    (a, c.alter side i fun _ => p)

lemma does_withPart (i : Nat) {act : side.Part → Cluster → α × side.Part × Cluster}
    (h : ∀ p, side.Acts (act p)) : side.Does (offered (withPart side i act)) := by
  refine .of_leaves (.after .look fun held => ?_)
  cases hpart : held.parts[i]? with
  | none =>
    refine .done none ?_
    rintro c d ⟨_, rfl, hlooked⟩
    cases hlooked
    rw [holdings, List.getElem?_map, Option.map_eq_none_iff] at hpart
    simp only [offered, withPart, hpart, Option.map_none]
  | some p =>
    refine .following (h p) fun a q => .after (.alter i fun _ => q) fun _ => .done (some a) ?_
    rintro c d ⟨_, ⟨_, ⟨_, rfl, hlooked⟩, hacted⟩, haltered⟩
    cases hlooked
    cases haltered
    rw [holdings, List.getElem?_map, Option.map_eq_some_iff] at hpart
    obtain ⟨node, hnode, rfl⟩ := hpart
    simp only [offered, withPart, hnode, Option.map_some, hacted]

lemma does_withLeadership (i : Nat) {act : Candidate Nat → Cluster → α × Candidate Nat × Cluster}
    (h : ∀ candidate, Side.leadership.Acts (act candidate)) :
    Side.leadership.Does (offered (withLeadership i act)) := by
  change Side.leadership.Does (offered (withPart .leadership i act))
  exact does_withPart i h

lemma does_withTransactions (i : Nat)
    {act : CommitService → Cluster → α × CommitService × Cluster}
    (h : ∀ service, Side.transactions.Acts (act service)) :
    Side.transactions.Does (offered (withTransactions i act)) := by
  change Side.transactions.Does (offered (withPart .transactions i act))
  exact does_withPart i h

lemma does_isLeader (i : Nat) : Side.leadership.Does (isLeader i) := by
  refine .of_leaves (.after (.see fun held : Holdings .leadership =>
    held.learners[i]?.getD Learner.empty) fun l => .call (does_withLeadership i fun candidate =>
      .pure (candidate.isLeader l).1 (candidate.isLeader l).2) ?_)
  rintro c d ⟨_, rfl, hlearner⟩
  cases hlearner
  simp only [offered, withLeadership, isLeader]
  cases c.nodes[i]? <;> rfl

lemma does_leaderFrom (left node : Nat) : Side.leadership.Does (leaderFrom left node) := by
  induction left generalizing node with
  | zero => exact .pure none
  | succ left ih =>
    refine .of_leaves (.after (does_isLeader node) fun leads => ?_)
    rcases leads with _ | _ | _
    · refine .call (ih (node + 1)) ?_
      rintro c d ⟨_, rfl, hleads⟩
      simp only [leaderFrom, hleads]
    · refine .call (ih (node + 1)) ?_
      rintro c d ⟨_, rfl, hleads⟩
      simp only [leaderFrom, hleads]
    · refine .done (some node) ?_
      rintro c d ⟨_, rfl, hleads⟩
      simp only [leaderFrom, hleads]

theorem does_leader : Side.leadership.Does leader := by
  refine .of_leaves (.after .look fun held => .call (does_leaderFrom held.parts.length 0) ?_)
  rintro c d ⟨_, rfl, hlooked⟩
  cases hlooked
  simp only [leader, holdings, List.length_map]

theorem surroundings_of (i : Nat) : (surroundings i).Of .leadership where
  transport := transport_of .leadership
  learner := Side.Does.see fun held : Holdings .leadership => held.learners[i]?.getD Learner.empty
  record slot value :=
    (Side.Does.tell fun learners =>
      learners.set i ((learners[i]?.getD Learner.empty).record slot value).2).map fun held =>
        ((held.learners[i]?.getD Learner.empty).record slot value).1
  ping := does_isLeader
  identify j := by
    refine (Side.Does.see fun held : Holdings .leadership =>
      held.parts[j]?.map Candidate.uuid).congr fun c => ?_
    simp only [surroundings, holdings, List.getElem?_map]
    cases c.nodes[j]? <;> rfl

lemma does_lookup (i : Nat) (slot : Slot) : Side.transactions.Does (lookup i slot) :=
  Side.Does.see fun held : Holdings .transactions =>
    Except.ok ((held.learners[i]?.getD Learner.empty).get? slot)

/-- What callers can have a cluster do, by the side that does it. -/
inductive Operation : Side → Type → Type 1
  | acquire (node : Nat) (policy : RetryPolicy) (jitter : Jitter) :
      Operation .leadership (Option (Except Fault LeadershipState))
  | refresh (node : Nat) : Operation .leadership (Option (List Nat))
  | isLeader (node : Nat) : Operation .leadership (Option Bool)
  | leader : Operation .leadership (Option Nat)
  | currentLeader (node : Nat) : Operation .leadership (Option (Slot × String))
  | put (node : Nat) (jitter : Jitter) (start commit : UInt64) :
      Operation .transactions (Option (Except Fault Unit))
  | get (node : Nat) (start : UInt64) :
      Operation .transactions (Option (Except Failure (Option UInt64)))
  | getMany (node : Nat) (starts : List UInt64) :
      Operation .transactions (Option (Except Failure (SlotMap UInt64)))

def Operation.run : Operation side α → Cluster → α × Cluster
  | .acquire i policy jitter => offered (Cluster.acquire i policy jitter)
  | .refresh i => offered (Cluster.refresh i)
  | .isLeader i => Cluster.isLeader i
  | .leader => Cluster.leader
  | .currentLeader i => fun c => (c.currentLeader i, c)
  | .put i jitter start commit => offered (Cluster.put i jitter start commit)
  | .get i start => offered (Cluster.get i start)
  | .getMany i starts => offered (Cluster.getMany i starts)

/-- Every operation is a task of its side. -/
theorem Operation.does (op : Operation side α) : side.Does op.run := by
  cases op with
  | acquire i policy jitter =>
    exact does_withLeadership i (Candidate.acts_acquire (surroundings_of i) policy jitter)
  | refresh i => exact does_withLeadership i (Candidate.acts_refresh (surroundings_of i))
  | isLeader i => exact does_isLeader i
  | leader => exact does_leader
  | currentLeader i =>
    exact Side.Does.see fun held : Holdings .leadership =>
      (held.learners[i]?.getD Learner.empty).leader?
  | put i jitter start commit =>
    exact does_withTransactions i
      (CommitService.acts_put (transport_of .transactions) jitter start commit)
  | get i start => exact does_withTransactions i (CommitService.acts_get (does_lookup i) start)
  | getMany i starts =>
    exact does_withTransactions i (CommitService.acts_getManyInto (does_lookup i) starts ∅)

/-- The two sides of a cluster do not interfere, though both proposers of a node start with the same
name and round. Every acceptor has a place of its own for its records; every operation is a task of one
side; and whatever tasks take turns in whatever order, a side has come as far with the same answers, and
has the same records, learners and parts, as in the session without the turns of the other side, whose
next turn changes nothing of it either. -/
theorem sides_apart {config : Config} {uuids : Nat → String} {files files' : FileSystem} {c : Cluster}
    (h : start config uuids files = (.ok c, files')) :
    (∀ node ∈ c.nodes, node.leadership.proposer = node.transactions.proposer) ∧
    (∃ homes, c.Wired homes) ∧
    (∀ (side : Side) (α : Type) (op : Operation side α), side.Does op.run) ∧
    ∀ (α : Side → Nat → Type) (jobs : (side : Side) → (k : Nat) → Task side (α side k))
      (turns : List (Side × Nat)) (side : Side),
      let whole := (Session.mk c jobs).run turns
      let alone := (Session.mk c jobs).run (turns.filter (·.1 = side))
      whole.jobs side = alone.jobs side ∧ whole.cluster.view side = alone.cluster.view side ∧
      ∀ k, (whole.turn side.other k).cluster.view side = whole.cluster.view side := by
  obtain ⟨homes, hwired⟩ := start_wired h
  refine ⟨start_proposers h, ⟨homes, hwired⟩, fun _ _ op => op.does, fun α jobs turns side => ?_⟩
  have hstart : Session.Alike side homes (Session.mk c jobs) (Session.mk c jobs) :=
    ⟨hwired.alike rfl rfl fun _ => .refl _ _, rfl⟩
  have halike := hstart.run hwired hwired turns
  have hwhole : ((Session.mk c jobs).run turns).cluster.Wired homes := Session.run_wired hwired turns
  refine ⟨halike.jobs, halike.cluster.view, fun k => ?_⟩
  have hother : side ≠ side.other := by cases side <;> decide
  exact (Task.step_alike_of_ne _ hwhole hother).view

/-- A cluster of one node that has just started in a directory. -/
def lone : Cluster :=
  let inner : Location := ["d", "node-0"]
  let between : FileSystem :=
    ⟨[(["d"], .directory), (inner, .directory), (inner ++ ["leadership"], .directory)], []⟩
  let files : FileSystem := ⟨between.entries ++ [(inner ++ ["transactions"], .directory)], []⟩
  let proposer : Proposer := ⟨"n", Quorum.single, 0⟩
  { config := { Config.default with nodes := 1, dataDir := some "d" }
    files
    leadership := ⟨[.start (.directory ⟨⟨inner ++ ["leadership"]⟩, between⟩)], [Learner.empty]⟩
    transactions := ⟨[.start (.directory ⟨⟨inner ++ ["transactions"]⟩, files⟩)], [Learner.empty]⟩
    nodes := [⟨.new proposer, .new proposer .default⟩] }

lemma start_lone : start lone.config (fun _ => "n") .empty = (.ok lone, lone.files) := by
  have hdir : ∀ i space,
      recordDir "d" i space = (Path.child ⟨["d"]⟩ (nodeName i)).child space := by
    intro i space
    have hdata : Path.ofString "d" = ⟨["d"]⟩ := by cbv
    rw [recordDir_eq, hdata]
  have hconfig : lone.config.dataDir = some "d" := rfl
  have hcount : lone.config.nodes.toNat = 1 := rfl
  have hquorum : lone.config.quorum = .ok Quorum.single := rfl
  have hleadership : openAcceptors (some "d") leadershipName 1 0 .empty =
      (.ok lone.leadership.acceptors, ⟨lone.files.entries.take 3, []⟩) := by
    simp only [openAcceptors, hdir]
    rfl
  have htransactions : openAcceptors (some "d") transactionsName 1 0
      ⟨lone.files.entries.take 3, []⟩ = (.ok lone.transactions.acceptors, lone.files) := by
    simp only [openAcceptors, hdir]
    rfl
  unfold start
  simp only [hconfig, hcount, hquorum, hleadership, htransactions]
  rfl

/-- On both sides of one node the same id under the same name is promised for the same slot, although
the records are in one file system. -/
theorem sides_apart_lone :
    let r := Request.prepare ⟨1⟩ ⟨0, "n"⟩
    let jobs := fun (side : Side) (_ : Nat) =>
      (.act (.ask 0 r) fun found => .done found.call : Task side (Option Call))
    let both := (Session.mk lone jobs).run [(.leadership, 0), (.transactions, 0)]
    start lone.config (fun _ => "n") .empty = (.ok lone, lone.files) ∧
    ∀ side, both.jobs side 0 =
      .done (some (.prepare ⟨1⟩ ⟨0, "n"⟩ (.ok ⟨true, ⟨0, "n"⟩, none, none⟩))) := by
  refine ⟨start_lone, fun side => ?_⟩
  obtain ⟨_, _, _, hsessions⟩ := sides_apart start_lone
  obtain ⟨hjobs, _, _⟩ := hsessions _ _ [(.leadership, 0), (.transactions, 0)] side
  refine (congrFun hjobs 0).trans ?_
  cases side <;> rfl

end Cluster
end Synod
