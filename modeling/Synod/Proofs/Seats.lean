import Synod.Proofs.Ledger
import Synod.Proofs.Propose
import Synod.Proofs.Sightings

/-!
# Seats in a ledger

A node that runs a call, with the rounds that this takes, has a seat in a ledger: all else there is
shown by the world that the call goes to. What the call's transport and its learner do must be steps
of the ledger in which the node has its seat. Rounds of the call are not shown by the world; they are
added to the ledger as they end.
-/
namespace Synod

namespace Assembly
variable {σ : Type}

lemma grows_begin (e : Assembly σ) (size k : Nat) (uuid : String) (after : Proposer)
    (id : ProposalId) (slot : Slot) (own : Payload) :
    e.Grows (e.begin size k uuid after id slot own) :=
  ⟨fun _ _ h => h, fun _ h => List.mem_cons_of_mem _ h⟩

/-- An assembly to which rounds are added. -/
def withRounds (e : Assembly σ) (rounds : Nat → Option Round) : Assembly σ :=
  { e with rounds := fun k => (rounds k).or (e.rounds k) }

lemma setRound_withRounds (e : Assembly σ) (rounds : Nat → Option Round) (k : Nat) (r : Round) :
    (e.withRounds rounds).setRound k r = e.withRounds (Function.update rounds k (some r)) := by
  have hrounds : Function.update (fun l => (rounds l).or (e.rounds l)) k (some r) =
      fun l => (Function.update rounds k (some r) l).or (e.rounds l) := by
    funext l
    by_cases hl : l = k
    · subst hl
      simp
    · simp [hl]
  simp only [setRound, withRounds, hrounds]

end Assembly

/-- A service but for what its rounds did to its proposer. -/
def CommitService.withProposer (s : CommitService) (p : Proposer) : CommitService :=
  { s with proposer := p }

namespace Ledger
variable {σ ω : Type}

section Runs
variable [RecordStore σ] {view : StoreView σ} {quorum : Quorum} {size : Nat} {s t : Ledger σ}

/-- What can come of a ledger in any number of steps. -/
def Reaches (view : StoreView σ) (quorum : Quorum) (size : Nat) : Ledger σ → Ledger σ → Prop :=
  Relation.ReflTransGen (Step view quorum size)

lemma Step.grows (h : Step view quorum size s t) : s.assembly.Grows t.assembly := by
  cases h with
  | proceed step => exact step.grows
  | boot i uuid => exact s.assembly.grows_setProposer uuid _
  | attempt => exact s.assembly.grows_begin ..
  | _ => exact .refl _

lemma Reaches.grows (h : Reaches view quorum size s t) : s.assembly.Grows t.assembly := by
  induction h with
  | refl => exact .refl _
  | tail _ hstep ih => exact ih.trans hstep.grows

end Runs

/-- What a node's learner has heard. -/
def learner (s : Ledger σ) (i : Nat) : Learner := ((s.nodes i).map (·.learner)).getD .empty

/-- What a node is doing. -/
inductive Task
  | idle
  | put (put : Put)
  | query (query : Query)

namespace Task

def put? : Task → Option Put
  | put p => some p
  | _ => none

def query? : Task → Option Query
  | query q => some q
  | _ => none

end Task

/-- The node that runs a call: its number, the number of the call, the proposer as it was when the
node was booted, and the numbers that its rounds will have. -/
structure Seat where
  node : Nat
  call : Nat
  proposer : Proposer
  number : Nat → Nat
  distinct : Function.Injective number

namespace Seat

/-- A ledger in which the service has the seat, and has come so far. -/
def host (x : Seat) (s : Ledger σ) (service : CommitService) (task : Task) : Ledger σ :=
  ((s.setNode x.node ⟨service.withProposer x.proposer, s.learner x.node⟩).setPut x.call
    task.put?).setQuery x.call task.query?

/-- The same between rounds, when the proposer is where the service has it. Some rounds have been
run already. -/
def present (x : Seat) (s : Ledger σ) (rounds : Nat → Option Round) (service : CommitService)
    (task : Task) : Ledger σ :=
  x.host (s.setAssembly
    ((s.assembly.withRounds rounds).setProposer x.proposer.uuid service.proposer)) service task

/-- Rounds that have numbers of the seat. -/
def Own (x : Seat) (rounds : Nat → Option Round) : Prop :=
  ∀ k, rounds k ≠ none → ∃ n, k = x.number n

lemma own_none (x : Seat) : x.Own fun _ => none := fun _ hk => absurd rfl hk

lemma Own.update {x : Seat} {rounds : Nat → Option Round} (h : x.Own rounds) (n : Nat) (r : Round) :
    x.Own (Function.update rounds (x.number n) (some r)) := by
  intro k hk
  by_cases hn : k = x.number n
  · exact ⟨n, hn⟩
  · rw [Function.update_of_ne hn] at hk
    exact h k hk

section Parts
variable (x : Seat) (s : Ledger σ) (rounds : Nat → Option Round) (service service' : CommitService)
  (task task' : Task)

@[simp] theorem nodes_host : (x.host s service task).nodes x.node =
    some ⟨service.withProposer x.proposer, s.learner x.node⟩ := Function.update_self ..

@[simp] theorem puts_host : (x.host s service task).puts x.call = task.put? :=
  Function.update_self ..

@[simp] theorem queries_host : (x.host s service task).queries x.call = task.query? :=
  Function.update_self ..

@[simp] theorem nodes_present : (x.present s rounds service task).nodes x.node =
    some ⟨service.withProposer x.proposer, s.learner x.node⟩ := nodes_host ..

@[simp] theorem puts_present : (x.present s rounds service task).puts x.call = task.put? :=
  puts_host ..

@[simp] theorem queries_present : (x.present s rounds service task).queries x.call = task.query? :=
  queries_host ..

@[simp] theorem proposers_present : (x.present s rounds service task).assembly.proposers
    x.proposer.uuid = some service.proposer := Function.update_self ..

/-- A round that has been run is there. -/
theorem rounds_present {k : Nat} {r : Round} (h : rounds k = some r) :
    (x.present s rounds service task).assembly.rounds k = some r := by
  have hrounds : (x.present s rounds service task).assembly.rounds k =
      (rounds k).or (s.assembly.rounds k) := rfl
  rw [hrounds, h, Option.some_or]

/-- The put of the seat changes. -/
theorem setPut_host (h : task.query? = task'.query?) :
    (x.host s service task).setPut x.call task'.put? = x.host s service task' := by
  simp only [host, setPut, setQuery, Function.update_idem, h]

theorem setPut_present (h : task.query? = task'.query?) :
    (x.present s rounds service task).setPut x.call task'.put? = x.present s rounds service task' :=
  setPut_host _ _ _ _ _ h

/-- The query of the seat changes. -/
theorem setQuery_present (h : task.put? = task'.put?) :
    (x.present s rounds service task).setQuery x.call task'.query? =
      x.present s rounds service task' := by
  simp only [present, host, setPut, setQuery, Function.update_idem, h]

variable {service'}

/-- The service changes, but for its proposer. -/
theorem setNode_present (h : service'.proposer = service.proposer) :
    (x.present s rounds service task).setNode x.node
        ⟨service'.withProposer x.proposer, s.learner x.node⟩ =
      x.present s rounds service' task := by
  simp only [present, host, setNode, setPut, setQuery, Function.update_idem, h]
  rfl

/-- A round that has ended is one of those that have been run. -/
theorem host_running (k : Nat) (p p' : Proposer) (r : Round) :
    x.host (s.setAssembly ((s.assembly.withRounds rounds).running x.proposer.uuid k p' r))
        (service.withProposer p) task =
      x.present s (Function.update rounds k (some r)) (service.withProposer p') task := by
  rw [present, ← Assembly.setRound_withRounds]
  rfl

variable {x s service}

/-- A node between two calls has a seat in the ledger that it is in. -/
theorem present_self {learner : Learner}
    (hnode : s.nodes x.node = some ⟨service.withProposer x.proposer, learner⟩)
    (hput : s.puts x.call = none) (hquery : s.queries x.call = none)
    (hknown : s.assembly.proposers x.proposer.uuid = some service.proposer) :
    x.present s (fun _ => none) service .idle = s := by
  have hproposers : Function.update s.assembly.proposers x.proposer.uuid (some service.proposer) =
      s.assembly.proposers := Function.update_eq_self_iff.mpr hknown.symm
  have hassembly : (s.assembly.withRounds fun _ => none).setProposer x.proposer.uuid
      service.proposer = s.assembly := by
    simp only [Assembly.setProposer, Assembly.withRounds, Option.none_or, hproposers]
  have hsame : s.setAssembly s.assembly = s := rfl
  have hlearner : s.learner x.node = learner := by simp [Ledger.learner, hnode]
  have hnodes : Function.update s.nodes x.node (some ⟨service.withProposer x.proposer, learner⟩) =
      s.nodes := Function.update_eq_self_iff.mpr hnode.symm
  have hputs : Function.update s.puts x.call none = s.puts := Function.update_eq_self_iff.mpr hput.symm
  have hqueries : Function.update s.queries x.call none = s.queries :=
    Function.update_eq_self_iff.mpr hquery.symm
  rw [present, hassembly, hsame, host, hlearner]
  simp only [setNode, setPut, setQuery, Task.put?, Task.query?, hnodes, hputs, hqueries]

end Parts

/-! ### What a call goes to -/

section Surroundings
variable [RecordStore σ] (view : StoreView σ) (quorum : Quorum) (size : Nat) (x : Seat)

/-- While a round goes on, a put waits. No round is given a number of the seat meanwhile. -/
def arena (shows : ω → Ledger σ) (rounds : Nat → Option Round) (service : CommitService)
    (task : Task) : Assembly.Arena view quorum size ω where
  shows w := (shows w).assembly.withRounds rounds
  Reaches y z := Reaches view quorum size
      (x.host ((shows y.1).setAssembly y.2) service task)
      (x.host ((shows z.1).setAssembly z.2) service task) ∧
    ∀ n, y.2.rounds (x.number n) = none → z.2.rounds (x.number n) = none
  refl _ := ⟨.refl, fun _ => id⟩
  trans h h' := ⟨h.1.trans h'.1, fun n => h'.2 n ∘ h.2 n⟩
  lift _ _ _ h hquiet := ⟨.single (.proceed h hquiet), fun _ => hquiet _⟩
  grows h := Reaches.grows h.1

/-- A transport that works by steps of the ledger shown, whichever round of the seat is run. -/
def Conveys (shows : ω → Ledger σ) (t : Transport ω) : Prop :=
  ∀ rounds service task n, x.Own rounds →
    (x.arena view quorum size shows rounds service task).Carries x.proposer.uuid (x.number n) t

/-- The learner's answer to a lookup, if there is one, is what it has heard by then. Meanwhile the
ledger shown may go on. -/
structure Tells (shows : ω → Ledger σ) (lookup : CommitService.Lookup ω) : Prop where
  reaches : ∀ slot w rounds service task, x.Own rounds →
    Reaches view quorum size (x.present (shows w) rounds service task)
      (x.present (shows (lookup slot w).2) rounds service task)
  said : ∀ slot w,
    (lookup slot w).1 = .ok (((shows (lookup slot w).2).learner x.node).get? slot) ∨
      ∃ cause, (lookup slot w).1 = .error (.transport cause)

/-- Acceptors that are reached without delays or losses, and a learner that is told at once. -/
def direct : Transport (Ledger σ) :=
  { (Assembly.direct view size).within (·.assembly) setAssembly with
    notify := fun slot v s =>
      s.setNode x.node ⟨.new x.proposer .default, ((s.learner x.node).record slot v).2⟩ }

theorem conveys_direct : x.Conveys view quorum size id (x.direct view size) := by
  intro rounds service task n _
  have hmoves : (x.arena view quorum size id rounds service task).Moves x.proposer.uuid (x.number n)
      (·.assembly) setAssembly :=
    { part_put := fun _ _ => rfl
      put_part := fun _ => rfl
      calls := fun _ => rfl
      sent := fun _ => rfl
      send := fun _ _ _ _ => ⟨.refl, fun _ => id⟩
      act := fun s a event ha hasked p r => by
        have hstep : Assembly.Step view quorum size
            ((s.assembly.withRounds rounds).running x.proposer.uuid (x.number n) p r)
            (((s.assembly.withRounds rounds).running x.proposer.uuid (x.number n) p r).act a event) :=
          .act a event ha hasked
        exact ⟨.single (.proceed hstep fun _ h => h), fun _ => id⟩ }
  refine ⟨hmoves.carries_direct.prepare, hmoves.carries_direct.accept, ?_⟩
  rintro _ v s p r rfl hended
  refine ⟨?_, fun _ => id⟩
  let running := (s.assembly.withRounds rounds).running x.proposer.uuid (x.number n) p r
  have hstep : Step view quorum size (x.host (s.setAssembly running) service task)
      ((x.host (s.setAssembly running) service task).setNode x.node
        ⟨service.withProposer x.proposer, ((s.learner x.node).record r.slot v).2⟩) :=
    .notify x.node (x.number n) (x.nodes_host ..) (Assembly.rounds_running ..) hended
  have hheard : (x.host (s.setAssembly running) service task).setNode x.node
        ⟨service.withProposer x.proposer, ((s.learner x.node).record r.slot v).2⟩ =
      x.host (((x.direct view size).notify r.slot v s).setAssembly running) service task := by
    simp only [host, direct, setNode, setPut, setQuery, setAssembly, learner, Function.update_idem,
      Function.update_self, Option.map_some, Option.getD_some]
  rw [hheard] at hstep
  exact .single hstep

end Surroundings

/-- A learner that is reached at once. -/
def ask (x : Seat) : CommitService.Lookup (Ledger σ) := fun slot s =>
  (.ok ((s.learner x.node).get? slot), s)

theorem tells_ask [RecordStore σ] (view : StoreView σ) (quorum : Quorum) (size : Nat) (x : Seat) :
    x.Tells view quorum size (id : Ledger σ → Ledger σ) x.ask where
  reaches _ _ _ _ _ _ := .refl
  said _ _ := .inl rfl

end Seat
end Ledger
end Synod
