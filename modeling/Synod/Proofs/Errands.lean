import Synod.Proofs.FirstCommit
import Synod.Proofs.Puts

/-!
# Errands as services run them

`CommitService` answers puts, gets and lookups of several commits, given what they go to. If all that
happens there on the way are steps of a ledger, then so is the errand as a whole, and its answer is one
of the answers of the ledger. So what holds of ledgers holds of the services that run: for every start
timestamp there is one commit timestamp that all their answers go by, ever.
-/
namespace Synod

namespace CommitService
variable {ω : Type} {lookup : Lookup ω} {start : UInt64} {w w' : ω} {s s' : CommitService}
  {answer : Except Failure (Option UInt64)}

/-- What a get answers does not depend on the proposer. -/
lemma get_withProposer (h : s.get lookup start w = (answer, s', w')) (p : Proposer) :
    (s.withProposer p).get lookup start w = (answer, s'.withProposer p, w') := by
  unfold get at h ⊢
  have hcommits : (s.withProposer p).commits = s.commits := rfl
  rw [hcommits]
  split at h
  · cases h
    rfl
  · rcases hl : lookup ⟨start⟩ w with ⟨e | _ | v, w₁⟩ <;> simp only [hl] at h ⊢
    · cases h
      rfl
    · cases h
      rfl
    · cases hd : decode ⟨start⟩ v.payload <;> simp only [hd] at h ⊢ <;> cases h
      · rfl
      · rw [remember_withProposer]

lemma proposer_get (h : s.get lookup start w = (answer, s', w')) : s'.proposer = s.proposer := by
  have hsame := get_withProposer h s.proposer
  have hself : s.withProposer s.proposer = s := rfl
  rw [hself, h] at hsame
  exact congrArg (·.2.1.proposer) hsame

/-- A get asks for one thing at most, so that it does not matter what else could be heard. -/
lemma get_of_heard {ω' : Type} {lookup' : Lookup ω'} {v : ω'}
    (h : s.get lookup start w = (answer, s', w')) (hheld : s.commits.get? ⟨start⟩ = none)
    (hsame : lookup' ⟨start⟩ v = ((lookup ⟨start⟩ w).1, v)) :
    s.get lookup' start v = (answer, s', v) ∧ w' = (lookup ⟨start⟩ w).2 := by
  unfold get at h ⊢
  simp only [hheld, hsame] at h ⊢
  rcases hl : lookup ⟨start⟩ w with ⟨e | _ | found, w₂⟩ <;> simp only [hl] at h ⊢
  · cases h
    exact ⟨rfl, rfl⟩
  · cases h
    exact ⟨rfl, rfl⟩
  · cases hd : decode ⟨start⟩ found.payload <;> simp only [hd] at h ⊢ <;> cases h <;>
      exact ⟨rfl, rfl⟩

section Several
variable (h : s.get lookup start w = (answer, s', w'))
include h

lemma getManyInto_singleton (found : SlotMap UInt64) :
    s.getManyInto lookup [start] found w = (collect found [(start, answer)], s', w') := by
  rw [getManyInto, h]
  rcases answer with e | _ | commit <;> rfl

lemma getManyInto_cons {rest : List UInt64} {found : SlotMap UInt64} :
    s.getManyInto lookup (start :: rest) found w =
      match collect found [(start, answer)] with
      | .error e => (.error e, s', w')
      | .ok found => s'.getManyInto lookup rest found w' := by
  rw [getManyInto, h]
  rcases answer with e | _ | commit <;> rfl

end Several

/-- What a service answers an errand with. -/
def respond (s : CommitService) (w : ω) : Errand ω → Ledger.Answer × CommitService × ω
  | .get lookup start => (s.get lookup start w).map (.get start) id
  | .getMany lookup starts => (s.getMany lookup starts w).map .getMany id
  | .put t jitter start commit => (s.put t jitter start commit w).map (.put start commit) id

end CommitService

namespace Ledger

namespace Seat
variable {σ ω : Type} [RecordStore σ] {view : StoreView σ} {quorum : Quorum} {size : Nat} {x : Seat}
  {rounds : Nat → Option Round} {service service' : CommitService} {start : UInt64}
  {shows : ω → Ledger σ} {lookup : CommitService.Lookup ω}

/-! ### Gets -/

/-- What a lookup tells can be heard in the ledger that is shown after it. -/
lemma Tells.hears (ht : x.Tells view quorum size shows lookup) (service : CommitService) (slot : Slot)
    (w : ω) :
    ∃ heard : Lookup, Node.Hears ⟨service, (shows (lookup slot w).2).learner x.node⟩ heard ∧
      heard slot () = ((lookup slot w).1, ()) := by
  rcases ht.said slot w with hsaid | ⟨cause, hlost⟩
  · exact ⟨fun slot' _ => (.ok (((shows (lookup slot w).2).learner x.node).get? slot'), ()),
      fun _ _ => .inl rfl, Prod.ext hsaid.symm rfl⟩
  · exact ⟨fun _ _ => (.error (.transport cause), ()), fun _ _ => .inr ⟨cause, rfl⟩,
      Prod.ext hlost.symm rfl⟩

/-- A get hears what the node's learner has heard by then, if it hears anything. -/
lemma hears_of_get (ht : x.Tells view quorum size shows lookup) (hown : x.Own rounds) {w w' : ω}
    {answer : Except Failure (Option UInt64)}
    (h : service.get lookup start w = (answer, service', w')) (task : Task) :
    Reaches view quorum size (x.present (shows w) rounds service task)
        (x.present (shows w') rounds service task) ∧
      ∃ heard : Lookup, Node.Hears ⟨service.withProposer x.proposer, (shows w').learner x.node⟩ heard ∧
        (service.withProposer x.proposer).get heard start () =
          (answer, service'.withProposer x.proposer, ()) := by
  cases hheld : service.commits.get? ⟨start⟩ with
  | some commit =>
    rw [CommitService.get_of_held hheld, Prod.mk.injEq, Prod.mk.injEq] at h
    obtain ⟨rfl, rfl, rfl⟩ := h
    -- nobody is asked, so that it does not matter what could be heard
    refine ⟨.refl, fun _ _ => (.error (.transport .learnerDown), ()), fun _ _ => .inr ⟨_, rfl⟩, ?_⟩
    exact CommitService.get_withProposer (CommitService.get_of_held hheld _ ()) x.proposer
  | none =>
    obtain ⟨heard, hhears, hsame⟩ := ht.hears (service.withProposer x.proposer) ⟨start⟩ w
    obtain ⟨hgot, rfl⟩ := CommitService.get_of_heard h hheld hsame
    exact ⟨ht.reaches _ _ _ _ _ hown, heard, hhears, CommitService.get_withProposer hgot _⟩

/-- A get that a service runs is a get of the ledger. -/
theorem get_reaches (ht : x.Tells view quorum size shows lookup) (hown : x.Own rounds) {w w' : ω}
    {answer : Except Failure (Option UInt64)}
    (h : service.get lookup start w = (answer, service', w')) :
    Reaches view quorum size (x.present (shows w) rounds service .idle)
      ((x.present (shows w') rounds service' .idle).answer (.get start answer)) := by
  obtain ⟨hreaches, heard, hhears, hgot⟩ := hears_of_get ht hown h .idle
  have hstep : Step view quorum size (x.present (shows w') rounds service .idle) _ :=
    .get x.node start heard (x.nodes_present ..) hhears hgot
  dsimp only at hstep
  rw [x.setNode_present _ rounds service _ (CommitService.proposer_get h)] at hstep
  exact hreaches.tail hstep

/-- A lookup of several commits of the seat that has come so far. -/
def looking (x : Seat) (starts : List UInt64) (found : SlotMap UInt64) : Task :=
  .query ⟨x.node, starts, found⟩

section Queries
variable {e : Ledger σ} {starts rest : List UInt64} {found found' : SlotMap UInt64} {heard : Lookup}

lemma reaches_callGetMany (starts : List UInt64) :
    Reaches view quorum size (x.present e rounds service .idle)
      (x.present e rounds service (x.looking starts ∅)) := by
  have hstep : Step view quorum size (x.present e rounds service .idle) _ :=
    .callGetMany x.call x.node starts (x.queries_present ..) (x.nodes_present ..)
  rw [← x.setQuery_present e rounds service .idle (x.looking starts ∅) rfl]
  exact .single hstep

omit [RecordStore σ] in
/-- A lookup of several commits that is over. -/
lemma setQuery_idle :
    (x.present e rounds service (x.looking starts found)).setQuery x.call none =
      x.present e rounds service .idle :=
  x.setQuery_present e rounds service (x.looking starts found) .idle rfl

/-- All are looked up. -/
lemma reaches_found : Reaches view quorum size (x.present e rounds service (x.looking [] found))
    ((x.present e rounds service .idle).answer (.getMany (.ok found))) := by
  have hstep : Step view quorum size (x.present e rounds service (x.looking [] found)) _ :=
    .found x.call (x.queries_present ..) rfl
  rw [setQuery_idle] at hstep
  exact .single hstep

variable (hhears : Node.Hears ⟨service.withProposer x.proposer, e.learner x.node⟩ heard)
  (hsame : service'.proposer = service.proposer)
include hhears hsame

/-- The next one is looked up. -/
lemma reaches_look (hgot : (service.withProposer x.proposer).getManyInto heard [start] found () =
      (.ok found', service'.withProposer x.proposer, ())) :
    Reaches view quorum size (x.present e rounds service (x.looking (start :: rest) found))
      (x.present e rounds service' (x.looking rest found')) := by
  have hstep : Step view quorum size
      (x.present e rounds service (x.looking (start :: rest) found)) _ :=
    .look x.call heard (x.queries_present ..) (List.singleton_append ..).symm (x.nodes_present ..)
      hhears hgot
  dsimp only at hstep
  rw [x.setNode_present e rounds service _ hsame] at hstep
  rw [← x.setQuery_present e rounds service' (x.looking (start :: rest) found)
    (x.looking rest found') rfl]
  exact .single hstep

/-- The next one cannot be looked up. -/
lemma reaches_lookFail {failure : Failure}
    (hgot : (service.withProposer x.proposer).getManyInto heard [start] found () =
      (.error failure, service'.withProposer x.proposer, ())) :
    Reaches view quorum size (x.present e rounds service (x.looking (start :: rest) found))
      ((x.present e rounds service' .idle).answer (.getMany (.error failure))) := by
  have hstep : Step view quorum size
      (x.present e rounds service (x.looking (start :: rest) found)) _ :=
    .lookFail x.call heard (x.queries_present ..) (List.singleton_append ..).symm (x.nodes_present ..)
      hhears hgot
  dsimp only at hstep
  rw [x.setNode_present e rounds service _ hsame, setQuery_idle] at hstep
  exact .single hstep

end Queries

/-- The timestamps that are left are looked up one by one: induction on them. -/
lemma reaches_getMany (ht : x.Tells view quorum size shows lookup) (hown : x.Own rounds)
    {starts : List UInt64} {found : SlotMap UInt64} {w w' : ω}
    {answer : Except Failure (SlotMap UInt64)}
    (h : service.getManyInto lookup starts found w = (answer, service', w')) :
    Reaches view quorum size (x.present (shows w) rounds service (x.looking starts found))
      ((x.present (shows w') rounds service' .idle).answer (.getMany answer)) := by
  induction starts generalizing found service w with
  | nil =>
    cases h
    exact reaches_found
  | cons start rest ih =>
    rcases hget : service.get lookup start w with ⟨got, service₁, w₁⟩
    obtain ⟨hreaches, heard, hhears, hgot⟩ :=
      hears_of_get ht hown hget (x.looking (start :: rest) found)
    have hsame := CommitService.proposer_get hget
    have hone := CommitService.getManyInto_singleton hgot found
    rw [CommitService.getManyInto_cons hget] at h
    cases hfound : CommitService.collect found [(start, got)] with
    | error e =>
      rw [hfound] at h hone
      cases h
      exact hreaches.trans (reaches_lookFail hhears hsame hone)
    | ok found' =>
      rw [hfound] at h hone
      exact (hreaches.trans (reaches_look hhears hsame hone)).trans (ih h)

/-- A lookup of several commits that a service runs is one of the ledger. -/
theorem getMany_reaches (ht : x.Tells view quorum size shows lookup) (hown : x.Own rounds)
    {starts : List UInt64} {w w' : ω} {answer : Except Failure (SlotMap UInt64)}
    (h : service.getMany lookup starts w = (answer, service', w')) :
    Reaches view quorum size (x.present (shows w) rounds service .idle)
      ((x.present (shows w') rounds service' .idle).answer (.getMany answer)) :=
  (reaches_callGetMany starts).trans (reaches_getMany ht hown h)

/-! ### Errands -/

/-- What an errand goes to works by steps of the ledger shown. -/
def Serves (view : StoreView σ) (quorum : Quorum) (size : Nat) (x : Seat) (shows : ω → Ledger σ) :
    CommitService.Errand ω → Prop
  | .get lookup _ => x.Tells view quorum size shows lookup
  | .getMany lookup _ => x.Tells view quorum size shows lookup
  | .put t _ _ _ => x.Conveys view quorum size shows t

/-- The ledger after an errand, by what came of it and the rounds that it took. -/
def after (x : Seat) (shows : ω → Ledger σ) (rounds : Nat → Option Round)
    (r : Answer × CommitService × ω) : Ledger σ :=
  (x.present (shows r.2.2) rounds r.2.1 .idle).answer r.1

/-- An errand that a service runs is one of the ledger, and its answer is an answer there. -/
theorem respond_reaches {errand : CommitService.Errand ω}
    (hserves : x.Serves view quorum size shows errand) {w : ω}
    (hunused : ∀ n, (shows w).assembly.rounds (x.number n) = none) :
    ∃ rounds, Reaches view quorum size (x.present (shows w) (fun _ => none) service .idle)
      (x.after shows rounds (service.respond w errand)) := by
  cases errand with
  | get lookup start => exact ⟨_, get_reaches hserves x.own_none rfl⟩
  | getMany lookup starts => exact ⟨_, getMany_reaches hserves x.own_none rfl⟩
  | put t jitter start commit => exact put_reaches hserves hunused rfl

end Seat

/-- Every start timestamp has one commit timestamp that all answers go by, whatever node gave them
and whatever was lost, retried or restarted in between. The answers are those of services: what a
service does for an errand, from a seat in the ledger, brings the ledger to one that has its answer. -/
theorem first_commit_wins {σ : Type} [RecordStore σ] {view : StoreView σ} {quorum : Quorum}
    {size : Nat} {s : Ledger σ} (h : Reachable view quorum size s) :
    (∃ commitOf : UInt64 → UInt64,
      ∀ a ∈ s.answers, a.Truthful fun start commit => commit = commitOf start) ∧
    ∀ (ω : Type) (x : Seat) (shows : ω → Ledger σ) (service : CommitService) (w : ω)
      (errand : CommitService.Errand ω), x.Serves view quorum size shows errand →
      s = x.present (shows w) (fun _ => none) service .idle →
      (∀ n, s.assembly.rounds (x.number n) = none) →
      ∃ rounds, Reaches view quorum size s (x.after shows rounds (service.respond w errand)) := by
  refine ⟨h.sound.exists_commitOf, ?_⟩
  rintro ω x shows service w errand hserves rfl hunused
  exact Seat.respond_reaches hserves hunused

/-- One node commits, everything is restarted, and another node finds out when it tries to. Later its
service is asked for one more put, and answers the same. -/
theorem first_commit_wins_restarted :
    ∃ s t : Ledger MemoryStore, Reachable MemoryStore.view Quorum.single 1 s ∧
      s.answers = [.get 10 (.ok (some 11)),
        .put 10 12 (.error (.failure (.keyAlreadyExists 10 11))), .put 10 11 (.ok ())] ∧
      (∃ commitOf : UInt64 → UInt64,
        ∀ a ∈ s.answers, a.Truthful fun start commit => commit = commitOf start) ∧
      Reaches MemoryStore.view Quorum.single 1 s t ∧
      .put 10 13 (.error (.failure (.keyAlreadyExists 10 11))) ∈ t.answers := by
  let slot : Slot := ⟨10⟩
  let v : ProposalValue := ⟨⟨0, "a"⟩, slot, CommitService.encode 11⟩
  let w : ProposalValue := ⟨⟨0, "b"⟩, slot, CommitService.encode 11⟩
  have init : Relation.ReflTransGen (Step MemoryStore.view Quorum.single 1)
      (init fun _ => MemoryStore.empty) _ := .refl
  have a₁ := init.tail (.boot 0 "a" 0 .default rfl rfl rfl)
  have a₂ := a₁.tail (.callPut 0 0 10 11 rfl rfl)
  have a₃ := a₂.tail (.attempt 0 0 rfl rfl rfl rfl rfl rfl)
  have a₄ := a₃.tail (.proceed (.act 0 (.request (.prepare slot v.id)) (by decide) Assembly.asked_request)
    fun _ h => h)
  have a₅ := a₄.tail (.proceed (.hearPromise 0 0 (some (.give v.id none)) rfl rfl rfl (by decide)
    (by decide) fun p hp => by cases hp; decide) (Assembly.quiet_setRound rfl))
  have a₆ := a₅.tail (.proceed (.offer 0 rfl rfl rfl (.inl (by decide)) rfl)
    (Assembly.quiet_setRound rfl))
  have a₇ := a₆.tail (.proceed (.act 0 (.request (.accept slot v)) (by decide) Assembly.asked_request)
    fun _ h => h)
  have a₈ := a₇.tail (.proceed (.hearAcceptance 0 0 (some ⟨true, v.id⟩) rfl rfl rfl (by decide)
    (by decide) fun x hx => by cases hx; decide) (Assembly.quiet_setRound rfl))
  have a₉ := a₈.tail (.proceed (.finish 0 rfl rfl rfl (.inl (by decide)) rfl)
    (Assembly.quiet_setRound rfl))
  have a := a₉.tail (.settle 0 rfl rfl rfl rfl rfl (CommitService.settle_encode _ 10 11 11))
  have b₁ := a.tail (.halt 0 rfl)
  have b₂ := b₁.tail (.proceed (.act 0 .restart (by decide) nofun) fun _ h => h)
  have b₃ := b₂.tail (.boot 0 "b" 0 .default rfl rfl rfl)
  have b₄ := b₃.tail (.callPut 0 0 10 12 rfl rfl)
  have b₅ := b₄.tail (.attempt 0 1 rfl rfl rfl rfl rfl rfl)
  have b₆ := b₅.tail (.proceed (.act 0 (.request (.prepare slot w.id)) (by decide) Assembly.asked_request)
    fun _ h => h)
  have b₇ := b₆.tail (.proceed (.hearPromise 1 0 (some (.give w.id (some v))) rfl rfl rfl
    (by decide) (by decide) fun p hp => by cases hp; decide) (Assembly.quiet_setRound rfl))
  have b₈ := b₇.tail (.proceed (.offer 1 rfl rfl rfl (.inl (by decide)) rfl)
    (Assembly.quiet_setRound rfl))
  have b₉ := b₈.tail (.proceed (.act 0 (.request (.accept slot w)) (by decide) Assembly.asked_request)
    fun _ h => h)
  have c₁ := b₉.tail (.proceed (.hearAcceptance 1 0 (some ⟨true, w.id⟩) rfl rfl rfl (by decide)
    (by decide) fun x hx => by cases hx; decide) (Assembly.quiet_setRound rfl))
  have c₂ := c₁.tail (.proceed (.finish 1 rfl rfl rfl (.inl (by decide)) rfl)
    (Assembly.quiet_setRound rfl))
  have c₃ := c₂.tail (.settle 0 rfl rfl rfl rfl rfl (CommitService.settle_encode _ 10 12 11))
  have c₄ := c₃.tail (.get 0 10 (fun _ _ => (.error (.transport .learnerDown), ())) rfl
    (fun _ _ => .inr ⟨_, rfl⟩) rfl)
  have hs : Reachable MemoryStore.view Quorum.single 1 _ := ⟨_, fun _ => rfl, c₄⟩
  let x : Seat := ⟨0, 0, ⟨"b", .single, 0⟩, fun n => n + 2, add_left_injective 2⟩
  let service : CommitService :=
    ((CommitService.new ⟨"b", .single, 0⟩ .default).remember 10 11).withProposer ⟨"b", .single, 1⟩
  let transport := x.direct MemoryStore.view 1
  obtain ⟨hall, hrun⟩ := first_commit_wins hs
  obtain ⟨rounds, ht⟩ := hrun _ x id service _ (.put transport .none 10 13)
    (x.conveys_direct MemoryStore.view .single 1) (x.present_self rfl rfl rfl rfl).symm fun _ => rfl
  have hput : ∀ w, (service.respond w (.put transport .none 10 13)).1 =
      .put 10 13 (service.put transport .none 10 13 w).1 := fun _ => rfl
  refine ⟨_, _, hs, rfl, hall, ht, List.mem_cons.mpr (.inl ?_)⟩
  rw [hput]
  exact congrArg (Answer.put 10 13) (by decide +kernel)

end Ledger
end Synod
