import Mathlib.Tactic.Choose
import Synod.Proofs.Candidacy
import Synod.Proofs.Sides

/-!
# Calls as tasks

A call whose transport, or whose surroundings, make do with deeds of one side makes do with them as
well. The proofs follow a call on its way: what is left of it, once the cluster has been brought so
far, is a task for each answer that was found, and in the end there is only an outcome. A loop is a
task by induction on its rounds.
-/
namespace Synod

/-- What is done to a cluster is done by deeds of one side. -/
def Side.Does (side : Side) {α : Type} (f : Cluster → α × Cluster) : Prop :=
  ∃ t : Task side α, ∀ c, f c = t.run c

/-- An outcome that comes with a state of the caller's own, both before the cluster. -/
def grouped {α τ : Type} (r : α × τ × Cluster) : (α × τ) × Cluster := ((r.1, r.2.1), r.2.2)

/-- What can be done within a call that has a state of its own. -/
def Side.Acts (side : Side) {α τ : Type} (f : Cluster → α × τ × Cluster) : Prop :=
  side.Does fun c => grouped (f c)

/-- Requests that are made, and whose answers are awaited, by deeds of one side. -/
def Side.Asks (side : Side) {α : Type}
    (f : Cluster → List (Cluster → Option α × Cluster) × Cluster) : Prop :=
  ∃ t : Task side (List (Task side (Option α))), ∀ c, f c = ((t.run c).1.map Task.run, (t.run c).2)

/-- What is left of a call is a task, where `reached c d` says that from `c` it has come to `d`. -/
def Side.Leaves (side : Side) {α : Type} (reached : Cluster → Cluster → Prop)
    (f : Cluster → α × Cluster) : Prop :=
  ∃ t : Task side α, ∀ c d, reached c d → f c = t.run d

namespace Side
variable {side : Side} {α β τ σ : Type}

namespace Does

lemma of_task (t : Task side α) : side.Does t.run := ⟨t, fun _ => rfl⟩

lemma pure (a : α) : side.Does fun c => (a, c) := of_task (.done a)

/-- A call of which all is left at its start. -/
lemma of_leaves {f : Cluster → α × Cluster} (h : side.Leaves Eq f) : side.Does f := by
  obtain ⟨t, ht⟩ := h
  exact ⟨t, fun c => ht c c rfl⟩

lemma congr {f g : Cluster → α × Cluster} (h : side.Does f) (hfg : ∀ c, g c = f c) : side.Does g := by
  obtain ⟨t, ht⟩ := h
  exact ⟨t, fun c => (hfg c).trans (ht c)⟩

lemma map {f : Cluster → α × Cluster} (hf : side.Does f) (g : α → β) :
    side.Does fun c => (g (f c).1, (f c).2) := by
  obtain ⟨t, ht⟩ := hf
  exact ⟨t.bind fun a => .done (g a), fun c => by rw [Task.run_bind, ← ht]; rfl⟩

lemma deed (d : Deed side) : side.Does d.run := of_task (.act d .done)

lemma ask (i : Nat) (r : Request) : side.Does (Cluster.ask side i r) := (deed (.ask i r)).map (·.call)

lemma tell (change : List Learner → List Learner) :
    side.Does fun c => (c.holdings side, c.tell side change) :=
  (deed (.tell change)).map (·.held)

lemma alter (i : Nat) (change : side.Part → side.Part) :
    side.Does fun c => ((), c.alter side i change) :=
  (deed (.alter i change)).map fun _ => ()

/-- To look is to tell the learners nothing. -/
lemma look : side.Does fun c => (c.holdings side, c) :=
  (tell id).congr fun c => by cases side <;> rfl

lemma see (g : Cluster.Holdings side → α) : side.Does fun c => (g (c.holdings side), c) := look.map g

end Does

namespace Leaves
variable {reached : Cluster → Cluster → Prop} {f : Cluster → α × Cluster}

/-- Nothing but an outcome is left. -/
lemma done (a : α) (h : ∀ c d, reached c d → f c = (a, d)) : side.Leaves reached f := ⟨.done a, h⟩

/-- Another call is left. -/
lemma call {g : Cluster → α × Cluster} (hg : side.Does g) (h : ∀ c d, reached c d → f c = g d) :
    side.Leaves reached f := by
  obtain ⟨t, ht⟩ := hg
  exact ⟨t, fun c d hd => (h c d hd).trans (ht d)⟩

/-- Something is done, and whatever is found out by that, a task is left. -/
theorem after {g : Cluster → β × Cluster} (hg : side.Does g)
    (h : ∀ b, side.Leaves (fun c e => ∃ d, reached c d ∧ g d = (b, e)) f) :
    side.Leaves reached f := by
  obtain ⟨t, ht⟩ := hg
  choose u hu using h
  refine ⟨t.bind u, fun c d hd => ?_⟩
  rw [Task.run_bind, ← ht]
  exact hu _ c _ ⟨d, hd, rfl⟩

/-- Something is done that changes the caller's own state. -/
lemma following {g : Cluster → β × σ × Cluster} (hg : side.Acts g)
    (h : ∀ b s, side.Leaves (fun c e => ∃ d, reached c d ∧ g d = (b, s, e)) f) :
    side.Leaves reached f := by
  refine after hg fun r => ?_
  obtain ⟨t, ht⟩ := h r.1 r.2
  refine ⟨t, ?_⟩
  rintro c e ⟨d, hd, hr⟩
  refine ht c e ⟨d, hd, ?_⟩
  rcases hgd : g d with ⟨b, s, e'⟩
  rw [hgd] at hr
  cases hr
  rfl

/-- Requests are made, and whatever answers they promise, a task is left. -/
lemma asking {g : Cluster → List (Cluster → Option β × Cluster) × Cluster} (hg : side.Asks g)
    (h : ∀ awaits : List (Task side (Option β)),
      side.Leaves (fun c e => ∃ d, reached c d ∧ g d = (awaits.map Task.run, e)) f) :
    side.Leaves reached f := by
  obtain ⟨t, ht⟩ := hg
  refine after (.of_task t) fun awaits => ?_
  obtain ⟨u, hu⟩ := h awaits
  refine ⟨u, ?_⟩
  rintro c e ⟨d, hd, hrun⟩
  refine hu c e ⟨d, hd, ?_⟩
  rw [ht, hrun]

section
variable {f : Cluster → α × τ × Cluster}

/-- Nothing but an outcome and the caller's own state is left. -/
lemma ends (a : α) (s : τ) (h : ∀ c d, reached c d → f c = (a, s, d)) :
    side.Leaves reached fun c => grouped (f c) :=
  ⟨.done (a, s), fun c d hd => congrArg grouped (h c d hd)⟩

/-- Another call that has a state of its own is left. -/
lemma handsOn {g : Cluster → α × τ × Cluster} (hg : side.Acts g)
    (h : ∀ c d, reached c d → f c = g d) : side.Leaves reached fun c => grouped (f c) :=
  .call hg fun c d hd => congrArg grouped (h c d hd)

end

end Leaves

namespace Acts

lemma of_leaves {f : Cluster → α × τ × Cluster} (h : side.Leaves Eq fun c => grouped (f c)) :
    side.Acts f := Does.of_leaves h

lemma pure (a : α) (s : τ) : side.Acts fun c => (a, s, c) := Does.pure (a, s)

end Acts
end Side

variable {side : Side} {α τ : Type}

/-! ### Rounds -/

/-- A transport that makes do with deeds of one side. -/
structure Transport.Of (t : Transport Cluster) (side : Side) : Prop where
  prepare : ∀ slot id, side.Asks (t.prepare slot id)
  accept : ∀ slot value, side.Asks (t.accept slot value)
  notify : ∀ slot value, side.Does fun c => ((), t.notify slot value c)

/-- Induction on the answers. -/
lemma Tally.does_gather (agrees : α → Bool) (total required : Nat) (tally : Tally α)
    (answers : List (Task side (Option α))) :
    side.Does fun c => gather agrees total required tally c (answers.map Task.run) := by
  induction answers generalizing tally with
  | nil => exact .pure tally
  | cons await rest ih =>
    simp only [List.map_cons, gather]
    split
    · refine .of_leaves (.after (.of_task await) fun answer => .call (ih (tally.add agrees answer)) ?_)
      rintro c d ⟨_, rfl, hawait⟩
      rw [hawait]
    · exact .pure tally

namespace Proposer
variable {t : Transport Cluster}

lemma acts_acceptPhase (ht : t.Of side) (slot : Slot) (value : ProposalValue) (p : Proposer) :
    side.Acts (p.acceptPhase t slot value) := by
  refine .of_leaves (.asking (ht.accept slot value) fun awaits =>
    .after (Tally.does_gather (·.accepted) p.quorum.acceptors.toNat p.quorum.accept.toNat .empty
      awaits) fun tally => ?_)
  rcases hafter : p.afterAccept slot value tally with ⟨e | chosen, q⟩
  · refine .ends (.error e) q ?_
    rintro c d ⟨_, ⟨_, rfl, hasked⟩, htally⟩
    simp only [acceptPhase, hasked, htally, hafter]
  · refine .after (ht.notify slot chosen) fun _ => .ends (.ok chosen) q ?_
    rintro c d ⟨_, ⟨_, ⟨_, rfl, hasked⟩, htally⟩, hnotified⟩
    cases hnotified
    simp only [acceptPhase, hasked, htally, hafter]

theorem acts_propose (ht : t.Of side) (slot : Slot) (own : Payload) (p : Proposer) :
    side.Acts (p.propose t slot own) := by
  rcases hid : p.nextId with e | ⟨id, q⟩
  · refine .of_leaves (.ends (.error e) p ?_)
    rintro c _ rfl
    simp only [propose, hid]
  refine .of_leaves (.asking (ht.prepare slot id) fun awaits =>
    .after (Tally.does_gather (·.accepted) q.quorum.acceptors.toNat q.quorum.prepare.toNat .empty
      awaits) fun tally => ?_)
  rcases hafter : q.afterPrepare slot id own tally with ⟨e | value, p'⟩
  · refine .ends (.error e) p' ?_
    rintro c d ⟨_, ⟨_, rfl, hasked⟩, htally⟩
    simp only [propose, hid, hasked, htally, hafter]
  · refine .handsOn (acts_acceptPhase ht slot value p') ?_
    rintro c d ⟨_, ⟨_, rfl, hasked⟩, htally⟩
    simp only [propose, hid, hasked, htally, hafter]

end Proposer

/-! ### Retries -/

namespace RetryPolicy

section
variable {σ : Type} (p : RetryPolicy) (jitter : Jitter) (attempt : σ → Except Fault α × σ)

/-- What follows an attempt that came to an outcome: others, if that was a failed round. -/
def goOn (left made : Nat) (pauses : List UInt64) : Except Fault α → σ → Retried σ α
  | .error (.failure (.roundFailure slot phase accepted required)), s =>
    p.runAfter jitter attempt left made (.roundFailure slot phase accepted required) pauses s
  | outcome, s => ⟨outcome, s, made, pauses⟩

lemma run_eq_goOn (s : σ) : p.run jitter attempt s =
    p.goOn jitter attempt (p.budget - 1) 1 [] (attempt s).1 (attempt s).2 := by
  unfold run
  rcases attempt s with ⟨(e | o) | a, t⟩
  · cases e <;> rfl
  · rfl
  · rfl

lemma runAfter_eq_goOn {pause : UInt64} {made : Nat} (h : p.backoff jitter (made - 1) = .ok pause)
    (left : Nat) (last : Failure) (pauses : List UInt64) (s : σ) :
    p.runAfter jitter attempt (left + 1) made last pauses s =
      p.goOn jitter attempt left (made + 1) (pauses ++ [pause]) (attempt s).1 (attempt s).2 := by
  simp only [runAfter, h]
  rcases attempt s with ⟨(e | o) | a, t⟩
  · cases e <;> rfl
  · rfl
  · rfl

end

variable {attempt : τ × Cluster → Except Fault α × τ × Cluster}

/-- What a run of attempts comes to. -/
def ending (r : Retried (τ × Cluster) α) : Except Fault α × τ × Cluster := (r.outcome, r.state)

lemma acts_goOn {p : RetryPolicy} {jitter : Jitter} (left made : Nat) (pauses : List UInt64)
    (h : ∀ last s, side.Acts fun c =>
      ending (p.runAfter jitter attempt left made last pauses (s, c)))
    (outcome : Except Fault α) (s : τ) :
    side.Acts fun c => ending (p.goOn jitter attempt left made pauses outcome (s, c)) := by
  rcases outcome with (e | o) | a
  · cases e with
    | roundFailure => exact h _ s
    | _ => exact .pure _ s
  · exact .pure _ s
  · exact .pure _ s

/-- Induction on the attempts that remain. -/
lemma acts_runAfter (h : ∀ s, side.Acts fun c => attempt (s, c)) (p : RetryPolicy) (jitter : Jitter)
    (left made : Nat) (last : Failure) (pauses : List UInt64) (s : τ) :
    side.Acts fun c => ending (p.runAfter jitter attempt left made last pauses (s, c)) := by
  induction left generalizing made last pauses s with
  | zero => exact .pure _ s
  | succ left ih =>
    cases hpause : p.backoff jitter (made - 1) with
    | error o =>
      refine .of_leaves (.ends (.error (.overflow o)) s ?_)
      rintro c _ rfl
      simp only [runAfter, hpause, ending]
    | ok pause =>
      refine .of_leaves (.following (h s) fun outcome s' =>
        .handsOn
          (acts_goOn left (made + 1) (pauses ++ [pause]) (fun last => ih _ last _) outcome s') ?_)
      rintro c d ⟨_, rfl, hattempt⟩
      rw [runAfter_eq_goOn p jitter attempt hpause, hattempt]

theorem acts_run (h : ∀ s, side.Acts fun c => attempt (s, c)) (p : RetryPolicy) (jitter : Jitter)
    (s : τ) : side.Acts fun c => ending (p.run jitter attempt (s, c)) := by
  refine .of_leaves (.following (h s) fun outcome s' =>
    .handsOn (acts_goOn (p.budget - 1) 1 []
      (fun last => acts_runAfter h p jitter _ _ last _) outcome s') ?_)
  rintro c d ⟨_, rfl, hattempt⟩
  rw [run_eq_goOn, hattempt]

end RetryPolicy

/-! ### Leadership -/

/-- Surroundings in which nothing but deeds of one side happens. -/
structure Surroundings.Of {π : Type} (r : Surroundings π Cluster) (side : Side) : Prop where
  transport : r.transport.Of side
  learner : side.Does fun c => (r.learner c, c)
  record : ∀ slot value, side.Does (r.record slot value)
  ping : ∀ address, side.Does (r.ping address)
  identify : ∀ address, side.Does (r.identify address)

/-- Induction on the peers: the answer of one, and the list of the others, decide what is kept. -/
lemma Peer.acts_refresh {π : Type} {identify : π → Cluster → Option String × Cluster}
    (h : ∀ address, side.Does (identify address)) (index : Nat) (peers : List (Peer π)) :
    side.Acts (Peer.refresh identify index peers) := by
  induction peers generalizing index with
  | nil => exact .pure _ _
  | cons peer rest ih =>
    refine .of_leaves (.after (h peer.address) fun answer =>
      .following (ih (index + 1)) fun restarted rest' => ?_)
    cases answer with
    | none =>
      refine .ends restarted (peer :: rest') ?_
      rintro c d ⟨_, ⟨_, rfl, hanswer⟩, hrest⟩
      simp only [refresh, hanswer, hrest]
    | some uuid =>
      refine .ends (if peer.uuid.isSome ∧ peer.uuid ≠ some uuid then index :: restarted else restarted)
        ({ peer with uuid := some uuid } :: rest') ?_
      rintro c d ⟨_, ⟨_, rfl, hanswer⟩, hrest⟩
      simp only [refresh, hanswer, hrest]

namespace Candidate
variable {π : Type} {r : Surroundings π Cluster}

lemma acts_refresh (h : r.Of side) (candidate : Candidate π) : side.Acts (candidate.refresh r) := by
  refine .of_leaves (.following (Peer.acts_refresh h.identify 0 candidate.peers) fun restarted peers =>
    .ends restarted { candidate with peers } ?_)
  rintro c d ⟨_, rfl, hrefreshed⟩
  simp only [refresh, hrefreshed]

lemma acts_locate (h : r.Of side) (uuid : String) (candidate : Candidate π) :
    side.Acts (candidate.locate r uuid) := by
  cases hnamed : candidate.peerNamed? uuid with
  | some address =>
    refine .of_leaves (.ends (some address) candidate ?_)
    rintro c _ rfl
    simp only [locate, hnamed]
  | none =>
    refine .of_leaves (.following (acts_refresh h candidate) fun _ candidate' =>
      .ends (candidate'.peerNamed? uuid) candidate' ?_)
    rintro c d ⟨_, rfl, hrefreshed⟩
    simp only [locate, hnamed, hrefreshed]

lemma acts_leaderIsAlive (h : r.Of side) (uuid : String) (candidate : Candidate π) :
    side.Acts (candidate.leaderIsAlive r uuid) := by
  refine .of_leaves (.following (acts_locate h uuid candidate) fun found candidate' => ?_)
  cases found with
  | none =>
    refine .ends false candidate' ?_
    rintro c d ⟨_, rfl, hlocated⟩
    simp only [leaderIsAlive, hlocated]
  | some address =>
    refine .after (h.ping address) fun answer => .ends (answer.getD false) candidate' ?_
    rintro c d ⟨_, ⟨_, rfl, hlocated⟩, hpinged⟩
    simp only [leaderIsAlive, hlocated, hpinged]

lemma acts_hail (h : r.Of side) (known : Option (Slot × String)) (candidate : Candidate π) :
    side.Acts (candidate.hail r known) := by
  rcases known with _ | ⟨_, leader⟩
  · exact .pure _ _
  · exact acts_leaderIsAlive h leader candidate

lemma acts_course (h : r.Of side) (candidate : Candidate π) : side.Acts (candidate.course r) := by
  refine .of_leaves (.after h.learner fun l => ?_)
  rcases hleader : candidate.isLeader l with ⟨_ | _, candidate'⟩
  · refine .following (acts_hail h l.leader? candidate') fun alive candidate'' => ?_
    rcases hweighed : candidate''.weigh l.leader? alive with ⟨course, candidate⟩
    refine .ends course candidate ?_
    rintro c d ⟨_, ⟨_, rfl, hlearner⟩, hhailed⟩
    cases hlearner
    simp only [course_eq, hleader, hhailed, hweighed]
  · refine .ends (.ok (.settled .leading)) (candidate'.setState .leading) ?_
    rintro c d ⟨_, rfl, hlearner⟩
    cases hlearner
    simp only [course_eq, hleader]

lemma acts_stand (h : r.Of side) (generation : Slot) (candidate : Candidate π) :
    side.Acts (candidate.stand r generation) := by
  refine .of_leaves (.following (candidate.proposer.acts_propose h.transport generation
    (Text.toBytes candidate.uuid)) fun outcome proposer => ?_)
  cases outcome with
  | error e =>
    refine .ends (.error (.failure e)) (setState { candidate with proposer } .notLeading) ?_
    rintro c d ⟨_, rfl, hproposed⟩
    simp only [stand_eq, hproposed]
  | ok chosen =>
    refine .after (h.record generation chosen) fun recorded => ?_
    rcases hconcluded : conclude chosen recorded { candidate with proposer } with
      ⟨outcome, candidate'⟩
    refine .ends outcome candidate' ?_
    rintro c d ⟨_, ⟨_, rfl, hproposed⟩, hrecorded⟩
    simp only [stand_eq, hproposed, hrecorded, hconcluded]

/-- One attempt to become leader. -/
theorem acts_tryAcquire (h : r.Of side) (candidate : Candidate π) :
    side.Acts (candidate.tryAcquire r) := by
  refine .of_leaves (.following (acts_course h candidate) fun course candidate' => ?_)
  rcases course with e | state | generation
  · refine .ends (.error e) candidate' ?_
    rintro c d ⟨_, rfl, hcourse⟩
    simp only [tryAcquire, hcourse]
  · refine .ends (.ok state) candidate' ?_
    rintro c d ⟨_, rfl, hcourse⟩
    simp only [tryAcquire, hcourse]
  · refine .handsOn (acts_stand h generation candidate') ?_
    rintro c d ⟨_, rfl, hcourse⟩
    simp only [tryAcquire, hcourse]

theorem acts_acquire (h : r.Of side) (policy : RetryPolicy) (jitter : Jitter)
    (candidate : Candidate π) :
    side.Acts fun c => RetryPolicy.ending (candidate.acquire r policy jitter c) :=
  policy.acts_run (acts_tryAcquire h) jitter candidate

end Candidate

/-! ### Commits -/

namespace CommitService

lemma acts_get {lookup : Slot → Cluster → Except Failure (Option ProposalValue) × Cluster}
    (h : ∀ slot, side.Does (lookup slot)) (start : UInt64) (service : CommitService) :
    side.Acts (service.get lookup start) := by
  cases hknown : service.commits.get? ⟨start⟩ with
  | some commit =>
    refine .of_leaves (.ends (.ok (some commit)) service ?_)
    rintro c _ rfl
    simp only [get, hknown]
  | none =>
    refine .of_leaves (.after (h ⟨start⟩) fun found => ?_)
    rcases found with e | _ | value
    · refine .ends (.error e) service ?_
      rintro c d ⟨_, rfl, hfound⟩
      simp only [get, hknown, hfound]
    · refine .ends (.ok none) service ?_
      rintro c d ⟨_, rfl, hfound⟩
      simp only [get, hknown, hfound]
    · cases hdecode : decode ⟨start⟩ value.payload with
      | error e =>
        refine .ends (.error e) service ?_
        rintro c d ⟨_, rfl, hfound⟩
        simp only [get, hknown, hfound, hdecode]
      | ok commit =>
        refine .ends (.ok (some commit)) (service.remember start commit) ?_
        rintro c d ⟨_, rfl, hfound⟩
        simp only [get, hknown, hfound, hdecode]

/-- Induction on the timestamps asked for. -/
lemma acts_getManyInto {lookup : Slot → Cluster → Except Failure (Option ProposalValue) × Cluster}
    (h : ∀ slot, side.Does (lookup slot)) (starts : List UInt64) (found : SlotMap UInt64)
    (service : CommitService) : side.Acts (service.getManyInto lookup starts found) := by
  induction starts generalizing found service with
  | nil => exact .pure _ _
  | cons start rest ih =>
    refine .of_leaves (.following (acts_get h start service) fun answer service' => ?_)
    rcases answer with e | _ | commit
    · refine .ends (.error e) service' ?_
      rintro c d ⟨_, rfl, hanswer⟩
      simp only [getManyInto, hanswer]
    · refine .handsOn (ih found service') ?_
      rintro c d ⟨_, rfl, hanswer⟩
      simp only [getManyInto, hanswer]
    · refine .handsOn (ih (found.insert ⟨start⟩ commit) service') ?_
      rintro c d ⟨_, rfl, hanswer⟩
      simp only [getManyInto, hanswer]

lemma acts_agree {t : Transport Cluster} (ht : t.Of side) (jitter : Jitter) (start commit : UInt64)
    (service : CommitService) : side.Acts (service.agree t jitter start commit) := by
  let attempt : Proposer × Cluster → Except Fault ProposalValue × Proposer × Cluster := fun x =>
    (Fault.ofFailure (x.1.propose t ⟨start⟩ (encode commit) x.2).1,
      (x.1.propose t ⟨start⟩ (encode commit) x.2).2)
  have hattempt : ∀ p, side.Acts fun c => attempt (p, c) := by
    intro p
    refine .of_leaves (.following (p.acts_propose ht ⟨start⟩ (encode commit)) fun outcome q =>
      .ends (Fault.ofFailure outcome) q ?_)
    rintro c d ⟨_, rfl, hproposed⟩
    simp only [attempt, hproposed]
  have hrun := service.retry.acts_run hattempt jitter service.proposer
  refine .of_leaves (.following hrun fun outcome proposer =>
    .ends (outcome.map (·.payload)) { service with proposer } ?_)
  rintro c d ⟨_, rfl, hran⟩
  have hagree : service.agree t jitter start commit c =
      ((RetryPolicy.ending (service.retry.run jitter attempt (service.proposer, c))).1.map
          (·.payload),
        { service with proposer :=
            (RetryPolicy.ending (service.retry.run jitter attempt (service.proposer, c))).2.1 },
        (RetryPolicy.ending (service.retry.run jitter attempt (service.proposer, c))).2.2) := rfl
  rw [hagree, hran]

theorem acts_put {t : Transport Cluster} (ht : t.Of side) (jitter : Jitter) (start commit : UInt64)
    (service : CommitService) : side.Acts (service.put t jitter start commit) := by
  refine .of_leaves (.following (acts_agree ht jitter start commit service) fun agreed service' => ?_)
  cases agreed with
  | error e =>
    refine .ends (.error e) service' ?_
    rintro c d ⟨_, rfl, hagreed⟩
    simp only [put, hagreed]
  | ok payload =>
    refine .ends (service'.settle start commit payload).1
      (service'.settle start commit payload).2 ?_
    rintro c d ⟨_, rfl, hagreed⟩
    simp only [put, hagreed]

end CommitService
end Synod
