import Synod.Acceptor
import Synod.Proofs.Attempts
import Synod.Proofs.Candidacy
import Synod.Proofs.Within
import Synod.Store.Memory

/-!
# Why a candidate stays out

A candidate that ends up not leading, without an error, has heard from a peer that leads, or its
own round has returned a name that is not its own. In the second case nobody has been asked about
the node of that name, which may be long gone, and `acquire` does not try again.

`Surroundings.watched` keeps a list of the pings, so that statements can be about the pings of one
call. Watching changes nothing else.
-/
namespace Synod

/-- The same surroundings, beside a list of all pings and what was answered, the last one first. -/
def Surroundings.watched {π ω : Type} (s : Surroundings π ω) :
    Surroundings π (ω × List (π × Option Bool)) where
  transport := s.transport.within (·.1) fun w part => (part, w.2)
  learner w := s.learner w.1
  record slot value w := ((s.record slot value w.1).1, (s.record slot value w.1).2, w.2)
  ping address w :=
    ((s.ping address w.1).1, (s.ping address w.1).2, (address, (s.ping address w.1).1) :: w.2)
  identify address w := ((s.identify address w.1).1, (s.identify address w.1).2, w.2)

namespace Surroundings
variable {π ω : Type} {s : Surroundings π ω} {w w' : ω} {pings : List (π × Option Bool)}

lemma record_watched {slot : Slot} {value : ProposalValue} {outcome : Except Failure Unit}
    (h : s.record slot value w = (outcome, w')) :
    s.watched.record slot value (w, pings) = (outcome, w', pings) := by
  simp only [watched, h]

lemma ping_watched {address : π} {answer : Option Bool} (h : s.ping address w = (answer, w')) :
    s.watched.ping address (w, pings) = (answer, w', (address, answer) :: pings) := by
  simp only [watched, h]

lemma identify_watched {address : π} {answer : Option String}
    (h : s.identify address w = (answer, w')) :
    s.watched.identify address (w, pings) = (answer, w', pings) := by
  simp only [watched, h]

end Surroundings

lemma isPart_fst {ω β : Type} : IsPart (fun w : ω × β => w.1) fun w part => (part, w.2) :=
  ⟨fun _ _ => rfl, fun _ => rfl, fun _ _ _ => rfl⟩

namespace Candidate

variable {π ω : Type} {s : Surroundings π ω}

/-- The last thing that happened is that a round of the node of this name returned another name,
and that its learner took note of it. -/
def Adopted (s : Surroundings π ω) (uuid : String) (w' : ω) : Prop :=
  ∃ (p p' : Proposer) (generation : Slot) (chosen : ProposalValue) (w w₁ : ω), p.uuid = uuid ∧
    p.propose s.transport generation (Text.toBytes uuid) w = (.ok chosen, p', w₁) ∧
    s.record generation chosen w₁ = (.ok (), w') ∧ Text.ofBytesLossy chosen.payload ≠ uuid

/-- Some peer answered a ping that it leads. -/
def HeardLeader (pings : List (π × Option Bool)) : Prop :=
  ∃ address, (address, some true) ∈ pings

section Watching
variable (pings : List (π × Option Bool)) {c c' : Candidate π} {w w' : ω}

lemma refreshPeers_watched {index : Nat} {peers peers' : List (Peer π)} {restarted : List Nat}
    (h : Peer.refresh s.identify index peers w = (restarted, peers', w')) :
    Peer.refresh s.watched.identify index peers (w, pings) = (restarted, peers', w', pings) := by
  induction peers generalizing index w w' restarted peers' with
  | nil =>
    cases h
    rfl
  | cons peer rest ih =>
    rcases hasked : s.identify peer.address w with ⟨answer, w₁⟩
    rcases hrest : Peer.refresh s.identify (index + 1) rest w₁ with ⟨restarted₁, rest', w₂⟩
    unfold Peer.refresh at h ⊢
    simp only [hasked, hrest] at h
    simp only [Surroundings.identify_watched hasked, ih hrest]
    cases answer <;> cases h <;> rfl

lemma locate_watched {uuid : String} {address : Option π}
    (h : c.locate s uuid w = (address, c', w')) :
    c.locate s.watched uuid (w, pings) = (address, c', w', pings) := by
  unfold locate at h ⊢
  cases hknown : c.peerNamed? uuid with
  | some _ =>
    rw [hknown] at h
    cases h
    rfl
  | none =>
    rcases hpeers : Peer.refresh s.identify 0 c.peers w with ⟨restarted, peers, w₁⟩
    simp only [hknown, refresh, hpeers] at h
    simp only [refresh, refreshPeers_watched pings hpeers]
    cases h
    rfl

/-- If the leader is found to be alive, then a ping says so. -/
lemma leaderIsAlive_watched {uuid : String} {alive : Bool}
    (h : c.leaderIsAlive s uuid w = (alive, c', w')) :
    ∃ heard, c.leaderIsAlive s.watched uuid (w, pings) = (alive, c', w', heard ++ pings) ∧
      (alive = true → HeardLeader heard) := by
  unfold leaderIsAlive at h ⊢
  rcases hlocate : c.locate s uuid w with ⟨_ | address, c₁, w₁⟩
  · simp only [hlocate] at h
    cases h
    exact ⟨[], by simp only [locate_watched pings hlocate, List.nil_append], nofun⟩
  · rcases hping : s.ping address w₁ with ⟨answer, w₂⟩
    simp only [hlocate, hping] at h
    cases h
    refine ⟨[(address, answer)], ?_, fun halive => ⟨address, ?_⟩⟩
    · simp only [locate_watched pings hlocate, Surroundings.ping_watched hping, List.singleton_append]
    · cases answer with
      | none => cases halive
      | some leads =>
        cases halive
        exact List.mem_singleton_self _

lemma hail_watched {known : Option (Slot × String)} {alive : Bool}
    (h : c.hail s known w = (alive, c', w')) :
    ∃ heard, c.hail s.watched known (w, pings) = (alive, c', w', heard ++ pings) ∧
      (alive = true → HeardLeader heard) := by
  cases known with
  | none =>
    cases h
    exact ⟨[], rfl, nofun⟩
  | some leader => exact leaderIsAlive_watched pings h

lemma course_watched {course : Except Fault Course} (h : c.course s w = (course, c', w')) :
    ∃ heard, c.course s.watched (w, pings) = (course, c', w', heard ++ pings) ∧
      (course = .ok (.settled .notLeading) → HeardLeader heard) := by
  rw [course_eq] at h ⊢
  have hlearner : s.watched.learner (w, pings) = s.learner w := rfl
  rw [hlearner]
  rcases hleads : c.isLeader (s.learner w) with ⟨_ | _, c₁⟩
  · rcases hhail : c₁.hail s (s.learner w).leader? w with ⟨alive, c₂, w₁⟩
    obtain ⟨heard, hwatched, halive⟩ := hail_watched pings hhail
    simp only [hleads, hhail] at h
    cases h
    exact ⟨heard, by simp only [hwatched], fun hsettled =>
      halive (settled_of_weigh (Prod.ext hsettled rfl)).1⟩
  · simp only [hleads] at h
    cases h
    exact ⟨[], rfl, nofun⟩

lemma stand_watched {generation : Slot} {outcome : Except Fault LeadershipState}
    (h : c.stand s generation w = (outcome, c', w')) :
    c.stand s.watched generation (w, pings) = (outcome, c', w', pings) := by
  rw [stand_eq] at h ⊢
  rcases hpropose : c.proposer.propose s.transport generation (Text.toBytes c.uuid) w with
    ⟨result, proposer, w₁⟩
  have hwatched : c.proposer.propose s.watched.transport generation (Text.toBytes c.uuid)
      (w, pings) = (result, proposer, w₁, pings) := by
    simp only [Surroundings.watched, Proposer.propose_within isPart_fst, hpropose]
  cases result with
  | error e =>
    simp only [hpropose] at h
    cases h
    simp only [hwatched]
  | ok chosen =>
    rcases hrecord : s.record generation chosen w₁ with ⟨recorded, w₂⟩
    simp only [hpropose, hrecord] at h
    cases h
    simp only [hwatched, Surroundings.record_watched hrecord]

end Watching

variable {c c' : Candidate π} {w w' : ω}

/-- A round that succeeds makes the node lead, or makes it adopt another name. -/
lemma stand_ok {generation : Slot} {state : LeadershipState}
    (h : c.stand s generation w = (.ok state, c', w')) :
    state = .leading ∨ state = .notLeading ∧ Adopted s c.uuid w' := by
  rw [stand_eq] at h
  rcases hpropose : c.proposer.propose s.transport generation (Text.toBytes c.uuid) w with
    ⟨_ | chosen, proposer, w₁⟩
  · simp only [hpropose] at h
    cases h
  · rcases hrecord : s.record generation chosen w₁ with ⟨_ | _, w₂⟩
    · simp only [hpropose, hrecord, conclude] at h
      cases h
    · simp only [hpropose, hrecord, conclude] at h
      cases h
      have hname : ({ c with proposer } : Candidate π).uuid = c.uuid :=
        (Proposer.propose_follows hpropose).uuid
      rw [hname]
      split
      · exact .inl rfl
      · rename_i hother
        exact .inr ⟨rfl, c.proposer, proposer, generation, chosen, w, w₁, rfl, hpropose, hrecord,
          hother⟩

/-- A course is settled only by a node that leads or a leader that was heard. -/
lemma course_settled {state : LeadershipState} (h : c.course s w = (.ok (.settled state), c', w')) :
    state = .leading ∨ state = .notLeading := by
  rw [course_eq] at h
  rcases hleads : c.isLeader (s.learner w) with ⟨_ | _, c₁⟩
  · rcases hhail : c₁.hail s (s.learner w).leader? w with ⟨alive, c₂, w₂⟩
    rcases hweigh : c₂.weigh (s.learner w).leader? alive with ⟨course, c₃⟩
    simp only [hleads, hhail, hweigh] at h
    cases h
    exact .inr (settled_of_weigh hweigh).2
  · simp only [hleads] at h
    cases h
    exact .inl rfl

/-- One attempt, watched or not. -/
theorem tryAcquire_watched (pings : List (π × Option Bool))
    {outcome : Except Fault LeadershipState}
    (h : c.tryAcquire s w = (outcome, c', w')) :
    c'.uuid = c.uuid ∧
    ∃ heard, c.tryAcquire s.watched (w, pings) = (outcome, c', w', heard ++ pings) ∧
      ∀ state, outcome = .ok state → state = .leading ∨
        state = .notLeading ∧ (HeardLeader heard ∨ Adopted s c.uuid w') := by
  rcases hcourse : c.course s w with ⟨course, c₁, w₁⟩
  have hname := uuid_of_course hcourse
  obtain ⟨heard, hwatched, hheard⟩ := course_watched pings hcourse
  unfold tryAcquire at h ⊢
  rcases course with e | state | generation
  · simp only [hcourse] at h
    cases h
    exact ⟨hname, heard, by simp only [hwatched], nofun⟩
  · simp only [hcourse] at h
    cases h
    refine ⟨hname, heard, by simp only [hwatched], fun state' hstate => ?_⟩
    cases hstate
    rcases course_settled hcourse with rfl | rfl
    · exact .inl rfl
    · exact .inr ⟨rfl, .inl (hheard rfl)⟩
  · simp only [hcourse] at h
    refine ⟨(uuid_of_stand h).trans hname, heard,
      by simp only [hwatched, stand_watched (heard ++ pings) h], ?_⟩
    rintro state rfl
    rcases stand_ok h with rfl | ⟨rfl, hadopted⟩
    · exact .inl rfl
    · exact .inr ⟨rfl, .inr (hname ▸ hadopted)⟩

/-- The calls of `acquire` that watch and those that do not are the same. -/
theorem acquire_watched (s : Surroundings π ω) (policy : RetryPolicy) (jitter : Jitter)
    (c : Candidate π) (w : ω) (pings : List (π × Option Bool)) :
    c.acquire s policy jitter w =
      (c.acquire s.watched policy jitter (w, pings)).mapState fun (c, w, _) => (c, w) := by
  refine RetryPolicy.run_part (fun (t : Candidate π × ω × List (π × Option Bool)) => (t.1, t.2.1))
    (fun t => ?_) (c, w, pings)
  rcases hattempt : t.1.tryAcquire s t.2.1 with ⟨outcome, c', w'⟩
  obtain ⟨_, heard, hwatched, _⟩ := tryAcquire_watched t.2.2 hattempt
  simp only [hattempt, hwatched]

/-- Induction on the attempts: only the last one of a call can have ended well, and it says why. -/
lemma ends_ok {policy : RetryPolicy} {jitter : Jitter} {uuid : String} {made : Nat}
    {t t' : Candidate π × ω × List (π × Option Bool)} {outcome : Except Fault LeadershipState}
    (h : RetryPolicy.Ends policy jitter
      (fun t : Candidate π × ω × List (π × Option Bool) => t.1.tryAcquire s.watched t.2) made t
      outcome t') (hname : t.1.uuid = uuid) {state : LeadershipState} (hok : outcome = .ok state) :
    state = .leading ∨
      state = .notLeading ∧ (HeardLeader t'.2.2 ∨ Adopted s uuid t'.2.1) := by
  induction h with
  | @answered made t a t' attempted =>
    obtain ⟨c, w, pings⟩ := t
    rcases hattempt : c.tryAcquire s w with ⟨outcome, c', w'⟩
    obtain ⟨_, heard, hwatched, hwhy⟩ := tryAcquire_watched pings hattempt
    rw [hwatched] at attempted
    cases attempted
    cases hok
    rcases hwhy state rfl with rfl | ⟨rfl, ⟨address, hmem⟩ | hadopted⟩
    · exact .inl rfl
    · exact .inr ⟨rfl, .inl ⟨address, List.mem_append_left _ hmem⟩⟩
    · exact .inr ⟨rfl, .inr (hname ▸ hadopted)⟩
  | overflowed => cases hok
  | failed => cases hok
  | @retried made t e t₁ outcome t' attempted verdict rest ih =>
    obtain ⟨c, w, pings⟩ := t
    rcases hattempt : c.tryAcquire s w with ⟨outcome, c', w'⟩
    obtain ⟨hsame, heard, hwatched, _⟩ := tryAcquire_watched pings hattempt
    rw [hwatched] at attempted
    cases attempted
    exact ih (hsame.trans hname) hok

/-- What `acquire` returns. A call that ends without an error makes the node lead; or else a ping
of this call was answered by a peer that leads, or the last round of the call returned the name of
another node, which may run or not. -/
theorem acquire_verdict (s : Surroundings π ω) (policy : RetryPolicy) (jitter : Jitter)
    (c : Candidate π) (w : ω) :
    let run := c.acquire s policy jitter w
    let watched := c.acquire s.watched policy jitter (w, [])
    run = watched.mapState (fun (c, w, _) => (c, w)) ∧
    ((∃ f, run.outcome = .error f) ∨ run.outcome = .ok .leading ∨
      run.outcome = .ok .notLeading ∧
        (HeardLeader watched.state.2.2 ∨ Adopted s c.uuid run.state.2)) := by
  intro run watched
  have hsame : run = watched.mapState fun (c, w, _) => (c, w) :=
    acquire_watched s policy jitter c w []
  refine ⟨hsame, ?_⟩
  have hends : RetryPolicy.Ends policy jitter
      (fun t : Candidate π × ω × List (π × Option Bool) => t.1.tryAcquire s.watched t.2) 1
      (c, w, []) watched.outcome watched.state := RetryPolicy.run_ends _
  cases houtcome : run.outcome with
  | error f => exact .inl ⟨f, rfl⟩
  | ok state =>
    right
    have hok : watched.outcome = .ok state := by
      rw [hsame] at houtcome
      exact houtcome
    rcases ends_ok hends rfl hok with rfl | ⟨rfl, hwhy⟩
    · exact .inl rfl
    · refine .inr ⟨rfl, ?_⟩
      rw [hsame]
      exact hwhy

/-- A node alone with its acceptor: there is nobody to ping. -/
def alone : Surroundings Empty (Acceptor MemoryStore × Learner) where
  transport :=
    { prepare := fun slot id w =>
        ([fun w => ((w.1.prepare slot id).1.toOption, (w.1.prepare slot id).2, w.2)], w)
      accept := fun slot value w =>
        ([fun w => ((w.1.accept slot value).1.toOption, (w.1.accept slot value).2, w.2)], w)
      notify := fun _ _ w => w }
  learner w := w.2
  record slot value w := ((w.2.record slot value).1, w.1, (w.2.record slot value).2)
  ping address _ := address.elim
  identify address _ := address.elim

/-- A node wins the first generation and goes away. Its successor, which has nobody to ping, finds
the generation in the acceptor's store and gives up, although it is the only node left. -/
theorem acquire_heeds_former_leader :
    let first := (new ⟨"a", Quorum.single, 0⟩).acquire alone .default .none
      (.start MemoryStore.empty, Learner.empty)
    let second := (new ⟨"b", Quorum.single, 0⟩).acquire alone .default .none
      (first.state.2.1.restart, Learner.empty)
    first.outcome = .ok .leading ∧ second.outcome = .ok .notLeading ∧
      second.state.2.2.leader? = some (⟨0⟩, "a") := by
  decide

end Candidate
end Synod
