import Synod.Proofs.Generations
import Synod.Proofs.StayingOut

/-!
# What an attempt reports

While a candidate asks around and runs its round, its learner may hear of the rounds of others. It
forgets nothing meanwhile. What the attempt reports is then true of the generation that it decided
on, the one known already or the one that it stood for, and the candidate's state is what was
reported. It is true of the leadership as well, which goes by the greatest generation known, unless
a newer generation was heard of while the attempt was under way: nobody looks at the learner again
before the report.
-/
namespace Synod

namespace Learner

/-- What was heard is still there, and more may have been heard. -/
def Extends (l l' : Learner) : Prop := ∀ slot v, l.get? slot = some v → l'.get? slot = some v

/-- No generation after this one is known. -/
def Newest (generation : Slot) (l : Learner) : Prop :=
  ∀ slot v, l.get? slot = some v → ¬generation < slot

theorem Extends.refl (l : Learner) : Extends l l := fun _ _ h => h

theorem Extends.trans {l l' l'' : Learner} (h : Extends l l') (h' : Extends l' l'') :
    Extends l l'' := fun slot v hv => h' slot v (h slot v hv)

theorem extends_record (l : Learner) (slot : Slot) (value : ProposalValue) :
    Extends l (l.record slot value).2 := fun _ _ h => get?_record_of_get? h slot value

/-- The leader known is the one that the newest generation names. -/
lemma leader?_spec {l : Learner} {generation : Slot} {uuid : String}
    (h : l.leader? = some (generation, uuid)) : ∃ slot v, l.get? slot = some v ∧ l.Newest slot ∧
      v.slot = generation ∧ Text.ofBytesLossy v.payload = uuid := by
  obtain ⟨v, hv, hname⟩ := Option.map_eq_some_iff.mp h
  obtain ⟨slot, hslot, hnewest⟩ := SlotMap.greatest?_spec hv
  cases hname
  exact ⟨slot, v, hslot, hnewest, rfl, rfl⟩

/-- A generation that is known and that no other follows names the leader. -/
lemma leader?_of_newest {l : Learner} {generation : Slot} {v : ProposalValue}
    (hv : l.get? generation = some v) (hnewest : l.Newest generation) :
    l.leader?.map (·.2) = some (Text.ofBytesLossy v.payload) := by
  have hgreatest : l.greatest? = some v := SlotMap.greatest?_of_last hv hnewest
  rw [leader?, hgreatest]
  rfl

/-- A learner that took note of a value holds its decree in the slot. -/
lemma get?_of_record_ok {l : Learner} {slot : Slot} {value : ProposalValue}
    (h : (l.record slot value).1 = .ok ()) :
    ∃ v, (l.record slot value).2.get? slot = some v ∧ v.payload = value.payload := by
  obtain ⟨hslot, hsame⟩ := record_eq_ok_iff.mp h
  rw [get?_record]
  cases hheld : l.get? slot with
  | none => exact ⟨value, by simp [hslot], rfl⟩
  | some held => exact ⟨held, rfl, (hsame held hheld).2⟩

end Learner

variable {π ω : Type}

/-- Nothing that is done through a transport makes a learner forget. -/
structure Transport.Spares (learner : ω → Learner) (t : Transport ω) : Prop where
  prepare : ∀ slot id w, (learner w).Extends (learner (t.prepare slot id w).2)
  promise : ∀ slot id w, ∀ await ∈ (t.prepare slot id w).1, ∀ w',
    (learner w').Extends (learner (await w').2)
  accept : ∀ slot value w, (learner w).Extends (learner (t.accept slot value w).2)
  acceptance : ∀ slot value w, ∀ await ∈ (t.accept slot value w).1, ∀ w',
    (learner w').Extends (learner (await w').2)
  notify : ∀ slot value w, (learner w).Extends (learner (t.notify slot value w))

/-- Surroundings in which the candidate's learner forgets nothing, whatever else it hears in the
meantime, and takes note of what the candidate tells it. -/
structure Surroundings.Spares (s : Surroundings π ω) : Prop where
  transport : s.transport.Spares s.learner
  ping : ∀ address w, (s.learner w).Extends (s.learner (s.ping address w).2)
  identify : ∀ address w, (s.learner w).Extends (s.learner (s.identify address w).2)
  record : ∀ slot value w, (s.record slot value w).1 = ((s.learner w).record slot value).1 ∧
    s.learner (s.record slot value w).2 = ((s.learner w).record slot value).2

/-- Answers are awaited one after the other. -/
lemma Tally.gather_extends {α : Type} {learner : ω → Learner} (agrees : α → Bool)
    (total required : Nat) (tally : Tally α) {answers : List (ω → Option α × ω)}
    (h : ∀ await ∈ answers, ∀ w, (learner w).Extends (learner (await w).2)) (w : ω) :
    (learner w).Extends (learner (gather agrees total required tally w answers).2) := by
  induction answers generalizing tally w with
  | nil => exact .refl _
  | cons await rest ih =>
    rw [List.forall_mem_cons] at h
    unfold gather
    split
    · exact (h.1 w).trans (ih _ h.2 _)
    · exact .refl _

namespace Proposer
variable {learner : ω → Learner} {t : Transport ω}

lemma acceptPhase_extends (h : t.Spares learner) (slot : Slot) (value : ProposalValue)
    (p : Proposer) (w : ω) :
    (learner w).Extends (learner (p.acceptPhase t slot value w).2.2) := by
  have hgather := Tally.gather_extends (·.accepted) p.quorum.acceptors.toNat
    p.quorum.accept.toNat .empty (h.acceptance slot value w) (t.accept slot value w).2
  have hheard := (h.accept slot value w).trans hgather
  unfold acceptPhase
  dsimp only
  split
  · exact hheard
  · exact hheard.trans (h.notify _ _ _)

/-- While a round goes on, the learner forgets nothing. -/
theorem propose_extends (h : t.Spares learner) (slot : Slot) (own : Payload) (p : Proposer)
    (w : ω) : (learner w).Extends (learner (p.propose t slot own w).2.2) := by
  unfold propose
  rcases p.nextId with e | ⟨id, q⟩
  · exact .refl _
  · have hgather := Tally.gather_extends (·.accepted) q.quorum.acceptors.toNat
      q.quorum.prepare.toNat .empty (h.promise slot id w) (t.prepare slot id w).2
    have hheard := (h.prepare slot id w).trans hgather
    dsimp only
    split
    · exact hheard
    · exact hheard.trans (acceptPhase_extends h _ _ _ _)

end Proposer

namespace Candidate
variable {s : Surroundings π ω} {c c' : Candidate π} {w w' : ω}

lemma refreshPeers_extends (hs : s.Spares) (index : Nat) (peers : List (Peer π)) (w : ω) :
    (s.learner w).Extends (s.learner (Peer.refresh s.identify index peers w).2.2) := by
  induction peers generalizing index w with
  | nil => exact .refl _
  | cons peer rest ih =>
    have hrest := (hs.identify peer.address w).trans (ih (index + 1) (s.identify peer.address w).2)
    unfold Peer.refresh
    dsimp only
    split <;> exact hrest

lemma hail_extends (hs : s.Spares) (known : Option (Slot × String)) (c : Candidate π) (w : ω) :
    (s.learner w).Extends (s.learner (c.hail s known w).2.2) := by
  cases known with
  | none => exact .refl _
  | some leader =>
    have hlocate : (s.learner w).Extends (s.learner (c.locate s leader.2 w).2.2) := by
      unfold locate
      split
      · exact .refl _
      · exact refreshPeers_extends hs 0 c.peers w
    unfold hail leaderIsAlive
    dsimp only
    split
    · rename_i hplace
      rw [hplace] at hlocate
      exact hlocate
    · rename_i hplace
      rw [hplace] at hlocate
      exact hlocate.trans (hs.ping _ _)

/-- What an attempt that decided on a generation reports: the state is what is reported, it says
whether the generation names this node, and whether this node leads, if no newer one is known. -/
structure Truthful (generation : Slot) (l : Learner) (state : LeadershipState) (c : Candidate π) :
    Prop where
  kept : c.state = state
  decided : state = .leading ∨ state = .notLeading
  named : ∃ v, l.get? generation = some v ∧
    (state = .leading ↔ Text.ofBytesLossy v.payload = c.uuid)
  leads : l.Newest generation → (state = .leading ↔ (c.isLeader l).1 = true)

lemma isLeader_iff {l : Learner} :
    (c.isLeader l).1 = true ↔ l.leader?.map (·.2) = some c.uuid := by
  unfold isLeader
  split
  · rename_i h
    exact ⟨fun _ => h, fun _ => rfl⟩
  · rename_i h
    exact ⟨nofun, fun h' => absurd h' h⟩

lemma truthful_of_named {generation : Slot} {l : Learner} {state : LeadershipState}
    (hkept : c.state = state) (hdecided : state = .leading ∨ state = .notLeading)
    {v : ProposalValue} (hv : l.get? generation = some v)
    (hname : state = .leading ↔ Text.ofBytesLossy v.payload = c.uuid) :
    Truthful generation l state c where
  kept := hkept
  decided := hdecided
  named := ⟨v, hv, hname⟩
  leads hnewest := by
    rw [isLeader_iff, Learner.leader?_of_newest hv hnewest, hname, Option.some.injEq]

/-- A round that is concluded tells of the generation that it was for. -/
lemma stand_reports (hs : s.Spares) {generation : Slot}
    {outcome : Except Fault LeadershipState} (h : c.stand s generation w = (outcome, c', w')) :
    (s.learner w).Extends (s.learner w') ∧
    (∀ state, outcome = .ok state → Truthful generation (s.learner w') state c') ∧
    ∀ f, outcome = .error f → c'.state = .notLeading := by
  rw [stand_eq] at h
  have hround := Proposer.propose_extends hs.transport generation (Text.toBytes c.uuid) c.proposer w
  rcases hpropose : c.proposer.propose s.transport generation (Text.toBytes c.uuid) w with
    ⟨_ | chosen, proposer, w₁⟩
  · rw [hpropose] at hround
    simp only [hpropose] at h
    cases h
    exact ⟨hround, by rintro _ ⟨⟩, fun _ _ => rfl⟩
  · rw [hpropose] at hround
    obtain ⟨htold, hlearner⟩ := hs.record generation chosen w₁
    rcases hrecord : s.record generation chosen w₁ with ⟨recorded, w₂⟩
    rw [hrecord] at htold hlearner
    have hgrown : (s.learner w).Extends (s.learner w₂) :=
      hround.trans (hlearner ▸ Learner.extends_record _ _ _)
    simp only [hpropose, hrecord, conclude] at h
    cases recorded with
    | error e =>
      cases h
      exact ⟨hgrown, by rintro _ ⟨⟩, fun _ _ => rfl⟩
    | ok u =>
      obtain ⟨v, hv, hpayload⟩ := Learner.get?_of_record_ok htold.symm
      have hheld : (s.learner w₂).get? generation = some v := by rw [hlearner, hv]
      cases h
      refine ⟨hgrown, fun state hstate => ?_, by rintro _ ⟨⟩⟩
      cases hstate
      refine truthful_of_named rfl ?_ hheld ?_
      · split
        · exact .inl rfl
        · exact .inr rfl
      · rw [hpayload]
        split <;> simp_all [uuid]

/-- Whoever asks whether this node leads finds out that it does not lead any more. -/
lemma state_of_isLeader {l : Learner} (h : c.isLeader l = (false, c')) :
    c'.state = c.state ∨ c'.state = .notLeading := by
  unfold isLeader at h
  split at h
  · cases h
  · split at h <;> cases h
    · exact .inr rfl
    · exact .inl rfl

lemma state_of_locate {uuid : String} {address : Option π}
    (h : c.locate s uuid w = (address, c', w')) : c'.state = c.state := by
  unfold locate at h
  split at h <;> cases h <;> rfl

lemma state_of_hail {known : Option (Slot × String)} {alive : Bool}
    (h : c.hail s known w = (alive, c', w')) : c'.state = c.state := by
  unfold hail leaderIsAlive at h
  split at h
  · cases h
    rfl
  · split at h
    all_goals
      rename_i hlocate
      cases h
      exact state_of_locate hlocate

/-- A candidate stands for a generation after all that its learner knew of. -/
lemma newest_of_standing {l : Learner} (hl : l.Sound) {generation : Slot}
    (h : nextGeneration l.leader? = .ok generation) : l.Newest generation := by
  intro slot v hv
  obtain ⟨best, hbest⟩ := SlotMap.exists_greatest? hv
  obtain ⟨last, hlast, hnewest⟩ := SlotMap.greatest?_spec hbest
  have hleader : l.leader? = some (best.slot, Text.ofBytesLossy best.payload) := by
    rw [Learner.leader?, show l.greatest? = some best from hbest]
    rfl
  rw [hleader, hl last best hlast] at h
  have hnext : last < generation := by
    have hsuccessor := Slot.next_eq_ok_iff.mp h
    exact UInt64.lt_iff_toNat_lt.mpr (by omega)
  exact fun hlater => hnewest slot v hv (Slot.lt_trans hnext hlater)

/-- What is decided without a round is true of the generation that was known. -/
lemma course_reports (hs : s.Spares) (hl : (s.learner w).Sound) {course : Except Fault Course}
    (h : c.course s w = (course, c', w')) :
    (s.learner w).Extends (s.learner w') ∧
    (∀ state, course = .ok (.settled state) →
      ∃ generation, (s.learner w).Newest generation ∧
        Truthful generation (s.learner w') state c') ∧
    (∀ generation, course = .ok (.standing generation) → (s.learner w).Newest generation) ∧
    ∀ f, course = .error f → (∃ o, f = .overflow o) ∧
      (c'.state = c.state ∨ c'.state = .notLeading) := by
  rw [course_eq] at h
  rcases hleads : c.isLeader (s.learner w) with ⟨_ | _, c₁⟩
  · have hstate := state_of_isLeader hleads
    have hother : (s.learner w).leader?.map (·.2) ≠ some c.uuid := fun hname => by
      rw [← isLeader_iff, hleads] at hname
      cases hname
    have hgrown := hail_extends hs (s.learner w).leader? c₁ w
    rcases hhail : c₁.hail s (s.learner w).leader? w with ⟨alive, c₂, w₁⟩
    rw [hhail] at hgrown
    rcases hweigh : c₂.weigh (s.learner w).leader? alive with ⟨course', c₃⟩
    have huuid : c₃.uuid = c.uuid := by
      rw [uuid_of_weigh hweigh, uuid, proposer_of_hail hhail, proposer_of_isLeader hleads, uuid]
    simp only [hleads, hhail, hweigh] at h
    cases h
    refine ⟨hgrown, fun state hsettled => ?_, fun generation hstanding => ?_, fun f hf => ?_⟩
    · subst hsettled
      obtain ⟨rfl, rfl⟩ := settled_of_weigh hweigh
      cases hknown : (s.learner w).leader? with
      | none =>
        rw [hknown] at hhail
        cases hhail
      | some leader =>
        obtain ⟨slot, v, hv, hnewest, -, hname⟩ := Learner.leader?_spec hknown
        refine ⟨slot, hnewest, truthful_of_named ?_ (.inr rfl) (hgrown slot v hv) ⟨by rintro ⟨⟩, ?_⟩⟩
        · cases hweigh
          rfl
        · intro hown
          refine absurd ?_ hother
          rw [hknown, ← huuid, ← hown, hname]
          rfl
    · subst hstanding
      exact newest_of_standing hl (nextGeneration_of_weigh hweigh)
    · subst hf
      rw [← state_of_hail hhail] at hstate
      unfold weigh at hweigh
      split at hweigh
      · cases hweigh
      · split at hweigh <;> cases hweigh
        exact ⟨⟨_, rfl⟩, hstate⟩
  · simp only [hleads] at h
    cases h
    obtain ⟨generation, hleader⟩ := isLeader_eq_true (congrArg Prod.fst hleads)
    obtain ⟨slot, v, hv, hnewest, -, hname⟩ := Learner.leader?_spec hleader
    refine ⟨.refl _, fun state hsettled => ?_, by rintro _ ⟨⟩, by rintro _ ⟨⟩⟩
    cases hsettled
    refine ⟨slot, hnewest, truthful_of_named rfl (.inl rfl) hv ⟨fun _ => ?_, fun _ => rfl⟩⟩
    rw [uuid_setState, uuid_of_isLeader hleads, hname]

/-- What an attempt reports. Without an error, it is true of the generation that the attempt decided
on, which was at least as new as all that was known when it began. It is true of the leadership,
unless a newer generation was heard of by the end. With an error the node does not lead; only where
the generations are exhausted the attempt breaks off as it is. -/
theorem tryAcquire_reports (hs : s.Spares) (hl : (s.learner w).Sound)
    {outcome : Except Fault LeadershipState} (h : c.tryAcquire s w = (outcome, c', w')) :
    (s.learner w).Extends (s.learner w') ∧
    (∀ state, outcome = .ok state → ∃ generation, (s.learner w).Newest generation ∧
      Truthful generation (s.learner w') state c') ∧
    (∀ e, outcome = .error (.failure e) → c'.state = .notLeading) ∧
    ∀ o, outcome = .error (.overflow o) → c'.state = c.state ∨ c'.state = .notLeading := by
  rcases hcourse : c.course s w with ⟨course, c₁, w₁⟩
  obtain ⟨hgrown, hsettled, hstanding, herror⟩ := course_reports hs hl hcourse
  unfold tryAcquire at h
  rcases course with f | state | generation
  · obtain ⟨⟨o, rfl⟩, hstate⟩ := herror f rfl
    simp only [hcourse] at h
    cases h
    exact ⟨hgrown, nofun, nofun, fun _ _ => hstate⟩
  · simp only [hcourse] at h
    cases h
    refine ⟨hgrown, fun state' hstate => ?_, nofun, nofun⟩
    cases hstate
    exact hsettled state rfl
  · simp only [hcourse] at h
    obtain ⟨hround, hok, hfailed⟩ := stand_reports hs h
    refine ⟨hgrown.trans hround, fun state hstate => ?_, fun e he => hfailed _ he,
      fun o ho => .inr (hfailed _ ho)⟩
    exact ⟨generation, hstanding generation rfl, hok state hstate⟩

/-- A node alone with its acceptor, whose learner hears of another node's generation while a value
of its own is being accepted. -/
def overtaken : Surroundings Empty (Acceptor MemoryStore × Learner) :=
  { alone with
    transport := { alone.transport with
      accept := fun slot value w =>
        ((alone.transport.accept slot value w).1,
          w.1, (w.2.record ⟨1⟩ ⟨⟨1, "b"⟩, ⟨1⟩, Text.toBytes "b"⟩).2) } }

lemma spares_overtaken : overtaken.Spares where
  transport :=
    { prepare := fun _ _ _ => .refl _
      promise := fun slot id w await hawait w' => by
        obtain rfl := List.mem_singleton.mp hawait
        exact .refl _
      accept := fun _ _ w => Learner.extends_record w.2 _ _
      acceptance := fun slot value w await hawait w' => by
        obtain rfl := List.mem_singleton.mp hawait
        exact .refl _
      notify := fun _ _ _ => .refl _ }
  ping address _ := address.elim
  identify address _ := address.elim
  record _ _ _ := ⟨rfl, rfl⟩

/-- The attempt is true of generation zero, which the node has won. -/
theorem tryAcquire_reports_overtaken :
    let run := (new ⟨"a", Quorum.single, 0⟩).tryAcquire overtaken
      (.start MemoryStore.empty, Learner.empty)
    overtaken.Spares ∧ Learner.empty.Sound ∧ run.1 = .ok .leading ∧
      ∃ generation, Truthful generation run.2.2.2 .leading run.2.1 := by
  intro run
  have hok : run.1 = .ok .leading := by decide
  have hrun : (new ⟨"a", Quorum.single, 0⟩).tryAcquire overtaken
      (.start MemoryStore.empty, Learner.empty) = (run.1, run.2.1, run.2.2) := rfl
  have hsound : (overtaken.learner (.start MemoryStore.empty, Learner.empty)).Sound :=
    Learner.sound_empty
  obtain ⟨-, htrue, -⟩ := tryAcquire_reports spares_overtaken hsound hrun
  obtain ⟨generation, -, htruthful⟩ := htrue .leading hok
  exact ⟨spares_overtaken, Learner.sound_empty, hok, generation, htruthful⟩

/-- What it reports is not true of the leadership: when it returns, the node does not lead. -/
theorem tryAcquire_reports_lost_leadership :
    let run := (new ⟨"a", Quorum.single, 0⟩).tryAcquire overtaken
      (.start MemoryStore.empty, Learner.empty)
    overtaken.Spares ∧ run.1 = .ok .leading ∧ run.2.1.state = .leading ∧
      (run.2.1.isLeader (overtaken.learner run.2.2)).1 = false ∧
      (overtaken.learner run.2.2).leader? = some (⟨1⟩, "b") := by
  intro run
  exact ⟨spares_overtaken, by decide, by decide, by decide, by decide⟩

end Candidate
end Synod
