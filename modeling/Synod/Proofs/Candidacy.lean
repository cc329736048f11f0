import Mathlib.Tactic.Lemma
import Synod.Leadership
import Synod.Proofs.Rounds

/-!
# The parts of an attempt

Between the parts of an attempt to become leader a candidate waits, and other things may happen:
while it asks the leader that it knows, and while its round goes on. `weigh` and `conclude` are
what it does after each of the two waits. `course_eq` and `stand_eq` put an attempt together from
its parts.
-/
namespace Synod.Candidate

variable {π ω : Type}

/-- What is done once it turned out whether the leader known is alive. -/
def weigh (known : Option (Slot × String)) (alive : Bool) (c : Candidate π) :
    Except Fault Course × Candidate π :=
  if alive then (.ok (.settled .notLeading), c.setState .notLeading)
  else match nextGeneration known with
    | .error o => (.error (.overflow o), c)
    | .ok generation => (.ok (.standing generation), c.setState .attempting)

/-- What is done once a value was chosen and the learner heard of it, or refused it. -/
def conclude (chosen : ProposalValue) (recorded : Except Failure Unit) (c : Candidate π) :
    Except Fault LeadershipState × Candidate π :=
  match recorded with
  | .error e => (.error (.failure e), c.setState .notLeading)
  | .ok () =>
    let outcome := if Text.ofBytesLossy chosen.payload = c.uuid then .leading else .notLeading
    (.ok outcome, c.setState outcome)

/-- Asks the leader known, if there is one, whether it is alive. -/
def hail (s : Surroundings π ω) (known : Option (Slot × String)) (c : Candidate π) (w : ω) :
    Bool × Candidate π × ω :=
  match known with
  | none => (false, c, w)
  | some (_, leader) => c.leaderIsAlive s leader w

@[simp] theorem uuid_setState (c : Candidate π) (state : LeadershipState) :
    (c.setState state).uuid = c.uuid := rfl

@[simp] theorem proposer_setState (c : Candidate π) (state : LeadershipState) :
    (c.setState state).proposer = c.proposer := rfl

theorem proposer_of_isLeader {l : Learner} {c c' : Candidate π} {leads : Bool}
    (h : c.isLeader l = (leads, c')) : c'.proposer = c.proposer := by
  unfold isLeader at h
  split at h
  · cases h
    rfl
  · split at h <;> cases h <;> rfl

theorem uuid_of_isLeader {l : Learner} {c c' : Candidate π} {leads : Bool}
    (h : c.isLeader l = (leads, c')) : c'.uuid = c.uuid :=
  congrArg Proposer.uuid (proposer_of_isLeader h)

theorem proposer_of_weigh {known : Option (Slot × String)} {alive : Bool} {c c' : Candidate π}
    {course : Except Fault Course} (h : c.weigh known alive = (course, c')) :
    c'.proposer = c.proposer := by
  unfold weigh at h
  split at h
  · cases h
    rfl
  · split at h <;> cases h <;> rfl

theorem uuid_of_weigh {known : Option (Slot × String)} {alive : Bool} {c c' : Candidate π}
    {course : Except Fault Course} (h : c.weigh known alive = (course, c')) : c'.uuid = c.uuid :=
  congrArg Proposer.uuid (proposer_of_weigh h)

/-- Nothing but a leader that is alive keeps a candidate from standing for a generation. -/
theorem settled_of_weigh {known : Option (Slot × String)} {alive : Bool} {state : LeadershipState}
    {c c' : Candidate π} (h : c.weigh known alive = (.ok (.settled state), c')) :
    alive = true ∧ state = .notLeading := by
  unfold weigh at h
  split at h
  · rename_i halive
    cases h
    exact ⟨halive, rfl⟩
  · split at h <;> cases h

theorem alive_of_standing {known : Option (Slot × String)} {alive : Bool} {generation : Slot}
    {c c' : Candidate π} (h : c.weigh known alive = (.ok (.standing generation), c')) :
    alive = false := by
  cases alive with
  | false => rfl
  | true => cases h

theorem proposer_of_conclude {chosen : ProposalValue} {recorded : Except Failure Unit}
    {c c' : Candidate π} {outcome : Except Fault LeadershipState}
    (h : c.conclude chosen recorded = (outcome, c')) : c'.proposer = c.proposer := by
  cases recorded <;> cases h <;> rfl

theorem uuid_of_conclude {chosen : ProposalValue} {recorded : Except Failure Unit}
    {c c' : Candidate π} {outcome : Except Fault LeadershipState}
    (h : c.conclude chosen recorded = (outcome, c')) : c'.uuid = c.uuid :=
  congrArg Proposer.uuid (proposer_of_conclude h)

/-- Whoever leads after a round is the one that was chosen. -/
theorem leading_of_conclude {chosen : ProposalValue} {recorded : Except Failure Unit}
    {c c' : Candidate π} (h : c.conclude chosen recorded = (.ok .leading, c')) :
    Text.ofBytesLossy chosen.payload = c.uuid := by
  cases recorded with
  | error e => cases h
  | ok u =>
    by_contra hother
    simp [conclude, hother] at h

/-- A node that leads is the one named by the greatest generation that its learner knows. -/
theorem isLeader_eq_true {l : Learner} {c : Candidate π} (h : (c.isLeader l).1 = true) :
    ∃ generation, l.leader? = some (generation, c.uuid) := by
  unfold isLeader at h
  split at h
  · rename_i hname
    obtain ⟨⟨generation, name⟩, hleader, rfl⟩ := Option.map_eq_some_iff.mp hname
    exact ⟨generation, hleader⟩
  · cases h

theorem isLeader_of_ne {l : Learner} {c : Candidate π} (h : l.leader?.map (·.2) ≠ some c.uuid) :
    c.isLeader l = (false, if c.state = .leading then c.setState .notLeading else c) :=
  if_neg h

theorem course_eq (s : Surroundings π ω) (c : Candidate π) (w : ω) :
    c.course s w =
      match c.isLeader (s.learner w) with
      | (true, c) => (.ok (.settled .leading), c.setState .leading, w)
      | (false, c) =>
        let (alive, c, w') := c.hail s (s.learner w).leader? w
        let (course, c) := c.weigh (s.learner w).leader? alive
        (course, c, w') := by
  unfold course
  rcases hleads : c.isLeader (s.learner w) with ⟨_ | _, c'⟩
  · simp only [hleads, hail, weigh]
    cases (s.learner w).leader? with
    | none => rfl
    | some known =>
      rcases halive : c'.leaderIsAlive s known.2 w with ⟨_ | _, c'', w'⟩
      · simp only [halive, Bool.false_eq_true, if_false]
        cases nextGeneration (some known) <;> rfl
      · simp only [halive, if_true]
  · simp only [hleads]

theorem stand_eq (s : Surroundings π ω) (c : Candidate π) (w : ω) (generation : Slot) :
    c.stand s generation w =
      match c.proposer.propose s.transport generation (Text.toBytes c.uuid) w with
      | (.error e, proposer, w) =>
        (.error (.failure e), { c with proposer }.setState .notLeading, w)
      | (.ok chosen, proposer, w) =>
        let (recorded, w) := s.record generation chosen w
        let (outcome, c) := { c with proposer }.conclude chosen recorded
        (outcome, c, w) := by
  unfold stand
  rcases c.proposer.propose s.transport generation (Text.toBytes c.uuid) w with
    ⟨_ | chosen, proposer, w₁⟩
  · rfl
  · rcases hrecord : s.record generation chosen w₁ with ⟨_ | _, w₂⟩ <;>
      simp only [conclude, hrecord]

section Names
variable {s : Surroundings π ω} {c c' : Candidate π} {w w' : ω}

theorem proposer_of_locate {uuid : String} {address : Option π}
    (h : c.locate s uuid w = (address, c', w')) : c'.proposer = c.proposer := by
  unfold locate at h
  split at h <;> cases h <;> rfl

theorem proposer_of_hail {known : Option (Slot × String)} {alive : Bool}
    (h : c.hail s known w = (alive, c', w')) : c'.proposer = c.proposer := by
  unfold hail leaderIsAlive at h
  split at h
  · cases h
    rfl
  · split at h
    all_goals
      rename_i hlocate
      cases h
      exact proposer_of_locate hlocate

theorem uuid_of_course {course : Except Fault Course} (h : c.course s w = (course, c', w')) :
    c'.uuid = c.uuid := by
  rw [course_eq] at h
  rcases hleads : c.isLeader (s.learner w) with ⟨_ | _, c₁⟩
  · rcases hhail : c₁.hail s (s.learner w).leader? w with ⟨alive, c₂, w₂⟩
    rcases hweigh : c₂.weigh (s.learner w).leader? alive with ⟨course', c₃⟩
    simp only [hleads, hhail, hweigh] at h
    cases h
    rw [uuid_of_weigh hweigh, uuid, proposer_of_hail hhail, proposer_of_isLeader hleads, uuid]
  · simp only [hleads] at h
    cases h
    exact (uuid_setState ..).trans (uuid_of_isLeader hleads)

theorem uuid_of_stand {generation : Slot} {outcome : Except Fault LeadershipState}
    (h : c.stand s generation w = (outcome, c', w')) : c'.uuid = c.uuid := by
  rw [stand_eq] at h
  rcases hpropose : c.proposer.propose s.transport generation (Text.toBytes c.uuid) w with
    ⟨_ | chosen, proposer, w₁⟩
  · simp only [hpropose] at h
    cases h
    exact (Proposer.propose_follows hpropose).uuid
  · rcases hrecord : s.record generation chosen w₁ with ⟨recorded, w₂⟩
    rcases hconclude : { c with proposer }.conclude chosen recorded with ⟨outcome', c₁⟩
    simp only [hpropose, hrecord, hconclude] at h
    cases h
    exact (uuid_of_conclude hconclude).trans (Proposer.propose_follows hpropose).uuid

end Names
end Synod.Candidate
