import Synod.Proofs.OneLeader
import Synod.Proofs.Propose

/-!
# Attempts as candidates make them

`Candidate.tryAcquire` makes an attempt from its start to its end, given the candidate's
surroundings. If all that they do on the way are steps of an election, then so is the attempt as a
whole. So what holds of elections holds of the nodes that run.
-/
namespace Synod

namespace Candidate
variable {π : Type}

/-- A candidate but for what its rounds did to its proposer. -/
def withProposer (c : Candidate π) (p : Proposer) : Candidate π := { c with proposer := p }

variable {c : Candidate π} {p : Proposer}

lemma isLeader_withProposer (h : c.uuid = p.uuid) (l : Learner) :
    (c.withProposer p).isLeader l = ((c.isLeader l).1, (c.isLeader l).2.withProposer p) := by
  have huuid : (c.withProposer p).uuid = c.uuid := h.symm
  unfold isLeader
  rw [huuid]
  split
  · rfl
  · rw [apply_ite (withProposer · p)]
    rfl

lemma weigh_withProposer (known : Option (Slot × String)) (alive : Bool) :
    (c.withProposer p).weigh known alive =
      ((c.weigh known alive).1, (c.weigh known alive).2.withProposer p) := by
  unfold weigh
  split
  · rfl
  · cases nextGeneration known <;> rfl

lemma conclude_withProposer (h : c.uuid = p.uuid) (chosen : ProposalValue)
    (recorded : Except Failure Unit) :
    (c.withProposer p).conclude chosen recorded =
      ((c.conclude chosen recorded).1, (c.conclude chosen recorded).2.withProposer p) := by
  have huuid : (c.withProposer p).uuid = c.uuid := h.symm
  cases recorded with
  | error e => rfl
  | ok u =>
    simp only [conclude, huuid]
    rfl

end Candidate

namespace Election
variable {σ π ω : Type}

/-- The node that makes the attempt: its number, its learner, the number of the attempt, and the
proposer as it was when the node was booted. What rounds did to the proposer since is told by the
assembly alone. -/
structure Seat where
  node : Nat
  learner : Nat
  bid : Nat
  proposer : Proposer

namespace Seat

/-- An election in which the candidate has the seat, and an attempt has come so far. -/
def host (x : Seat) (s : Election σ π) (c : Candidate π) (part : Option Part) : Election σ π :=
  (s.setNode x.node ⟨c.withProposer x.proposer, x.learner⟩).setBid x.bid
    (part.map fun part => ⟨x.node, part⟩)

/-- The same between rounds, when the proposer is where the candidate has it. -/
def present (x : Seat) (s : Election σ π) (c : Candidate π) (part : Option Part) :
    Election σ π :=
  x.host (s.setAssembly (s.assembly.setProposer x.proposer.uuid c.proposer)) c part

/-- An election to which the round that an attempt ran is added, if it ran one. -/
def withRound (e : Election σ π) (k : Nat) : Option Round → Election σ π
  | none => e
  | some r => e.setAssembly (e.assembly.setRound k r)

variable (x : Seat) (s : Election σ π) (c c' : Candidate π) (part part' : Option Part)

@[simp] theorem nodes_host :
    (x.host s c part).nodes x.node = some ⟨c.withProposer x.proposer, x.learner⟩ :=
  Function.update_self ..

@[simp] theorem bids_host :
    (x.host s c part).bids x.bid = part.map fun part => ⟨x.node, part⟩ := Function.update_self ..

@[simp] theorem nodes_present :
    (x.present s c part).nodes x.node = some ⟨c.withProposer x.proposer, x.learner⟩ := nodes_host ..

@[simp] theorem bids_present :
    (x.present s c part).bids x.bid = part.map fun part => ⟨x.node, part⟩ := bids_host ..

@[simp] theorem proposers_present :
    (x.present s c part).assembly.proposers x.proposer.uuid = some c.proposer :=
  Function.update_self ..

/-- The candidate and its attempt change. -/
theorem setBid_setNode_host :
    ((x.host s c part).setNode x.node ⟨c'.withProposer x.proposer, x.learner⟩).setBid x.bid
      (part'.map fun part => ⟨x.node, part⟩) = x.host s c' part' := by
  simp only [host, setNode, setBid, Function.update_idem]

variable {c c'}

theorem setBid_setNode_present (h : c'.proposer = c.proposer) :
    ((x.present s c part).setNode x.node ⟨c'.withProposer x.proposer, x.learner⟩).setBid x.bid
      (part'.map fun part => ⟨x.node, part⟩) = x.present s c' part' := by
  unfold present
  rw [setBid_setNode_host, h]

theorem setNode_present (h : c'.proposer = c.proposer) :
    (x.present s c part).setNode x.node ⟨c'.withProposer x.proposer, x.learner⟩ =
      x.present s c' part := by
  simp only [present, host, setNode, setBid, Function.update_idem, h]

theorem setBid_present : (x.present s c part).setBid x.bid (part'.map fun part => ⟨x.node, part⟩) =
    x.present s c part' := by
  simp only [present, host, setBid, Function.update_idem]

variable (c)
variable [RecordStore σ] (view : StoreView σ) (quorum : Quorum) (size : Nat)

/-- While its round goes on, a candidate waits. -/
def arena (shows : ω → Election σ π) (k : Nat) : Assembly.Arena view quorum size ω where
  shows w := (shows w).assembly
  Reaches y z := Reaches view quorum size
    (x.host ((shows y.1).setAssembly y.2) c (some (.standing k)))
    (x.host ((shows z.1).setAssembly z.2) c (some (.standing k)))
  refl _ := .refl
  trans h h' := h.trans h'
  lift _ _ _ h hquiet := .single (.proceed h hquiet)
  grows h := h.assembly.grows

/-- The world goes on while a leader is asked whether it is alive. -/
structure Waits (k : Nat) (s t : Election σ π) : Prop where
  reaches : ∀ (c : Candidate π) known, Reaches view quorum size
    (x.present s c (some (.asking known))) (x.present t c (some (.asking known)))
  unused : s.assembly.rounds k = none → t.assembly.rounds k = none

end Seat

variable [RecordStore σ]

/-- Surroundings that work by steps of the election shown. -/
structure Serves (view : StoreView σ) (quorum : Quorum) (size : Nat) (x : Seat) (k : Nat)
    (s : Surroundings π ω) (shows : ω → Election σ π) : Prop where
  learner : ∀ w, s.learner w = (shows w).learners x.learner
  ping : ∀ address w, x.Waits view quorum size k (shows w) (shows (s.ping address w).2)
  identify : ∀ address w, x.Waits view quorum size k (shows w) (shows (s.identify address w).2)
  carries : ∀ c, (x.arena c view quorum size shows k).Carries x.proposer.uuid k s.transport
  record : ∀ slot v w, (s.record slot v w).1 = (((shows w).learners x.learner).record slot v).1 ∧
    shows (s.record slot v w).2 =
      (shows w).setLearner x.learner (((shows w).learners x.learner).record slot v).2

namespace Seat
variable {view : StoreView σ} {quorum : Quorum} {size : Nat} {x : Seat} {k : Nat}
  {s : Surroundings π ω} {shows : ω → Election σ π}

lemma Waits.refl (e : Election σ π) : x.Waits view quorum size k e e := ⟨fun _ _ => .refl, id⟩

lemma Waits.trans {e e' e'' : Election σ π} (h : x.Waits view quorum size k e e')
    (h' : x.Waits view quorum size k e' e'') : x.Waits view quorum size k e e'' :=
  ⟨fun c known => (h.reaches c known).trans (h'.reaches c known), h'.unused ∘ h.unused⟩

/-- Asking peers for their names is to let the world go on. -/
lemma waits_refresh (hs : Serves view quorum size x k s shows) {index : Nat}
    {peers peers' : List (Peer π)} {w w' : ω} {restarted : List Nat}
    (h : Peer.refresh s.identify index peers w = (restarted, peers', w')) :
    x.Waits view quorum size k (shows w) (shows w') := by
  induction peers generalizing index w restarted peers' w' with
  | nil =>
    cases h
    exact .refl _
  | cons peer rest ih =>
    have hasked := hs.identify peer.address w
    unfold Peer.refresh at h
    rcases ha : s.identify peer.address w with ⟨answer, w₁⟩
    rcases hr : Peer.refresh s.identify (index + 1) rest w₁ with ⟨restarted', rest', w₂⟩
    rw [ha] at hasked
    have hall := hasked.trans (ih hr)
    simp only [ha, hr] at h
    cases answer <;> cases h <;> exact hall

/-- A candidate hears of its peers. -/
lemma reaches_tend (e : Election σ π) (c : Candidate π) (part : Option Part)
    (peers : List (Peer π)) :
    Reaches view quorum size (x.present e c part) (x.present e { c with peers } part) := by
  have hstep : Step view quorum size (x.present e c part) ((x.present e c part).setNode x.node
      ⟨Candidate.withProposer { c with peers } x.proposer, x.learner⟩) :=
    .tend x.node peers c.changed (x.nodes_present ..)
  rw [setNode_present] at hstep
  · exact .single hstep
  · rfl

/-- Asking for the leader known. -/
lemma reaches_locate (hs : Serves view quorum size x k s shows) {uuid : String} {c c' : Candidate π}
    {address : Option π} {w w' : ω} (h : c.locate s uuid w = (address, c', w'))
    (known : Option (Slot × String)) :
    Reaches view quorum size (x.present (shows w) c (some (.asking known)))
        (x.present (shows w') c' (some (.asking known))) ∧
      ((shows w).assembly.rounds k = none → (shows w').assembly.rounds k = none) := by
  unfold Candidate.locate at h
  split at h
  · cases h
    exact ⟨.refl, id⟩
  · rcases hr : Peer.refresh s.identify 0 c.peers w with ⟨restarted, peers, w₁⟩
    simp only [Candidate.refresh, hr] at h
    cases h
    have hwaits := waits_refresh hs hr
    exact ⟨(hwaits.reaches c known).trans (reaches_tend ..), hwaits.unused⟩

/-- Asking whether the leader known is alive. -/
lemma reaches_hail (hs : Serves view quorum size x k s shows) {known : Option (Slot × String)}
    {c c' : Candidate π} {alive : Bool} {w w' : ω} (h : c.hail s known w = (alive, c', w')) :
    Reaches view quorum size (x.present (shows w) c (some (.asking known)))
        (x.present (shows w') c' (some (.asking known))) ∧
      ((shows w).assembly.rounds k = none → (shows w').assembly.rounds k = none) ∧
      (alive = true → known.isSome) := by
  unfold Candidate.hail at h
  split at h
  · cases h
    exact ⟨.refl, id, Bool.noConfusion⟩
  · rename_i generation leader
    unfold Candidate.leaderIsAlive at h
    split at h
    · rename_i hlocate
      cases h
      obtain ⟨hreaches, hunused⟩ := reaches_locate hs hlocate (some (generation, leader))
      exact ⟨hreaches, hunused, fun _ => rfl⟩
    · rename_i address c₁ w₁ hlocate
      cases h
      obtain ⟨hreaches, hunused⟩ := reaches_locate hs hlocate (some (generation, leader))
      have hping := hs.ping address w₁
      exact ⟨hreaches.trans (hping.reaches ..), hping.unused ∘ hunused, fun _ => rfl⟩

section Parts
variable {e : Election σ π} {c c' : Candidate π}

omit [RecordStore σ] in
lemma isLeader_present (hname : c.uuid = x.proposer.uuid) {leads : Bool}
    (h : c.isLeader (e.learners x.learner) = (leads, c')) :
    (c.withProposer x.proposer).isLeader (e.learners x.learner) =
      (leads, c'.withProposer x.proposer) := by
  rw [Candidate.isLeader_withProposer hname, h]

omit [RecordStore σ] in
lemma weigh_present {known : Option (Slot × String)} {alive : Bool}
    {course : Except Fault Candidate.Course} (h : c.weigh known alive = (course, c')) :
    (c.withProposer x.proposer).weigh known alive = (course, c'.withProposer x.proposer) := by
  rw [Candidate.weigh_withProposer, h]

lemma reaches_lead (hname : c.uuid = x.proposer.uuid)
    (h : c.isLeader (e.learners x.learner) = (true, c')) :
    Reaches view quorum size (x.present e c none) (x.present e (c'.setState .leading) none) := by
  have hstep : Step view quorum size (x.present e c none) ((x.present e c none).setNode x.node
      ⟨(c'.setState .leading).withProposer x.proposer, x.learner⟩) :=
    .lead x.node (x.nodes_present ..) (isLeader_present hname h)
  have hsame := (Candidate.proposer_setState c' .leading).trans (Candidate.proposer_of_isLeader h)
  rw [setNode_present x e none hsame] at hstep
  exact .single hstep

/-- A node that does not lead asks for the leader it knows. -/
lemma reaches_ask (hname : c.uuid = x.proposer.uuid)
    (h : c.isLeader (e.learners x.learner) = (false, c')) :
    Reaches view quorum size (x.present e c none)
      (x.present e c' (some (.asking (e.learners x.learner).leader?))) := by
  have henter : Step view quorum size (x.present e c none)
      (((x.present e c none).setNode x.node ⟨c'.withProposer x.proposer, x.learner⟩).setBid x.bid
        ((some Part.behind).map fun part => ⟨x.node, part⟩)) :=
    .enter x.bid x.node (x.bids_present ..) (x.nodes_present ..) (isLeader_present hname h)
  have hask : Step view quorum size _ _ :=
    .ask x.bid (x.bids_present e c' (some .behind)) rfl (x.nodes_present ..)
  have hsame := Candidate.proposer_of_isLeader h
  rw [setBid_setNode_present x e none (some .behind) hsame] at henter
  rw [← setBid_present x e (some .behind) (some (.asking (e.learners x.learner).leader?))]
  exact (Relation.ReflTransGen.single henter).tail hask

/-- No round is run after all. -/
lemma reaches_stay {known : Option (Slot × String)} {alive : Bool}
    (hasked : alive = true → known.isSome) {course : Except Fault Candidate.Course}
    (h : c.weigh known alive = (course, c'))
    (hsettled : ∀ generation, course ≠ .ok (.standing generation)) :
    Reaches view quorum size (x.present e c (some (.asking known))) (x.present e c' none) := by
  have hweigh := weigh_present (x := x) h
  have hstep : Step view quorum size _ _ :=
    .stay x.bid (x.bids_present e c (some (.asking known))) rfl (x.nodes_present ..) hasked hweigh
      hsettled
  rw [← setBid_setNode_present x e (some (.asking known)) none (Candidate.proposer_of_weigh h)]
  exact .single hstep

/-- No round is left to run. -/
lemma reaches_exhaust {known : Option (Slot × String)} {generation : Slot}
    (h : c.weigh known false = (.ok (.standing generation), c')) {failure : Failure}
    (hspent : c'.proposer.nextId = .error failure) :
    Reaches view quorum size (x.present e c (some (.asking known)))
      (x.present e (c'.setState .notLeading) none) := by
  have hsame := Candidate.proposer_of_weigh h
  have hweigh := weigh_present (x := x) h
  rw [hsame] at hspent
  have hstep : Step view quorum size _ _ :=
    .exhaust x.bid (x.bids_present e c (some (.asking known))) rfl (x.nodes_present ..) hweigh
      (x.proposers_present ..) hspent
  rw [← setBid_setNode_present x e (some (.asking known)) none
    ((Candidate.proposer_setState c' .notLeading).trans hsame)]
  exact .single hstep

/-- A round is begun, and the candidate waits for it. -/
lemma reaches_begin {known : Option (Slot × String)} {generation : Slot}
    (h : c.weigh known false = (.ok (.standing generation), c'))
    (hunused : e.assembly.rounds k = none) {id : ProposalId} {after : Proposer}
    (hfresh : c'.proposer.nextId = .ok (id, after)) :
    Reaches view quorum size (x.present e c (some (.asking known)))
      (x.host (e.setAssembly ((e.assembly.setProposer x.proposer.uuid c'.proposer).begin size k
        x.proposer.uuid after id generation (Text.toBytes x.proposer.uuid))) c'
          (some (.standing k))) := by
  have hsame := Candidate.proposer_of_weigh h
  have hweigh := weigh_present (x := x) h
  rw [hsame] at hfresh
  have hstep : Step view quorum size _ _ :=
    .stand x.bid k (x.bids_present e c (some (.asking known))) rfl (x.nodes_present ..) hweigh
      hunused (x.proposers_present ..) hfresh
  rw [hsame, ← setBid_setNode_host x _ c c' (some (.asking known)) (some (.standing k))]
  exact .single hstep

/-- The round failed. -/
lemma reaches_fail {r : Round} (hr : e.assembly.rounds k = some r) {failure : Failure}
    (hended : r.stage = .ended (.error failure)) :
    Reaches view quorum size (x.host e c (some (.standing k)))
      (x.host e (c.setState .notLeading) none) := by
  have hstep : Step view quorum size _ _ :=
    .fail x.bid (x.bids_host e c (some (.standing k))) rfl (x.nodes_host ..) hr hended
  rw [← setBid_setNode_host x e c (c.setState .notLeading) (some (.standing k)) none]
  exact .single hstep

/-- The round succeeded, and the learner hears of it. -/
lemma reaches_conclude (hname : c.uuid = x.proposer.uuid) {r : Round}
    (hr : e.assembly.rounds k = some r) {chosen : ProposalValue}
    (hended : r.stage = .ended (.ok chosen)) {recorded : Except Failure Unit} {learner : Learner}
    (hrecord : (e.learners x.learner).record r.slot chosen = (recorded, learner))
    {outcome : Except Fault LeadershipState}
    (h : c.conclude chosen recorded = (outcome, c')) :
    Reaches view quorum size (x.host e c (some (.standing k)))
      (x.host (e.setLearner x.learner learner) c' none) := by
  have hconclude := Candidate.conclude_withProposer hname chosen recorded
  rw [h] at hconclude
  have hstep : Step view quorum size _ _ :=
    .conclude x.bid (x.bids_host e c (some (.standing k))) rfl (x.nodes_host ..) hr hended hrecord
      hconclude
  rw [← setBid_setNode_host x _ c c' (some (.standing k)) none]
  exact .single hstep

end Parts

/-- From the decision to stand for a generation to the end of the attempt. -/
lemma reaches_stand (hs : Serves view quorum size x k s shows) {c c' d : Candidate π}
    (hname : c'.uuid = x.proposer.uuid) {known : Option (Slot × String)} {generation : Slot}
    (hweigh : c.weigh known false = (.ok (.standing generation), c')) {w w' : ω}
    (hunused : (shows w).assembly.rounds k = none)
    {outcome : Except Fault LeadershipState} (h : c'.stand s generation w = (outcome, d, w')) :
    ∃ r, Reaches view quorum size (x.present (shows w) c (some (.asking known)))
        (x.present (withRound (shows w') k r) d none) ∧
      (outcome = .ok .leading →
        (x.present (withRound (shows w') k r) d none).Leads generation x.proposer.uuid) := by
  rw [Candidate.stand_eq] at h
  rcases hpropose : c'.proposer.propose s.transport generation (Text.toBytes c'.uuid) w with
    ⟨result, after, w₁⟩
  rcases hn : c'.proposer.nextId with failure | ⟨id, q⟩
  · have hspent := hpropose
    rw [Proposer.propose_of_spent hn] at hspent
    cases hspent
    simp only [hpropose] at h
    cases h
    exact ⟨none, reaches_exhaust hweigh hn, by simp⟩
  · obtain ⟨r, rfl, _, hstage, hround⟩ := Assembly.Arena.propose_reaches (hs.carries c') hn hpropose
    rw [hname] at hround
    have hwait := (reaches_begin (x := x) hweigh hunused hn).trans hround
    cases result with
    | error failure =>
      simp only [hpropose] at h
      cases h
      exact ⟨some r, hwait.trans (reaches_fail (Assembly.rounds_running ..) hstage), by simp⟩
    | ok chosen =>
      obtain ⟨hsaid, hheard⟩ := hs.record r.slot chosen w₁
      rcases hrecord : s.record r.slot chosen w₁ with ⟨recorded, w₂⟩
      rcases hconclude : { c' with proposer := after }.conclude chosen recorded with ⟨told, c₁⟩
      rw [hrecord] at hsaid hheard
      simp only [hpropose, hrecord, hconclude] at h
      cases h
      have hrenamed : Candidate.uuid { c' with proposer := after } = x.proposer.uuid :=
        (Proposer.propose_follows hpropose).uuid.trans hname
      have hkept : d.proposer = after := Candidate.proposer_of_conclude hconclude
      have hdone : Reaches view quorum size (x.host ((shows w₁).setAssembly
          ((shows w₁).assembly.running x.proposer.uuid k after r)) { c' with proposer := after }
            (some (.standing k))) _ :=
        reaches_conclude hrenamed (Assembly.rounds_running ..) hstage (Prod.ext hsaid.symm rfl)
          hconclude
      refine ⟨some r, hwait.trans ?_, fun hleading => ?_⟩
      · unfold present withRound
        rw [hheard, hkept]
        exact hdone
      · rw [hleading] at hconclude
        exact .inr ⟨k, r, chosen, Assembly.rounds_running .., rfl, hstage,
          (Candidate.leading_of_conclude hconclude).trans hrenamed⟩

/-- An attempt that a candidate makes is an attempt in the election. If the candidate leads
afterwards, then it is the leader of some generation there. -/
theorem tryAcquire_reaches (hs : Serves view quorum size x k s shows) {c d : Candidate π}
    (hname : c.uuid = x.proposer.uuid) {w w' : ω}
    (hstart : Reachable view quorum size (x.present (shows w) c none))
    (hunused : (shows w).assembly.rounds k = none)
    {outcome : Except Fault LeadershipState} (h : c.tryAcquire s w = (outcome, d, w')) :
    ∃ r, Reaches view quorum size (x.present (shows w) c none)
        (x.present (withRound (shows w') k r) d none) ∧
      (outcome = .ok .leading → ∃ generation,
        (x.present (withRound (shows w') k r) d none).Leads generation x.proposer.uuid) := by
  unfold Candidate.tryAcquire at h
  rw [Candidate.course_eq, hs.learner] at h
  rcases hlook : c.isLeader ((shows w).learners x.learner) with ⟨_ | _, c₁⟩
  · rcases hhail : c₁.hail s ((shows w).learners x.learner).leader? w with ⟨alive, c₂, w₁⟩
    rcases hweigh : c₂.weigh ((shows w).learners x.learner).leader? alive with ⟨course, c₃⟩
    simp only [hlook, hhail, hweigh] at h
    obtain ⟨hasking, hstill, hasked⟩ := reaches_hail hs hhail
    have hreached := (reaches_ask hname hlook).trans hasking
    rcases course with fault | state | generation
    · cases h
      exact ⟨none, hreached.trans (reaches_stay hasked hweigh (by simp)), by simp⟩
    · cases h
      obtain ⟨_, rfl⟩ := Candidate.settled_of_weigh hweigh
      exact ⟨none, hreached.trans (reaches_stay hasked hweigh (by simp)), by simp⟩
    · obtain rfl : alive = false := Candidate.alive_of_standing hweigh
      have hkept : c₃.uuid = x.proposer.uuid := by
        rw [Candidate.uuid_of_weigh hweigh, Candidate.uuid, Candidate.proposer_of_hail hhail,
          Candidate.proposer_of_isLeader hlook]
        exact hname
      obtain ⟨r, hstood, hleads⟩ := reaches_stand hs hkept hweigh (hstill hunused) h
      exact ⟨r, hreached.trans hstood, fun hleading => ⟨generation, hleads hleading⟩⟩
  · simp only [hlook] at h
    cases h
    refine ⟨none, reaches_lead hname hlook, fun _ => ?_⟩
    obtain ⟨generation, hleader⟩ := Candidate.isLeader_eq_true (congrArg Prod.fst hlook)
    rw [hname] at hleader
    have hsound := (hstart.sound).reaches (reaches_lead hname hlook)
    exact ⟨generation, hsound.leads_of_leader? hleader⟩

/-- A candidate that leads after an attempt is the only leader there will ever be of some
generation. -/
theorem sole_leader_of_tryAcquire (hs : Serves view quorum size x k s shows) {c d : Candidate π}
    (hname : c.uuid = x.proposer.uuid) {w w' : ω}
    (hstart : Reachable view quorum size (x.present (shows w) c none))
    (hunused : (shows w).assembly.rounds k = none)
    (h : c.tryAcquire s w = (.ok .leading, d, w')) :
    ∃ r generation, (x.present (withRound (shows w') k r) d none).Leads generation c.uuid ∧
      ∀ t uuid, Reaches view quorum size (x.present (withRound (shows w') k r) d none) t →
        t.Leads generation uuid → uuid = c.uuid := by
  obtain ⟨r, hreaches, hleads⟩ := tryAcquire_reaches hs hname hstart hunused h
  obtain ⟨generation, hleads⟩ := hleads rfl
  rw [← hname] at hleads
  refine ⟨r, generation, hleads, fun t uuid hlater hnamed => ?_⟩
  exact (((hstart.sound).reaches hreaches).leader_unique hlater hleads hnamed).symm

section Direct
variable (view size x)

/-- Surroundings without delays or losses, but for peers, which do not answer. -/
def direct : Surroundings π (Election σ π) where
  transport := (Assembly.direct view size).within (·.assembly) setAssembly
  learner w := w.learners x.learner
  record slot v w :=
    let (recorded, learner) := (w.learners x.learner).record slot v
    (recorded, w.setLearner x.learner learner)
  ping _ w := (none, w)
  identify _ w := (none, w)

theorem serves_direct (quorum : Quorum) (k : Nat) :
    Serves view quorum size x k (x.direct view size) (id : Election σ π → Election σ π) where
  learner _ := rfl
  ping _ _ := .refl _
  identify _ _ := .refl _
  carries c := by
    have hmoves : (x.arena c view quorum size id k).Moves x.proposer.uuid k (·.assembly)
        setAssembly :=
      { part_put := fun _ _ => rfl
        put_part := fun _ => rfl
        calls := fun _ => rfl
        sent := fun _ => rfl
        send := fun _ _ _ _ => .refl
        act := fun w a event ha hasked p r => by
          have hstep : Assembly.Step view quorum size (w.assembly.running x.proposer.uuid k p r)
              ((w.assembly.running x.proposer.uuid k p r).act a event) := .act a event ha hasked
          exact .single (.proceed hstep fun _ h => h) }
    exact hmoves.carries_direct
  record _ _ _ := ⟨rfl, rfl⟩

/-- With these surroundings a node that is alone with its acceptor leads at once. -/
example : ((Candidate.new ⟨"a", .single, 0⟩ : Candidate Nat).tryAcquire
    (direct MemoryStore.view 1 ⟨0, 0, 0, ⟨"a", .single, 0⟩⟩)
    (init fun _ => MemoryStore.empty)).1 = .ok .leading := by decide

end Direct

end Seat
end Election
end Synod
