import Synod.Proofs.Election
import Synod.Proofs.Validity

/-!
# One leader per generation

The value that a learner holds for a generation has been chosen there, and so has the value that a
round for the generation returns: they name one node. It is a node that stood for the generation,
since the payload of every round is the name of the node that runs it.
-/
namespace Synod

theorem Assembly.Step.joined {σ : Type} [RecordStore σ] {view : StoreView σ} {quorum : Quorum}
    {size : Nat} {s t : Assembly σ} (h : Assembly.Step view quorum size s t) {u : String}
    (hu : ∃ p, s.proposers u = some p) : ∃ p, t.proposers u = some p := by
  have hset : ∀ v p, ∃ q, (s.setProposer v p).proposers u = some q := by
    intro v p
    by_cases hv : u = v
    · subst hv
      exact ⟨p, Function.update_self ..⟩
    · simpa only [Assembly.setProposer, Function.update_of_ne hv] using hu
  cases h with
  | join | start | overtake | offer | giveUp | finish => exact hset _ _
  | act | hearPromise | hearAcceptance => exact hu

namespace Election

variable {σ π : Type} {quorum : Quorum} {size : Nat} {s t : Election σ π}

/-- A node goes by this name. -/
def Named (s : Election σ π) (uuid : String) : Prop :=
  ∃ i node, s.nodes i = some node ∧ node.candidate.uuid = uuid

/-- The name of a generation's leader, as some learner has it or as some round returned it. -/
def Leads (s : Election σ π) (generation : Slot) (uuid : String) : Prop :=
  (∃ l v, (s.learners l).get? generation = some v ∧ Text.ofBytesLossy v.payload = uuid) ∨
  ∃ k r v, s.assembly.rounds k = some r ∧ r.slot = generation ∧ r.stage = .ended (.ok v) ∧
    Text.ofBytesLossy v.payload = uuid

variable [RecordStore σ] {view : StoreView σ}

/-- The invariant: names are proposed by those who bear them, and what is learned was chosen. -/
structure Sound (view : StoreView σ) (quorum : Quorum) (size : Nat) (s : Election σ π) :
    Prop where
  lawful : s.assembly.Lawful view quorum size
  own : ∀ {k r}, s.assembly.rounds k = some r →
    r.own = Text.toBytes r.proposer ∧ s.Named r.proposer
  learned : ∀ {l slot v}, (s.learners l).get? slot = some v →
    .accept slot v ∈ s.assembly.sent ∧ s.assembly.Chosen quorum size slot v
  joined : ∀ {i node}, s.nodes i = some node →
    ∃ p, s.assembly.proposers node.candidate.uuid = some p
  distinct : ∀ {i j a b}, s.nodes i = some a → s.nodes j = some b →
    a.candidate.uuid = b.candidate.uuid → i = j

theorem sound_init {stores : Nat → σ} (h : ∀ a, view.held (stores a) = fun _ => none) :
    Sound view quorum size (init stores : Election σ π) where
  lawful := Assembly.lawful_init h
  own h := by cases h
  learned h := by cases h
  joined h := by cases h
  distinct h := by cases h

omit [RecordStore σ] in
lemma nodes_setNode {i j : Nat} {node other : Node π} (h : (s.setNode i node).nodes j = some other) :
    (j = i ∧ other = node) ∨ (j ≠ i ∧ s.nodes j = some other) := by
  by_cases hj : j = i
  · subst hj
    simp only [setNode, Function.update_self, Option.some.injEq] at h
    exact .inl ⟨rfl, h.symm⟩
  · simp only [setNode, Function.update_of_ne hj] at h
    exact .inr ⟨hj, h⟩

namespace Sound

lemma setBid (h : Sound view quorum size s) (b : Nat) (bid : Option Bid) :
    Sound view quorum size (s.setBid b bid) :=
  ⟨h.lawful, h.own, h.learned, h.joined, h.distinct⟩

/-- The assembly goes on, and the rounds that it then has are of the right kind. -/
lemma setAssembly (h : Sound view quorum size s) {a : Assembly σ}
    (step : Assembly.Step view quorum size s.assembly a)
    (hown : ∀ {k r}, a.rounds k = some r → r.own = Text.toBytes r.proposer ∧ s.Named r.proposer) :
    Sound view quorum size (s.setAssembly a) where
  lawful := h.lawful.step step
  own := hown
  learned hv := ⟨step.grows.sent (h.learned hv).1, (h.learned hv).2.mono step.grows⟩
  joined hn := step.joined (h.joined hn)
  distinct := h.distinct

/-- A learner hears of a value that was chosen. -/
lemma setLearner (h : Sound view quorum size s) {l : Nat} {slot : Slot} {v : ProposalValue}
    (hv : .accept slot v ∈ s.assembly.sent ∧ s.assembly.Chosen quorum size slot v) :
    Sound view quorum size (s.setLearner l ((s.learners l).record slot v).2) where
  lawful := h.lawful
  own := h.own
  learned {l' slot' w} hw := by
    by_cases hl : l' = l
    · subst hl
      simp only [Election.setLearner, Function.update_self] at hw
      rcases Learner.eq_or_eq_of_get?_record hw with hw | ⟨rfl, rfl⟩
      · exact h.learned hw
      · exact hv
    · simp only [Election.setLearner, Function.update_of_ne hl] at hw
      exact h.learned hw
  joined := h.joined
  distinct := h.distinct

/-- A node changes, but not its name. -/
lemma setCandidate (h : Sound view quorum size s) {i : Nat} {node : Node π}
    (hn : s.nodes i = some node) {candidate : Candidate π}
    (hname : candidate.uuid = node.candidate.uuid) :
    Sound view quorum size (s.setNode i { node with candidate }) := by
  have hold : ∀ {j other}, (s.setNode i { node with candidate }).nodes j = some other →
      ∃ old, s.nodes j = some old ∧ other.candidate.uuid = old.candidate.uuid := by
    intro j other hj
    rcases nodes_setNode hj with ⟨rfl, rfl⟩ | ⟨_, hj⟩
    · exact ⟨node, hn, hname⟩
    · exact ⟨other, hj, rfl⟩
  refine ⟨h.lawful, fun hr => ?_, h.learned, fun hj => ?_, fun hj hk hsame => ?_⟩
  · obtain ⟨hown, j, other, hj, hu⟩ := h.own hr
    refine ⟨hown, ?_⟩
    by_cases hji : j = i
    · subst hji
      rw [hn] at hj
      cases hj
      exact ⟨j, _, Function.update_self .., hname.trans hu⟩
    · exact ⟨j, other, (Function.update_of_ne hji ..).trans hj, hu⟩
  · obtain ⟨old, hold, hu⟩ := hold hj
    exact hu ▸ h.joined hold
  · obtain ⟨_, ha, hua⟩ := hold hj
    obtain ⟨_, hb, hub⟩ := hold hk
    exact h.distinct ha hb (by rw [← hua, ← hub, hsame])

/-- A node appears whose name nobody had. -/
lemma boot (h : Sound view quorum size s) {i : Nat} (unused : s.nodes i = none) (node : Node π)
    {p : Proposer} (hp : s.assembly.proposers node.candidate.uuid = none)
    (step : Assembly.Step view quorum size s.assembly
      (s.assembly.setProposer node.candidate.uuid p)) :
    Sound view quorum size
      ((s.setAssembly (s.assembly.setProposer node.candidate.uuid p)).setNode i node) := by
  have hs := h.setAssembly step h.own
  have hnew : ∀ {j other}, s.nodes j = some other → j ≠ i ∧
      other.candidate.uuid ≠ node.candidate.uuid := by
    intro j other hj
    refine ⟨fun hji => ?_, fun hsame => ?_⟩
    · rw [hji, unused] at hj
      cases hj
    · obtain ⟨q, hq⟩ := h.joined hj
      rw [hsame, hp] at hq
      cases hq
  refine ⟨hs.lawful, fun hr => ?_, hs.learned, fun hj => ?_, fun hj hk hsame => ?_⟩
  · obtain ⟨hown, j, other, hj, hu⟩ := h.own hr
    exact ⟨hown, j, other, (Function.update_of_ne (hnew hj).1 ..).trans hj, hu⟩
  · rcases nodes_setNode hj with ⟨rfl, rfl⟩ | ⟨_, hj⟩
    · exact ⟨p, Function.update_self ..⟩
    · exact hs.joined hj
  · rcases nodes_setNode hj with ⟨rfl, rfl⟩ | ⟨_, hj'⟩ <;>
      rcases nodes_setNode hk with ⟨rfl, rfl⟩ | ⟨_, hk'⟩
    · rfl
    · exact absurd hsame.symm (hnew hk').2
    · exact absurd hsame (hnew hj').2
    · exact h.distinct hj' hk' hsame

/-- Every step keeps the invariant. -/
theorem step (h : Sound view quorum size s) (hstep : Step view quorum size s t) :
    Sound view quorum size t := by
  cases hstep with
  | proceed step quiet =>
    refine h.setAssembly step fun {k r} hr => ?_
    -- a round that is there afterwards was there before
    cases hold : s.assembly.rounds k with
    | none =>
      rw [quiet k hold] at hr
      cases hr
    | some old =>
      obtain ⟨r', hr', hcontinues⟩ := step.continues hold
      rw [hr] at hr'
      cases hr'
      rw [hcontinues.own, hcontinues.proposer]
      exact h.own hold
  | boot i l uuid floor unused unnamed made =>
    obtain ⟨_, rfl, _⟩ := Proposer.make_spec made
    exact h.boot unused ⟨.new _, l⟩ unnamed (.join _ floor unnamed made)
  | notify l k round ended => exact h.setLearner (h.lawful.chosen_of_ended round ended)
  | look i present looked =>
    exact h.setCandidate present (Candidate.uuid_of_isLeader looked)
  | tend i peers changed present => exact h.setCandidate present rfl
  | lead i present leads =>
    exact h.setCandidate present
      ((Candidate.uuid_setState ..).trans (Candidate.uuid_of_isLeader leads))
  | enter b i unused present behind =>
    exact (h.setCandidate present (Candidate.uuid_of_isLeader behind)).setBid ..
  | ask b pending part present => exact h.setBid ..
  | stay b pending part present asked weighed settled =>
    exact (h.setCandidate present (Candidate.uuid_of_weigh weighed)).setBid ..
  | @stand bid node known generation candidate p id after b k pending part present weighed unused
      joined fresh =>
    have hname := Candidate.uuid_of_weigh weighed
    refine ((h.setAssembly (.start k _ generation _ unused joined fresh) ?_).setCandidate
      present hname).setBid ..
    intro l r hr
    rcases Assembly.rounds_setRound hr with ⟨rfl, rfl⟩ | ⟨_, hr⟩
    · exact ⟨rfl, bid.node, node, present, hname.symm⟩
    · exact h.own hr
  | exhaust b pending part present weighed joined spent =>
    exact (h.setCandidate present
      ((Candidate.uuid_setState ..).trans (Candidate.uuid_of_weigh weighed))).setBid ..
  | fail b pending part present round ended =>
    exact (h.setCandidate present (Candidate.uuid_setState ..)).setBid ..
  | @conclude bid node k r v recorded learner outcome candidate b pending part present round ended
      record concluded =>
    have hs := h.setLearner (l := node.learner) (h.lawful.chosen_of_ended round ended)
    rw [record] at hs
    exact (hs.setCandidate present (Candidate.uuid_of_conclude concluded)).setBid ..
  | drop b => exact h.setBid ..

theorem reaches (h : Sound view quorum size s) (hreaches : Reaches view quorum size s t) :
    Sound view quorum size t := by
  induction hreaches with
  | refl => exact h
  | tail _ hstep ih => exact ih.step hstep

/-- Who is named as a leader has had its name chosen. -/
lemma chosen (h : Sound view quorum size s) {generation : Slot} {uuid : String}
    (hl : s.Leads generation uuid) :
    ∃ v, (.accept generation v ∈ s.assembly.sent ∧ s.assembly.Chosen quorum size generation v) ∧
      Text.ofBytesLossy v.payload = uuid := by
  rcases hl with ⟨l, v, hv, hname⟩ | ⟨k, r, v, hr, rfl, hended, hname⟩
  · exact ⟨v, h.learned hv, hname⟩
  · exact ⟨v, h.lawful.chosen_of_ended hr hended, hname⟩

/-- The name was brought in by the node that bears it. -/
lemma stood (h : Sound view quorum size s) {generation : Slot} {uuid : String}
    (hl : s.Leads generation uuid) :
    s.Named uuid ∧ ∃ k r, s.assembly.rounds k = some r ∧ r.slot = generation ∧
      r.proposer = uuid ∧ r.own = Text.toBytes uuid := by
  obtain ⟨v, ⟨hoffered, _⟩, hname⟩ := h.chosen hl
  obtain ⟨k, r, hr, hslot, hpayload⟩ := h.lawful.payload_origin hoffered
  obtain ⟨hown, hnamed⟩ := h.own hr
  have huuid : r.proposer = uuid := by
    rw [← hname, hpayload, hown, Text.ofBytesLossy_toBytes]
  exact ⟨huuid ▸ hnamed, k, r, hr, hslot, huuid, huuid ▸ hown⟩

/-- The leader that a learner knows is that of the generation it says. -/
lemma leads_of_leader? (h : Sound view quorum size s) {l : Nat} {generation : Slot} {uuid : String}
    (hl : (s.learners l).leader? = some (generation, uuid)) : s.Leads generation uuid := by
  obtain ⟨v, hgreatest, hv⟩ := Option.map_eq_some_iff.mp hl
  cases hv
  obtain ⟨slot, hget, _⟩ := SlotMap.greatest?_spec hgreatest
  obtain ⟨hslot, _⟩ := h.lawful.offers (h.learned hget).1
  exact .inl ⟨l, v, hslot ▸ hget, rfl⟩

end Sound

/-- What happens to the assembly in a step of the election is a step of the assembly, if anything. -/
lemma Step.assembly (h : Step view quorum size s t) :
    Assembly.Reaches view quorum size s.assembly t.assembly := by
  cases h with
  | proceed step => exact .single step
  | boot i l uuid floor unused unnamed made => exact .single (.join uuid floor unnamed made)
  | stand b k pending part present weighed unused joined fresh =>
    exact .single (.start k _ _ _ unused joined fresh)
  | _ => exact .refl

lemma Reaches.assembly (h : Reaches view quorum size s t) :
    Assembly.Reaches view quorum size s.assembly t.assembly := by
  induction h with
  | refl => exact .refl
  | tail _ hstep ih => exact ih.trans hstep.assembly

/-- A node keeps its name and its learner. -/
lemma Step.keeps (h : Step view quorum size s t) {i : Nat} {a : Node π} (ha : s.nodes i = some a) :
    ∃ b, t.nodes i = some b ∧ b.candidate.uuid = a.candidate.uuid ∧ b.learner = a.learner := by
  have hset : ∀ {j node} {candidate : Candidate π}, s.nodes j = some node →
      candidate.uuid = node.candidate.uuid →
      ∃ b, (s.setNode j { node with candidate }).nodes i = some b ∧
        b.candidate.uuid = a.candidate.uuid ∧ b.learner = a.learner := by
    intro j node candidate hj hname
    by_cases hij : i = j
    · subst hij
      rw [ha] at hj
      cases hj
      exact ⟨_, Function.update_self .., hname, rfl⟩
    · exact ⟨a, (Function.update_of_ne hij ..).trans ha, rfl, rfl⟩
  cases h with
  | proceed | notify | ask | drop => exact ⟨a, ha, rfl, rfl⟩
  | boot j l uuid floor unused =>
    have hij : i ≠ j := by
      rintro rfl
      rw [unused] at ha
      cases ha
    exact ⟨a, (Function.update_of_ne hij ..).trans ha, rfl, rfl⟩
  | look j present looked => exact hset present (Candidate.uuid_of_isLeader looked)
  | tend j peers changed present => exact hset present rfl
  | lead j present leads =>
    exact hset present ((Candidate.uuid_setState ..).trans (Candidate.uuid_of_isLeader leads))
  | enter b j unused present behind => exact hset present (Candidate.uuid_of_isLeader behind)
  | stay b pending part present asked weighed => exact hset present (Candidate.uuid_of_weigh weighed)
  | stand b k pending part present weighed => exact hset present (Candidate.uuid_of_weigh weighed)
  | exhaust b pending part present weighed =>
    exact hset present ((Candidate.uuid_setState ..).trans (Candidate.uuid_of_weigh weighed))
  | fail b pending part present => exact hset present (Candidate.uuid_setState ..)
  | conclude b pending part present round ended record concluded =>
    exact hset present (Candidate.uuid_of_conclude concluded)

theorem Reaches.keeps (h : Reaches view quorum size s t) {i : Nat} {a : Node π}
    (ha : s.nodes i = some a) :
    ∃ b, t.nodes i = some b ∧ b.candidate.uuid = a.candidate.uuid ∧ b.learner = a.learner := by
  induction h with
  | refl => exact ⟨a, ha, rfl, rfl⟩
  | tail _ hstep ih =>
    obtain ⟨b, hb, hname, hlearner⟩ := ih
    obtain ⟨c, hc, hname', hlearner'⟩ := hstep.keeps hb
    exact ⟨c, hc, hname'.trans hname, hlearner'.trans hlearner⟩

theorem Reachable.sound (h : Reachable view quorum size s) : Sound view quorum size s := by
  obtain ⟨stores, hstores, hreaches⟩ := h
  exact (sound_init hstores).reaches hreaches

/-- A generation has one leader, now and later. -/
lemma Sound.leader_unique (h : Sound view quorum size s) (later : Reaches view quorum size s t)
    {generation : Slot} {uuid uuid' : String} (hl : s.Leads generation uuid)
    (hl' : t.Leads generation uuid') : uuid = uuid' := by
  obtain ⟨v, ⟨hoffered, hchosen⟩, rfl⟩ := h.chosen hl
  have ht := h.reaches later
  obtain ⟨w, hw, rfl⟩ := ht.chosen hl'
  have hgrows := later.assembly.grows
  rw [ht.lawful.chosen_payload_eq ⟨hgrows.sent hoffered, hchosen.mono hgrows⟩ hw]

/-- Whatever learners hold and rounds return for a generation, now and later, names one node. That
node has stood for the generation. So two nodes that both lead, at the same time or not, lead
different generations. -/
theorem one_leader_per_generation (h : Reachable view quorum size s)
    (later : Reaches view quorum size s t) :
    (∀ generation uuid uuid', s.Leads generation uuid → t.Leads generation uuid' → uuid = uuid') ∧
    (∀ generation uuid, s.Leads generation uuid →
      s.Named uuid ∧ ∃ k r, s.assembly.rounds k = some r ∧ r.slot = generation ∧
        r.proposer = uuid ∧ r.own = Text.toBytes uuid) ∧
    ∀ i j a b, i ≠ j → s.nodes i = some a → t.nodes j = some b →
      (a.candidate.isLeader (s.learners a.learner)).1 = true →
      (b.candidate.isLeader (t.learners b.learner)).1 = true →
      (s.learners a.learner).leader?.map (·.1) ≠ (t.learners b.learner).leader?.map (·.1) := by
  have hs := h.sound
  have ht := hs.reaches later
  refine ⟨fun _ _ _ hl hl' => hs.leader_unique later hl hl', fun _ _ hl => hs.stood hl, ?_⟩
  intro i j a b hij ha hb hleads hleads' hsame
  obtain ⟨generation, hleader⟩ := Candidate.isLeader_eq_true hleads
  obtain ⟨generation', hleader'⟩ := Candidate.isLeader_eq_true hleads'
  rw [hleader, hleader'] at hsame
  cases hsame
  -- the names are equal, and by then the first node still has its own
  have hname := hs.leader_unique later (hs.leads_of_leader? hleader) (ht.leads_of_leader? hleader')
  obtain ⟨c, hc, hkept, _⟩ := later.keeps ha
  exact hij (ht.distinct hc hb (hkept.trans hname))

/-- A node wins the first generation. Another one hears of it but gets no answer to its ping, and
wins the next generation, of which the first node does not hear. Now both lead. -/
theorem one_leader_per_generation_two_leaders :
    ∃ s : Election MemoryStore Nat, Reachable MemoryStore.view Quorum.single 1 s ∧
      ∃ a b, s.nodes 0 = some a ∧ s.nodes 1 = some b ∧
        (a.candidate.isLeader (s.learners a.learner)).1 = true ∧
        (b.candidate.isLeader (s.learners b.learner)).1 = true ∧
        (s.learners a.learner).leader?.map (·.1) ≠ (s.learners b.learner).leader?.map (·.1) := by
  let v : ProposalValue := ⟨⟨0, "a"⟩, ⟨0⟩, Text.toBytes "a"⟩
  let w : ProposalValue := ⟨⟨0, "b"⟩, ⟨1⟩, Text.toBytes "b"⟩
  have init : Reaches MemoryStore.view Quorum.single 1
      (init fun _ => MemoryStore.empty : Election MemoryStore Nat) _ := .refl
  have a₁ := init.tail (.boot 0 0 "a" 0 rfl rfl rfl)
  have a₂ := a₁.tail (.enter 0 0 rfl rfl rfl)
  have a₃ := a₂.tail (.ask 0 rfl rfl rfl)
  have a₄ := a₃.tail (.stand 0 0 rfl rfl rfl rfl rfl rfl rfl)
  have a₅ := a₄.tail (.proceed (.act 0 (.request (.prepare ⟨0⟩ v.id)) (by decide) Assembly.asked_request)
    fun _ h => h)
  have a₆ := a₅.tail (.proceed (.hearPromise 0 0 (some (.give v.id none)) rfl rfl rfl (by decide)
    (by decide) fun p hp => by cases hp; decide) (Assembly.quiet_setRound rfl))
  have a₇ := a₆.tail (.proceed (.offer 0 rfl rfl rfl (.inl (by decide)) rfl)
    (Assembly.quiet_setRound rfl))
  have a₈ := a₇.tail (.proceed (.act 0 (.request (.accept ⟨0⟩ v)) (by decide) Assembly.asked_request)
    fun _ h => h)
  have a₉ := a₈.tail (.proceed (.hearAcceptance 0 0 (some ⟨true, v.id⟩) rfl rfl rfl (by decide)
    (by decide) fun x hx => by cases hx; decide) (Assembly.quiet_setRound rfl))
  have a₁₀ := a₉.tail (.proceed (.finish 0 rfl rfl rfl (.inl (by decide)) rfl)
    (Assembly.quiet_setRound rfl))
  have a := a₁₀.tail (.conclude 0 rfl rfl rfl rfl rfl rfl rfl)
  have b₁ := a.tail (.boot 1 1 "b" 0 rfl rfl rfl)
  have b₂ := b₁.tail (.notify 1 0 rfl rfl)
  have b₃ := b₂.tail (.enter 0 1 rfl rfl (Candidate.isLeader_of_ne (by decide)))
  have b₄ := b₃.tail (.ask 0 rfl rfl rfl)
  have b₅ := b₄.tail (.stand 0 1 rfl rfl rfl rfl rfl rfl rfl)
  have b₆ := b₅.tail (.proceed (.act 0 (.request (.prepare ⟨1⟩ w.id)) (by decide) Assembly.asked_request)
    fun _ h => h)
  have b₇ := b₆.tail (.proceed (.hearPromise 1 0 (some (.give w.id none)) rfl rfl rfl (by decide)
    (by decide) fun p hp => by cases hp; decide) (Assembly.quiet_setRound rfl))
  have b₈ := b₇.tail (.proceed (.offer 1 rfl rfl rfl (.inl (by decide)) rfl)
    (Assembly.quiet_setRound rfl))
  have b₉ := b₈.tail (.proceed (.act 0 (.request (.accept ⟨1⟩ w)) (by decide) Assembly.asked_request)
    fun _ h => h)
  have b₁₀ := b₉.tail (.proceed (.hearAcceptance 1 0 (some ⟨true, w.id⟩) rfl rfl rfl (by decide)
    (by decide) fun x hx => by cases hx; decide) (Assembly.quiet_setRound rfl))
  have b₁₁ := b₁₀.tail (.proceed (.finish 1 rfl rfl rfl (.inl (by decide)) rfl)
    (Assembly.quiet_setRound rfl))
  have b := b₁₁.tail (.conclude 0 rfl rfl rfl rfl rfl rfl rfl)
  have hs : Reachable MemoryStore.view Quorum.single 1 _ := ⟨_, fun _ => rfl, b⟩
  exact ⟨_, hs, _, _, rfl, rfl, by decide, by decide,
    (one_leader_per_generation hs .refl).2.2 0 1 _ _ (by decide) rfl rfl (by decide) (by decide)⟩

end Election
end Synod
