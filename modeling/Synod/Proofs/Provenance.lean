import Synod.Proofs.Audience
import Synod.Proofs.Medley

/-!
# Where values come from

A value travels from a round to acceptors, from their promises to other rounds under other ids, and
from rounds that succeed to learners. `Audience.Occurs` lists the places where it can be found. Even
in a medley, where quorums need not meet, all it takes to know where such a value comes from is that
the accept requests sent have an `Assembly.Origin`.
-/
namespace Synod
open RecordStore

variable {σ : Type}

namespace Assembly

/-- A value names its slot. One round for the slot has its id, and one for the slot was to propose
its payload: the same round, or one whose value was adopted. -/
structure Origin (s : Assembly σ) (slot : Slot) (v : ProposalValue) : Prop where
  named : v.slot = slot
  numbered : ∃ k r, s.rounds k = some r ∧ r.slot = slot ∧ r.id = v.id
  brought : ∃ k r, s.rounds k = some r ∧ r.slot = slot ∧ r.own = v.payload

variable {s t : Assembly σ}

lemma Origin.mono (he : Extends s t) {slot : Slot} {v : ProposalValue} (h : s.Origin slot v) :
    t.Origin slot v := by
  obtain ⟨hnamed, ⟨k, r, hr, hslot, hid⟩, l, q, hq, hslot', hown⟩ := h
  obtain ⟨r', hr', hc⟩ := he.continues hr
  obtain ⟨q', hq', hc'⟩ := he.continues hq
  exact ⟨hnamed, ⟨k, r', hr', hc.slot.trans hslot, hc.id.trans hid⟩,
    l, q', hq', hc'.slot.trans hslot', hc'.own.trans hown⟩

end Assembly

/-- What a round has heard was said to it, and the value that it has offered or returned was sent. -/
def Stage.Rooted (s : Assembly σ) (slot : Slot) (id : ProposalId) : Stage → Prop
  | preparing _ tally => ∀ p ∈ tally.agreed, ∃ a, s.Promised slot id a p
  | accepting value _ _ => .accept slot value ∈ s.sent
  | ended (.ok value) => .accept slot value ∈ s.sent
  | ended (.error _) => True

lemma Stage.Rooted.mono {s t : Assembly σ} (hg : s.Grows t) {slot : Slot} {id : ProposalId}
    {stage : Stage} (h : stage.Rooted s slot id) : stage.Rooted t slot id := by
  rcases stage with ⟨awaited, tally⟩ | ⟨value, awaited, tally⟩ | ⟨e | value⟩
  · intro p hp
    obtain ⟨a, ha⟩ := h p hp
    exact ⟨a, ha.mono hg⟩
  · exact hg.sent h
  · trivial
  · exact hg.sent h

namespace Assembly
variable [RecordStore σ] {view : StoreView σ} {asks : String → List Nat} {s t : Assembly σ}

/-- The invariant of all medleys. -/
structure Rooted (view : StoreView σ) (s : Assembly σ) : Prop where
  accounts : ∀ a, (s.acceptors a).Accounts view s.sent (s.calls a)
  named : ∀ {u p}, s.proposers u = some p → p.uuid = u
  /-- Every id in use is its proposer's own, and its proposer is past it. -/
  used : ∀ {k r}, s.rounds k = some r → r.id.tiebreaker = r.proposer ∧
    ∃ p, s.proposers r.proposer = some p ∧ r.id.round < p.nextRound
  distinct : ∀ {k l r r'}, s.rounds k = some r → s.rounds l = some r' → r.id = r'.id → k = l
  staged : ∀ {k r}, s.rounds k = some r → r.stage.Rooted s r.slot r.id
  offers : ∀ {slot v}, .accept slot v ∈ s.sent → s.Origin slot v

theorem rooted_init {stores : Nat → σ} (h : ∀ a, view.held (stores a) = fun _ => none) :
    Rooted view (init stores) where
  accounts a := Acceptor.accounts_start (h a)
  named h := by cases h
  used h := by cases h
  distinct h := by cases h
  staged h := by cases h
  offers h := by cases h

namespace Rooted

lemma setProposer (h : Rooted view s) {u : String} {p : Proposer} (hp : p.uuid = u)
    (hnext : ∀ old, s.proposers u = some old → old.nextRound ≤ p.nextRound) :
    Rooted view (s.setProposer u p) := by
  have he := (Extends.refl s).setProposer u p
  refine { accounts := h.accounts, named := ?_, used := ?_, distinct := h.distinct,
           staged := fun hr => (h.staged hr).mono he.grows,
           offers := fun hv => (h.offers hv).mono he }
  · intro v q hq
    rcases proposers_setProposer hq with ⟨rfl, rfl⟩ | ⟨_, hq⟩
    · exact hp
    · exact h.named hq
  · intro k r hr
    obtain ⟨htie, hpast⟩ := h.used hr
    exact ⟨htie, past_setProposer hnext hpast⟩

/-- A proposer that is there already moves its counter on. -/
lemma follow (h : Rooted view s) {u : String} {p q : Proposer} (hp : s.proposers u = some p)
    (hq : p.Follows q) : Rooted view (s.setProposer u q) := by
  refine h.setProposer (hq.uuid.trans (h.named hp)) fun old hold => ?_
  rw [hp] at hold
  cases hold
  exact hq.nextRound

/-- A request is sent; a value in it has an origin. -/
lemma send (h : Rooted view s) {r : Request} (hr : ∀ slot v, r = .accept slot v → s.Origin slot v) :
    Rooted view (s.send r) := by
  have he := (Extends.refl s).send r
  refine { accounts := fun a => (h.accounts a).mono he.grows.sent, named := h.named, used := h.used,
           distinct := h.distinct, staged := fun hr => (h.staged hr).mono he.grows,
           offers := fun {slot v} hv => ?_ }
  have horigin : s.Origin slot v := by
    rcases List.mem_cons.mp hv with hv | hv
    · exact hr slot v hv.symm
    · exact h.offers hv
  exact horigin.mono he

/-- A round gets further. -/
lemma setStage (h : Rooted view s) {k : Nat} {r : Round} (hr : s.rounds k = some r) {stage : Stage}
    (hstage : stage.Rooted s r.slot r.id) : Rooted view (s.setRound k { r with stage }) := by
  have he := (Extends.refl s).setStage hr stage
  refine { accounts := h.accounts, named := h.named, used := ?_,
           distinct := distinct_restage (fun _ _ _ _ => h.distinct) hr, staged := ?_,
           offers := fun hv => (h.offers hv).mono he }
  · intro l r' hr'
    obtain ⟨old, hold, hid, hproposer⟩ := rounds_restage hr hr'
    rw [hid, hproposer]
    exact h.used hold
  · intro l r' hr'
    rcases rounds_setRound hr' with ⟨rfl, rfl⟩ | ⟨_, hr'⟩
    · exact hstage.mono he.grows
    · exact (h.staged hr').mono he.grows

/-- A round is added under an id that its proposer has just used up. -/
lemma addRound (h : Rooted view s) {k : Nat} {r : Round} {p after : Proposer}
    (hunused : s.rounds k = none) (hknown : s.proposers r.proposer = some p)
    (hfresh : p.nextId = .ok (r.id, after)) (hstage : r.stage.Rooted s r.slot r.id) :
    Rooted view ((s.setProposer r.proposer after).setRound k r) := by
  obtain ⟨hid, hfollows, hlt⟩ := Proposer.nextId_spec hfresh
  have hname := h.named hknown
  have hafter := h.follow hknown hfollows
  have he := ((Extends.refl s).setProposer r.proposer after).addRound hunused r
  have hnew : ∀ l r', s.rounds l = some r' → r'.id ≠ r.id := fun l r' hr' =>
    id_ne_of_nextId (h.used hr') (hname ▸ hknown) hfresh
  refine { accounts := hafter.accounts, named := hafter.named, used := ?_,
           distinct := distinct_addRound (fun _ _ _ _ => hafter.distinct) hnew, staged := ?_,
           offers := fun hv => (h.offers hv).mono he }
  · intro l r' hr'
    rcases rounds_setRound hr' with ⟨rfl, rfl⟩ | ⟨_, hr'⟩
    · exact ⟨by rw [hid, hname], after, Function.update_self .., by rw [hid]; exact hlt⟩
    · exact hafter.used hr'
  · intro l r' hr'
    rcases rounds_setRound hr' with ⟨rfl, rfl⟩ | ⟨_, hr'⟩
    · exact hstage.mono he.grows
    · exact (h.staged hr').mono he.grows

lemma act (h : Rooted view s) {a : Nat} {e : Acceptor.Event view}
    (hsent : ∀ r, e.request? = some r → r ∈ s.sent) : Rooted view (s.act a e) := by
  have he := (Extends.refl s).act a e
  exact { accounts := accounts_act h.accounts hsent, named := h.named, used := h.used,
          distinct := h.distinct, staged := fun hr => (h.staged hr).mono he.grows,
          offers := fun hv => (h.offers hv).mono he }

/-- What a promise reports was sent. -/
lemma sent_of_promised (h : Rooted view s) {slot : Slot} {id : ProposalId} {a : Nat} {p : Promise}
    (hp : s.Promised slot id a p) {v : ProposalValue} (hv : p.priorValue = some v) :
    .accept slot v ∈ s.sent := by
  obtain ⟨prior, rfl, hprior, _⟩ := ((h.accounts a).believed slot).reports hp.1 hp.2
  exact (hprior v hv).2

/-- The value that a round concludes upon has the round's id. Its payload is the round's own, or
that of a value that some promise reports. -/
lemma origin_of_closed (h : Rooted view s) {k : Nat} {r : Round} (hr : s.rounds k = some r)
    {awaited : Finset Nat} {tally : Tally Promise} (hstage : r.stage = .preparing awaited tally)
    {p after : Proposer} {v : ProposalValue}
    (hclosed : p.afterPrepare r.slot r.id r.own tally = (.ok v, after)) : s.Origin r.slot v := by
  obtain ⟨_, hok, _⟩ := Proposer.afterPrepare_spec hclosed
  obtain ⟨_, rfl⟩ := hok v rfl
  refine ⟨rfl, ⟨k, r, hr, rfl, rfl⟩, ?_⟩
  rcases resolvePayload_cases tally.agreed r.own with
    ⟨hown, _⟩ | ⟨p, hp, best, hbest, hresolve, _⟩
  · exact ⟨k, r, hr, rfl, hown.symm⟩
  · have hheard := h.staged hr
    rw [hstage] at hheard
    obtain ⟨a, hpromised⟩ := hheard p hp
    have hsent := h.sent_of_promised hpromised (Promise.reported?_eq_some_iff.mp hbest).priorValue
    obtain ⟨l, q, hq, hslot, hown⟩ := (h.offers hsent).brought
    exact ⟨l, q, hq, hslot, hown.trans hresolve.symm⟩

/-- A step sends only what had its origin before the step. -/
theorem origin_of_sent (h : Rooted view s) (hstep : MedleyStep view asks s t) {slot : Slot}
    {v : ProposalValue} (hv : .accept slot v ∈ t.sent) : s.Origin slot v := by
  cases hstep with
  | join | overtake | act | hearPromise | hearAcceptance | giveUp | finish => exact h.offers hv
  | start =>
    rcases List.mem_cons.mp hv with hv | hv
    · cases hv
    · exact h.offers hv
  | offer k round stage known decided closed =>
    rcases List.mem_cons.mp hv with hv | hv
    · cases hv
      exact h.origin_of_closed round stage closed
    · exact h.offers hv

/-- Every step keeps the invariant. -/
theorem step (h : Rooted view s) (hstep : MedleyStep view asks s t) : Rooted view t := by
  cases hstep with
  | join uuid quorum floor unused made =>
    refine h.setProposer (Proposer.make_spec made).2.1 fun old hold => ?_
    rw [unused] at hold
    cases hold
  | @start p id after k uuid slot own unused known fresh =>
    have hempty : Stage.Rooted s slot id (.preparing (Finset.range (asks uuid).length) Tally.empty) :=
      nofun
    exact (h.addRound (r := ⟨uuid, id, slot, own, _⟩) unused known fresh hempty).send nofun
  | overtake uuid seen known => exact h.follow known (Proposer.follows_fastForward _ seen)
  | act a e asked => exact h.act asked
  | hearPromise k i a answer round stage known undecided awaits place heard =>
    have hheard := h.staged round
    rw [stage] at hheard
    refine h.setStage round fun p hp => ?_
    rw [Tally.agreed_add, List.mem_append, List.mem_filter, Option.mem_toList] at hp
    rcases hp with hp | ⟨hp, hagrees⟩
    · exact hheard p hp
    · exact ⟨a, heard p hp, hagrees⟩
  | hearAcceptance k i a answer round stage known undecided awaits place heard =>
    have hsent := h.staged round
    rw [stage] at hsent
    exact h.setStage round hsent
  | @offer r p awaited tally value after k round stage known decided closed =>
    have hafter := h.follow known (Proposer.afterPrepare_spec closed).1
    have horigin : (s.setProposer r.proposer after).Origin r.slot value :=
      (h.origin_of_closed round stage closed).mono ((Extends.refl s).setProposer ..)
    have hrequest : ∀ slot w, Request.accept r.slot value = .accept slot w →
        (s.setProposer r.proposer after).Origin slot w := by
      intro slot w hw
      cases hw
      exact horigin
    -- it does not matter which comes first, the request or the new stage
    exact (hafter.send hrequest).setStage round List.mem_cons_self
  | giveUp k round stage known decided closed =>
    exact (h.follow known (Proposer.afterPrepare_spec closed).1).setStage round trivial
  | @finish r p value awaited tally outcome after k round stage known decided closed =>
    obtain ⟨hfollows, hok, _⟩ := Proposer.afterAccept_spec closed
    have hsent := h.staged round
    rw [stage] at hsent
    refine (h.follow known hfollows).setStage round ?_
    cases outcome with
    | error e => trivial
    | ok v =>
      obtain ⟨_, rfl⟩ := hok v rfl
      exact hsent

end Rooted

theorem MedleyStep.extends (h : MedleyStep view asks s t) : Extends s t := by
  have hs := Extends.refl s
  cases h with
  | join | overtake => exact hs.setProposer ..
  | act a e => exact hs.act a e
  | start k uuid slot own unused => exact ((hs.setProposer ..).addRound unused _).send _
  | hearPromise k i a answer round => exact hs.setStage round _
  | hearAcceptance k i a answer round => exact hs.setStage round _
  | offer k round => exact ((hs.setProposer ..).setStage round _).send _
  | giveUp k round => exact (hs.setProposer ..).setStage round _
  | finish k round => exact (hs.setProposer ..).setStage round _

/-- One proposer asks acceptor 0 alone, another one asks acceptors 0 and 1, the latter twice. The
second adopts what the first has had accepted, and gets it accepted twice by acceptor 1. -/
lemma exists_adoption :
    ∃ asks s, asks "a" = [0] ∧ asks "b" = [0, 1, 1] ∧
      Relation.ReflTransGen (MedleyStep MemoryStore.view asks) (init fun _ => MemoryStore.empty) s ∧
      s.rounds 1 = some ⟨"b", ⟨0, "b"⟩, ⟨7⟩, [2], .ended (.ok ⟨⟨0, "b"⟩, ⟨7⟩, [1]⟩)⟩ := by
  let two : Quorum := ⟨3, 2, 2, ⟨by decide, by decide, by decide, by decide⟩⟩
  let v : ProposalValue := ⟨⟨0, "a"⟩, ⟨7⟩, [1]⟩
  let w : ProposalValue := ⟨⟨0, "b"⟩, ⟨7⟩, [1]⟩
  have init : Relation.ReflTransGen (MedleyStep MemoryStore.view
    fun u => if u = "a" then [0] else [0, 1, 1]) (init fun _ => MemoryStore.empty) _ := .refl
  have a₁ := init.tail (.join "a" .single 0 rfl rfl)
  have a₂ := a₁.tail (.start 0 "a" ⟨7⟩ [1] rfl rfl rfl)
  have a₃ := a₂.tail (.act 0 (.request (.prepare ⟨7⟩ v.id)) asked_request)
  have a₄ := a₃.tail (.hearPromise 0 0 0 (some (.give v.id none)) rfl rfl rfl (by decide)
    (by decide) rfl fun p hp => by cases hp; decide)
  have a₅ := a₄.tail (.offer 0 rfl rfl rfl (.inl (by decide)) rfl)
  have a₆ := a₅.tail (.act 0 (.request (.accept ⟨7⟩ v)) asked_request)
  have b₁ := a₆.tail (.join "b" two 0 rfl rfl)
  have b₂ := b₁.tail (.start 1 "b" ⟨7⟩ [2] rfl rfl rfl)
  have b₃ := b₂.tail (.act 0 (.request (.prepare ⟨7⟩ w.id)) asked_request)
  have b₄ := b₃.tail (.act 1 (.request (.prepare ⟨7⟩ w.id)) asked_request)
  have b₅ := b₄.tail (.hearPromise 1 0 0 (some (.give w.id (some v))) rfl rfl rfl (by decide)
    (by decide) rfl fun p hp => by cases hp; decide)
  have b₆ := b₅.tail (.hearPromise 1 1 1 (some (.give w.id none)) rfl rfl rfl (by decide)
    (by decide) rfl fun p hp => by cases hp; decide)
  have b₇ := b₆.tail (.offer 1 rfl rfl rfl (.inl (by decide)) rfl)
  have b₈ := b₇.tail (.act 1 (.request (.accept ⟨7⟩ w)) asked_request)
  have b₉ := b₈.tail (.hearAcceptance 1 1 1 (some ⟨true, w.id⟩) rfl rfl rfl (by decide) (by decide)
    rfl fun x hx => by cases hx; decide)
  have b₁₀ := b₉.tail (.hearAcceptance 1 2 1 (some ⟨true, w.id⟩) rfl rfl rfl (by decide) (by decide)
    rfl fun x hx => by cases hx; decide)
  have b₁₁ := b₁₀.tail (.finish 1 rfl rfl rfl (.inl (by decide)) rfl)
  exact ⟨_, _, rfl, rfl, b₁₁, rfl⟩

end Assembly

namespace Audience
variable [RecordStore σ] {view : StoreView σ} {asks : String → List Nat} {s t u : Audience σ}

/-- Where a value can be found for a slot. -/
inductive Occurs (view : StoreView σ) (s : Audience σ) (slot : Slot) (v : ProposalValue) : Prop
  /-- It is in an accept request. -/
  | sent (h : .accept slot v ∈ s.assembly.sent)
  /-- It is in the record that an acceptor has in its store. -/
  | stored (a : Nat) (h : ((s.assembly.acceptors a).durable view slot).bind (·.accepted) = some v)
  /-- It is in the record that an acceptor goes by. -/
  | believed (a : Nat)
      (h : ((s.assembly.acceptors a).believes view slot).bind (·.accepted) = some v)
  /-- A promise that was given reports it. -/
  | promised (a : Nat) {id : ProposalId} {p : Promise} (given : s.assembly.Promised slot id a p)
      (h : p.priorValue = some v)
  /-- A round has returned it. -/
  | returned (k : Nat) {r : Round} (round : s.assembly.rounds k = some r) (under : r.slot = slot)
      (h : r.stage = .ended (.ok v))
  /-- A learner was told of it, whatever the learner made of that. -/
  | told {e : Telling} (h : e ∈ s.tellings) (under : e.slot = slot) (what : e.value = v)
  | learned (l : Nat) (h : (s.learners l).get? slot = some v)

/-- The invariant: learners have heard only of what was sent. -/
structure Rooted (view : StoreView σ) (s : Audience σ) : Prop where
  rooted : s.assembly.Rooted view
  told : ∀ {e}, e ∈ s.tellings → .accept e.slot e.value ∈ s.assembly.sent
  learned : ∀ {l slot v}, (s.learners l).get? slot = some v → .accept slot v ∈ s.assembly.sent

theorem rooted_init {stores : Nat → σ} (h : ∀ a, view.held (stores a) = fun _ => none) :
    Rooted view (init stores) where
  rooted := Assembly.rooted_init h
  told h := by cases h
  learned h := by cases h

namespace Rooted

/-- Wherever a value occurs, it was sent. -/
theorem sent_of_occurs (h : Rooted view s) {slot : Slot} {v : ProposalValue}
    (hv : s.Occurs view slot v) : .accept slot v ∈ s.assembly.sent := by
  cases hv with
  | sent hv => exact hv
  | stored a hv => exact ((h.rooted.accounts a).kept slot).offered hv
  | believed a hv => exact ((h.rooted.accounts a).believed slot).offered hv
  | promised a given hv => exact h.rooted.sent_of_promised given hv
  | returned k round hslot hv =>
    have hsent := h.rooted.staged round
    rw [hv, hslot] at hsent
    exact hsent
  | told hv hslot hvalue => exact hslot ▸ hvalue ▸ h.told hv
  | learned l hv => exact h.learned hv

lemma tell (h : Rooted view s) {slot : Slot} {v : ProposalValue}
    (hv : .accept slot v ∈ s.assembly.sent) (l : Nat) : Rooted view (s.tell l slot v) := by
  refine ⟨h.rooted, fun {e} he => ?_, fun {l' slot' w} hw => ?_⟩
  · rcases List.mem_cons.mp he with rfl | he
    · exact hv
    · exact h.told he
  · rcases eq_or_eq_of_get?_tell hw with hw | ⟨rfl, rfl⟩
    · exact h.learned hw
    · exact hv

/-- Every step keeps the invariant. -/
theorem step (h : Rooted view s) (hstep : Step (Assembly.MedleyStep view asks) s t) :
    Rooted view t := by
  cases hstep with
  | proceed step =>
    have hsent := step.extends.grows.sent
    exact ⟨h.rooted.step step, fun he => hsent (h.told he), fun hv => hsent (h.learned hv)⟩
  | tell l k round ended => exact h.tell (h.sent_of_occurs (.returned k round rfl ended)) l

theorem reaches (h : Rooted view s) (hreaches : Reaches (Assembly.MedleyStep view asks) s t) :
    Rooted view t := by
  induction hreaches with
  | refl => exact h
  | tail _ hstep ih => exact ih.step hstep

end Rooted

theorem Reachable.rooted (h : Reachable view (Assembly.MedleyStep view asks) s) :
    Rooted view s := by
  obtain ⟨stores, hstores, hreaches⟩ := h
  exact (rooted_init hstores).reaches hreaches

theorem Reaches.extends (h : Reaches (Assembly.MedleyStep view asks) s t) :
    s.assembly.Extends t.assembly := by
  induction h with
  | refl => exact .refl _
  | tail _ hstep ih =>
    cases hstep with
    | proceed step => exact ih.trans step.extends
    | tell => exact ih

/-- Validity. A value that occurs for a slot after a step, in a medley and among its learners, names
this slot. Its payload was to be proposed for this slot by a round that had begun before the step. So
had a round for this slot that has the value's id, and no other round has that id, ever. -/
theorem values_have_origin (h : Reachable view (Assembly.MedleyStep view asks) s)
    (hstep : Step (Assembly.MedleyStep view asks) s t)
    (later : Reaches (Assembly.MedleyStep view asks) t u) {slot : Slot} {v : ProposalValue}
    (hv : t.Occurs view slot v) :
    v.slot = slot ∧
    (∃ k r, s.assembly.rounds k = some r ∧ r.slot = slot ∧ r.own = v.payload) ∧
    ∃ k r, s.assembly.rounds k = some r ∧ r.slot = slot ∧ r.id = v.id ∧
      ∀ l r', u.assembly.rounds l = some r' → r'.id = v.id → l = k := by
  have hs := h.rooted
  have ht := hs.step hstep
  have hu := ht.reaches later
  have hsent := ht.sent_of_occurs hv
  have horigin : s.assembly.Origin slot v := by
    cases hstep with
    | proceed step => exact hs.rooted.origin_of_sent step hsent
    | tell => exact hs.rooted.offers hsent
  obtain ⟨hslot, ⟨k, r, hr, hrslot, hid⟩, hbrought⟩ := horigin
  refine ⟨hslot, hbrought, k, r, hr, hrslot, hid, fun l r' hr' hid' => ?_⟩
  have hall : Reaches (Assembly.MedleyStep view asks) s u := .head hstep later
  obtain ⟨r'', hr'', hc⟩ := hall.extends.continues hr
  exact hu.rooted.distinct hr' hr'' (by rw [hid', hc.id, hid])

/-- A learner is told of a value that a round has adopted: the round had another payload of its own,
and the payload of the value was that of an earlier round, although their quorums do not meet. -/
theorem values_have_origin_adopted :
    ∃ asks s t, Reachable MemoryStore.view (Assembly.MedleyStep MemoryStore.view asks) s ∧
      Step (Assembly.MedleyStep MemoryStore.view asks) s t ∧
      (t.learners 0).get? ⟨7⟩ = some ⟨⟨0, "b"⟩, ⟨7⟩, [1]⟩ ∧
      (∃ r, s.assembly.rounds 1 = some r ∧ r.id = ⟨0, "b"⟩ ∧ r.own = [2]) ∧
      ∃ k r, s.assembly.rounds k = some r ∧ r.slot = ⟨7⟩ ∧ r.own = [1] := by
  obtain ⟨asks, a, _, _, hreaches, hround⟩ := Assembly.exists_adoption
  let s : Audience MemoryStore := (init fun _ => MemoryStore.empty).setAssembly a
  let w : ProposalValue := ⟨⟨0, "b"⟩, ⟨7⟩, [1]⟩
  have hs : Reachable MemoryStore.view (Assembly.MedleyStep MemoryStore.view asks) s :=
    ⟨_, fun _ => rfl, reaches_setAssembly hreaches⟩
  have hstep : Step (Assembly.MedleyStep MemoryStore.view asks) s (s.tell 0 ⟨7⟩ w) :=
    .tell (r := ⟨"b", w.id, ⟨7⟩, [2], .ended (.ok w)⟩) 0 1 hround rfl
  have hlearned : (s.tell 0 ⟨7⟩ w).Occurs MemoryStore.view ⟨7⟩ w := .learned 0 rfl
  obtain ⟨_, hbrought, _⟩ := values_have_origin hs hstep .refl hlearned
  exact ⟨asks, s, _, hs, hstep, rfl, ⟨_, hround, rfl, rfl⟩, hbrought⟩

end Audience
end Synod
