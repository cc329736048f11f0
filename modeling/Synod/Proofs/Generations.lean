import Synod.Proofs.OneLeader

/-!
# Generations without gaps

A node stands for the generation after the greatest one that its learner knows, and what a learner
knows was chosen. So a generation is chosen before any round is begun for the next one, however old
the knowledge is by then: the generations chosen are the first ones, and the word that counts them
does not run out before all of them are chosen.
-/
namespace Synod

namespace Slot

theorem toNat_lt (a : Slot) : a.sequence.toNat < UInt64.size := a.sequence.toNat_lt

theorem exists_toNat_eq {n : Nat} (h : n < UInt64.size) : ∃ a : Slot, a.sequence.toNat = n :=
  ⟨⟨UInt64.ofNatLT n h⟩, UInt64.toNat_ofNatLT ..⟩

theorem next_eq_ok_iff {a b : Slot} :
    a.next = .ok b ↔ b.sequence.toNat = a.sequence.toNat + 1 := by
  unfold next
  constructor
  · intro h
    cases hsum : Word.add a.sequence 1 with
    | error o =>
      rw [hsum] at h
      cases h
    | ok w =>
      rw [hsum] at h
      cases h
      exact Word.toNat_of_add_eq_ok hsum
  · intro h
    have hfits : a.sequence.toNat + UInt64.toNat 1 < UInt64.size := by
      rw [UInt64.toNat_one, ← h]
      exact b.toNat_lt
    have hsum : Word.add a.sequence 1 = .ok (a.sequence + 1) := if_pos hfits
    rw [hsum]
    refine congrArg Except.ok (eq_of_toNat_eq ?_)
    rw [Word.toNat_of_add_eq_ok hsum, h, UInt64.toNat_one]

variable {P : Slot → Prop}

/-- What holds of a slot whenever it holds of the next one holds of every slot before one of which it
holds. -/
lemma of_later (h : ∀ a b, a.next = .ok b → P b → P a) (d : Nat) {a b : Slot}
    (hab : b.sequence.toNat = a.sequence.toNat + d) (hb : P b) : P a := by
  induction d generalizing a with
  | zero =>
    have hsame : a = b := eq_of_toNat_eq hab.symm
    rwa [hsame]
  | succ d ih =>
    have hfits : a.sequence.toNat + 1 < UInt64.size := by
      have := b.toNat_lt
      omega
    obtain ⟨c, hc⟩ := exists_toNat_eq hfits
    exact h a c (next_eq_ok_iff.mpr hc) (ih (by omega))

/-- So it holds of the slots below some bound. -/
theorem exists_initial_segment (h : ∀ a b, a.next = .ok b → P b → P a) :
    ∃ n ≤ UInt64.size, ∀ a, P a ↔ a.sequence.toNat < n := by
  classical
  by_cases hall : ∀ a, P a
  · exact ⟨UInt64.size, le_rfl, fun a => ⟨fun _ => a.toNat_lt, fun _ => hall a⟩⟩
  -- the bound is the least slot of which it does not hold
  obtain ⟨a₀, ha₀⟩ := not_forall.mp hall
  have hex : ∃ n, ∃ a : Slot, a.sequence.toNat = n ∧ ¬P a := ⟨_, a₀, rfl, ha₀⟩
  obtain ⟨u, hu, hnot⟩ := Nat.find_spec hex
  have hbound : Nat.find hex ≤ UInt64.size := by
    have := u.toNat_lt
    omega
  refine ⟨Nat.find hex, hbound, fun a => ⟨fun ha => ?_, fun ha => ?_⟩⟩
  · by_contra hle
    exact hnot (of_later h (a.sequence.toNat - u.sequence.toNat) (by omega) ha)
  · by_contra hother
    exact Nat.find_min hex ha ⟨a, rfl, hother⟩

end Slot

namespace Candidate

/-- Only a known generation has one that follows it; the first one follows none. -/
theorem exists_of_nextGeneration {known : Option (Slot × String)} {generation slot : Slot}
    (h : nextGeneration known = .ok slot) (hnext : generation.next = .ok slot) :
    ∃ uuid, known = some (generation, uuid) := by
  rw [Slot.next_eq_ok_iff] at hnext
  cases known with
  | none =>
    cases h
    cases hnext
  | some leader =>
    obtain ⟨generation', uuid⟩ := leader
    have hnext' : slot.sequence.toNat = generation'.sequence.toNat + 1 := Slot.next_eq_ok_iff.mp h
    have hsame : generation' = generation := Slot.eq_of_toNat_eq (by omega)
    exact ⟨uuid, by rw [hsame]⟩

/-- A candidate that stands for a generation stands for the one after the one it knows. -/
theorem nextGeneration_of_weigh {π : Type} {known : Option (Slot × String)} {alive : Bool}
    {generation : Slot} {c c' : Candidate π}
    (h : c.weigh known alive = (.ok (.standing generation), c')) :
    nextGeneration known = .ok generation := by
  unfold weigh at h
  split at h
  · cases h
  · split at h
    · cases h
    · rename_i hnext
      cases h
      exact hnext

end Candidate

namespace Election

variable {σ π : Type} {quorum : Quorum} {size : Nat} {s t : Election σ π}

/-- A leader has been chosen for a generation, under one id, by as many acceptors as that takes. -/
def Settled (quorum : Quorum) (size : Nat) (s : Election σ π) (generation : Slot) : Prop :=
  ∃ v, s.assembly.Chosen quorum size generation v

lemma Settled.mono (hg : s.assembly.Grows t.assembly) {generation : Slot}
    (h : s.Settled quorum size generation) : t.Settled quorum size generation := by
  obtain ⟨v, hv⟩ := h
  exact ⟨v, hv.mono hg⟩

lemma bids_setBid {b c : Nat} {bid : Option Bid} {other : Bid}
    (h : (s.setBid b bid).bids c = some other) : bid = some other ∨ s.bids c = some other := by
  by_cases hc : c = b
  · subst hc
    simp only [setBid, Function.update_self] at h
    exact .inl h
  · simp only [setBid, Function.update_of_ne hc] at h
    exact .inr h

variable [RecordStore σ] {view : StoreView σ}

/-- A bid goes by what it has known before, or by what a learner knows now. -/
lemma Step.asked (h : Step view quorum size s t) {b : Nat} {bid : Bid} (hb : t.bids b = some bid)
    {known : Option (Slot × String)} (hpart : bid.part = .asking known) :
    s.bids b = some bid ∨ ∃ l, known = (s.learners l).leader? := by
  cases h with
  | proceed | boot | notify | look | tend | lead => exact .inl hb
  | enter | stand =>
    rcases bids_setBid hb with hnew | hb
    · cases hnew
      cases hpart
    · exact .inl hb
  | @ask _ node =>
    rcases bids_setBid hb with hnew | hb
    · cases hnew
      cases hpart
      exact .inr ⟨node.learner, rfl⟩
    · exact .inl hb
  | stay | exhaust | fail | conclude | drop =>
    rcases bids_setBid hb with hnew | hb
    · cases hnew
    · exact .inl hb

/-- A round is begun by a bid, for the generation after the one that the bid goes by. -/
lemma Step.begun (h : Step view quorum size s t) {k : Nat} {r : Round}
    (hbefore : s.assembly.rounds k = none) (hafter : t.assembly.rounds k = some r) :
    ∃ b bid known, s.bids b = some bid ∧ bid.part = .asking known ∧
      Candidate.nextGeneration known = .ok r.slot := by
  have hnew : ¬s.assembly.rounds k = some r := by
    rw [hbefore]
    exact nofun
  cases h with
  | proceed step quiet =>
    rw [setAssembly, quiet k hbefore] at hafter
    cases hafter
  | stand b l pending part present weighed =>
    rcases Assembly.rounds_setRound hafter with ⟨_, rfl⟩ | ⟨_, hold⟩
    · exact ⟨b, _, _, pending, part, Candidate.nextGeneration_of_weigh weighed⟩
    · exact absurd hold hnew
  | _ => exact absurd hafter hnew

/-- What a learner holds it holds for ever. -/
lemma Step.holds (h : Step view quorum size s t) {l : Nat} {slot : Slot} {v : ProposalValue}
    (hv : (s.learners l).get? slot = some v) : (t.learners l).get? slot = some v := by
  have hheard : ∀ l' slot' w, ((s.setLearner l' ((s.learners l').record slot' w).2).learners l).get?
      slot = some v := by
    intro l' slot' w
    by_cases hl : l = l'
    · subst hl
      simpa only [setLearner, Function.update_self] using Learner.get?_record_of_get? hv slot' w
    · simpa only [setLearner, Function.update_of_ne hl] using hv
  cases h with
  | notify l' k => exact hheard ..
  | @conclude bid node k r w recorded learner outcome candidate b pending part present round ended
      record =>
    have hlearner : learner = ((s.learners node.learner).record r.slot w).2 := by rw [record]
    rw [hlearner]
    exact hheard ..
  | _ => exact hv

theorem Reaches.holds (h : Reaches view quorum size s t) {l : Nat} {slot : Slot} {v : ProposalValue}
    (hv : (s.learners l).get? slot = some v) : (t.learners l).get? slot = some v := by
  induction h with
  | refl => exact hv
  | tail _ hstep ih => exact hstep.holds ih

/-- A generation that a learner knows the leader of is settled, and the learner holds a value of
its. -/
lemma Sound.settled_of_leader? (h : Sound view quorum size s) {l : Nat} {generation : Slot}
    {uuid : String} (hl : (s.learners l).leader? = some (generation, uuid)) :
    s.Settled quorum size generation ∧ ∃ v, (s.learners l).get? generation = some v := by
  obtain ⟨v, hgreatest, hv⟩ := Option.map_eq_some_iff.mp hl
  cases hv
  obtain ⟨slot, hget, _⟩ := SlotMap.greatest?_spec hgreatest
  have hlearned := h.learned hget
  obtain ⟨rfl, _⟩ := h.lawful.offers hlearned.1
  exact ⟨⟨v, hlearned.2⟩, v, hget⟩

/-- A learner that holds something for a generation knows the leader of it or of a later one. -/
lemma Sound.exists_leader? (h : Sound view quorum size s) {l : Nat} {generation : Slot}
    {v : ProposalValue} (hv : (s.learners l).get? generation = some v) :
    ∃ generation' uuid, (s.learners l).leader? = some (generation', uuid) ∧
      generation ≤ generation' := by
  obtain ⟨w, hgreatest⟩ := SlotMap.exists_greatest? hv
  obtain ⟨slot, hget, habove⟩ := SlotMap.greatest?_spec hgreatest
  obtain ⟨rfl, _⟩ := h.lawful.offers (h.learned hget).1
  refine ⟨w.slot, Text.ofBytesLossy w.payload, ?_, UInt64.not_lt.mp (habove generation v hv)⟩
  have hleader : (s.learners l).greatest? = some w := hgreatest
  rw [Learner.leader?, hleader]
  rfl

/-- The invariant: what bids go by is settled, and every round is for the first generation or for one
after a generation that is settled. -/
structure Grounded (quorum : Quorum) (size : Nat) (s : Election σ π) : Prop where
  asking : ∀ {b bid generation uuid}, s.bids b = some bid →
    bid.part = .asking (some (generation, uuid)) → s.Settled quorum size generation
  rounds : ∀ {k r generation}, s.assembly.rounds k = some r → generation.next = .ok r.slot →
    s.Settled quorum size generation

namespace Grounded

/-- When a round is begun for a generation, the one before is settled already. -/
lemma settled_of_begun (h : Grounded quorum size s) (hstep : Step view quorum size s t) {k : Nat}
    {r : Round} (hbefore : s.assembly.rounds k = none) (hafter : t.assembly.rounds k = some r)
    {generation : Slot} (hnext : generation.next = .ok r.slot) :
    s.Settled quorum size generation := by
  obtain ⟨b, bid, known, hb, hpart, hknown⟩ := hstep.begun hbefore hafter
  obtain ⟨uuid, rfl⟩ := Candidate.exists_of_nextGeneration hknown hnext
  exact h.asking hb hpart

/-- Every step keeps the invariant. -/
theorem step (h : Grounded quorum size s) (hs : Sound view quorum size s)
    (hstep : Step view quorum size s t) : Grounded quorum size t := by
  have hg := hstep.assembly.grows
  refine ⟨fun {b bid generation uuid} hb hpart => ?_, fun {k r generation} hr hnext => ?_⟩
  · rcases hstep.asked hb hpart with hb | ⟨l, hknown⟩
    · exact (h.asking hb hpart).mono hg
    · exact (hs.settled_of_leader? hknown.symm).1.mono hg
  · cases hold : s.assembly.rounds k with
    | none => exact (h.settled_of_begun hstep hold hr hnext).mono hg
    | some old =>
      obtain ⟨r', hr', hcontinues⟩ := hstep.assembly.extends.continues hold
      rw [hr] at hr'
      cases hr'
      exact (h.rounds hold (hcontinues.slot ▸ hnext)).mono hg

theorem reaches (h : Grounded quorum size s) (hs : Sound view quorum size s)
    (hreaches : Reaches view quorum size s t) : Grounded quorum size t := by
  induction hreaches with
  | refl => exact h
  | tail hbefore hstep ih => exact ih.step (hs.reaches hbefore) hstep

/-- Before a generation is settled, the one before it is: what was chosen was offered by a round. -/
lemma settled_of_next (h : Grounded quorum size s) (hs : Sound view quorum size s)
    {generation generation' : Slot} (hnext : generation.next = .ok generation')
    (hsettled : s.Settled quorum size generation') : s.Settled quorum size generation := by
  obtain ⟨v, voters, hcard, hvoters⟩ := hsettled
  have hpositive : 0 < quorum.accept.toNat := by
    have hmeet := quorum.safe.phases_meet
    have hle := UInt64.le_iff_toNat_le.mp quorum.safe.prepare_le
    omega
  obtain ⟨a, ha⟩ := Finset.card_pos.mp (Nat.lt_of_lt_of_le hpositive hcard)
  obtain ⟨_, x, hx⟩ := hvoters a ha
  obtain ⟨_, k, r, hr, _, rfl, _⟩ := hs.lawful.offers (hs.lawful.offered_of_accepted hx)
  exact h.rounds hr hnext

end Grounded

theorem Reachable.grounded (h : Reachable view quorum size s) : Grounded quorum size s := by
  obtain ⟨stores, hstores, hreaches⟩ := h
  have hinit : Grounded quorum size (init stores : Election σ π) := ⟨nofun, nofun⟩
  exact hinit.reaches (sound_init hstores) hreaches

/-- Generations have no gaps. Whenever a round is begun for a generation that follows another, the
other one is settled by then. So the settled generations are the first `n`, and unless all words are
used up, every bid finds a generation to stand for. A node's greatest generation never goes back. -/
theorem generations_without_gaps (h : Reachable view quorum size s)
    (later : Reaches view quorum size s t) :
    (∀ u k r generation, Step view quorum size s u → s.assembly.rounds k = none →
      u.assembly.rounds k = some r → generation.next = .ok r.slot →
        s.Settled quorum size generation) ∧
    (∃ n ≤ UInt64.size,
      (∀ generation : Slot, s.Settled quorum size generation ↔ generation.sequence.toNat < n) ∧
      (n < UInt64.size → ∀ b bid known, s.bids b = some bid → bid.part = .asking known →
        ∃ generation, Candidate.nextGeneration known = .ok generation)) ∧
    ∀ i a generation uuid, s.nodes i = some a →
      (s.learners a.learner).leader? = some (generation, uuid) →
      ∃ b generation' uuid', t.nodes i = some b ∧
        (t.learners b.learner).leader? = some (generation', uuid') ∧ generation ≤ generation' := by
  have hs := h.sound
  have hgrounded := h.grounded
  refine ⟨fun u k r generation hstep hbefore hafter hnext =>
    hgrounded.settled_of_begun hstep hbefore hafter hnext, ?_, ?_⟩
  · obtain ⟨n, hn, hsettled⟩ :=
      Slot.exists_initial_segment fun a b hnext => hgrounded.settled_of_next hs hnext
    refine ⟨n, hn, hsettled, fun hfew b bid known hb hpart => ?_⟩
    cases known with
    | none => exact ⟨_, rfl⟩
    | some leader =>
      obtain ⟨generation, uuid⟩ := leader
      have hlt := (hsettled generation).mp (hgrounded.asking hb hpart)
      obtain ⟨next, hnext⟩ :=
        Slot.exists_toNat_eq (n := generation.sequence.toNat + 1) (by omega)
      exact ⟨next, Slot.next_eq_ok_iff.mpr hnext⟩
  · intro i a generation uuid ha hleader
    obtain ⟨_, v, hv⟩ := hs.settled_of_leader? hleader
    obtain ⟨b, hb, _, hlearner⟩ := later.keeps ha
    obtain ⟨generation', uuid', hleader', hle⟩ := (hs.reaches later).exists_leader? (later.holds hv)
    exact ⟨b, generation', uuid', hb, hlearner ▸ hleader', hle⟩

/-- A node wins the first generation. Another one hears of it, gets no answer to its ping, and begins
a round for the generation after it. -/
theorem generations_without_gaps_second :
    ∃ s t : Election MemoryStore Nat, Reachable MemoryStore.view Quorum.single 1 s ∧
      Step MemoryStore.view Quorum.single 1 s t ∧ s.assembly.rounds 1 = none ∧
      (∃ r, t.assembly.rounds 1 = some r ∧ r.slot = ⟨1⟩ ∧ r.own = Text.toBytes "b") ∧
      s.Settled Quorum.single 1 ⟨0⟩ := by
  let v : ProposalValue := ⟨⟨0, "a"⟩, ⟨0⟩, Text.toBytes "a"⟩
  have onward : ∀ {s t : Election MemoryStore Nat}, Reachable MemoryStore.view Quorum.single 1 s →
      Step MemoryStore.view Quorum.single 1 s t → Step MemoryStore.view Quorum.single 1 s t :=
    fun _ hstep => hstep
  have init : Reaches MemoryStore.view Quorum.single 1
      (init fun _ => MemoryStore.empty : Election MemoryStore Nat) _ := .refl
  have a₁ := init.tail (.boot 0 0 "a" 0 rfl rfl rfl)
  have a₂ := a₁.tail (.enter 0 0 rfl rfl rfl)
  have a₃ := a₂.tail (.ask 0 rfl rfl rfl)
  have a₄ := a₃.tail (.stand 0 0 rfl rfl rfl rfl rfl rfl rfl)
  have a₅ := a₄.tail (.proceed (.act 0 (.request (.prepare ⟨0⟩ v.id)) (by decide)
    Assembly.asked_request) fun _ h => h)
  have a₆ := a₅.tail (.proceed (.hearPromise 0 0 (some (.give v.id none)) rfl rfl rfl (by decide)
    (by decide) fun p hp => by cases hp; decide) (Assembly.quiet_setRound rfl))
  have a₇ := a₆.tail (.proceed (.offer 0 rfl rfl rfl (.inl (by decide)) rfl)
    (Assembly.quiet_setRound rfl))
  have a₈ := a₇.tail (.proceed (.act 0 (.request (.accept ⟨0⟩ v)) (by decide)
    Assembly.asked_request) fun _ h => h)
  have a₉ := a₈.tail (.proceed (.hearAcceptance 0 0 (some ⟨true, v.id⟩) rfl rfl rfl (by decide)
    (by decide) fun x hx => by cases hx; decide) (Assembly.quiet_setRound rfl))
  have a₁₀ := a₉.tail (.proceed (.finish 0 rfl rfl rfl (.inl (by decide)) rfl)
    (Assembly.quiet_setRound rfl))
  -- the winner is gone before it concludes; its notification arrives even so
  have a := a₁₀.tail (.drop 0)
  have b₁ := a.tail (.boot 1 1 "b" 0 rfl rfl rfl)
  have b₂ := b₁.tail (.notify 1 0 rfl rfl)
  have b₃ := b₂.tail (.enter 0 1 rfl rfl (Candidate.isLeader_of_ne (by decide)))
  have b₄ := b₃.tail (.ask 0 rfl rfl rfl)
  have hs : Reachable MemoryStore.view Quorum.single 1 _ := ⟨_, fun _ => rfl, b₄⟩
  have hstep := onward hs (.stand 0 1 rfl rfl rfl rfl rfl rfl rfl)
  exact ⟨_, _, hs, hstep, rfl, ⟨_, rfl, rfl, rfl⟩,
    (generations_without_gaps hs .refl).1 _ 1 _ ⟨0⟩ hstep rfl rfl rfl⟩

end Election
end Synod
