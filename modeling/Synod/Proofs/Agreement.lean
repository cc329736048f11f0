import Mathlib.Data.Fintype.Card
import Mathlib.Data.Set.Finite.List
import Synod.Proofs.Lawful

/-!
# Agreement

Once a value is chosen for a slot, whatever is offered for the slot under a higher id has the same
payload. A quorum of promises for the higher id has an acceptor in common with the quorum that
chose the value. That acceptor reports a value at least as high, and the highest value reported
was itself offered under a lower id.
-/
namespace Synod.Assembly
open RecordStore

variable {σ : Type} [RecordStore σ] {view : StoreView σ} {quorum : Quorum} {size : Nat}
  {s t : Assembly σ}

/-- A quorum of the first phase and one of the second have an acceptor in common. -/
lemma exists_common_voter (hsize : quorum.acceptors.toNat = size) {promisers voters : Finset Nat}
    (hp : quorum.prepare.toNat ≤ promisers.card) (hplt : ∀ a ∈ promisers, a < size)
    (hv : quorum.accept.toNat ≤ voters.card) (hvlt : ∀ a ∈ voters, a < size) :
    ∃ a, a ∈ promisers ∧ a ∈ voters := by
  have hmeet := quorum.safe.phases_meet
  have hcommon : (promisers ∩ voters).Nonempty := by
    refine Finset.inter_nonempty_of_card_lt_card_add_card (s := Finset.range size)
      (fun a ha => Finset.mem_range.mpr (hplt a ha)) (fun a ha => Finset.mem_range.mpr (hvlt a ha)) ?_
    rw [Finset.card_range]
    omega
  obtain ⟨a, ha⟩ := hcommon
  exact ⟨a, Finset.mem_inter.mp ha⟩

/-- Induction on the ids of the values offered: there are finitely many, although not every set of
ids has a lowest one. -/
lemma offers_induction {sent : List Request} {slot : Slot} {P : ProposalValue → Prop}
    (step : ∀ w, .accept slot w ∈ sent → (∀ u, .accept slot u ∈ sent → u.id < w.id → P u) → P w)
    (w : ProposalValue) (hw : .accept slot w ∈ sent) : P w := by
  let Offer := { u : ProposalValue // Request.accept slot u ∈ sent }
  have hinj : Function.Injective fun u : Offer => (⟨.accept slot u.1, u.2⟩ : { r // r ∈ sent }) := by
    rintro ⟨u, hu⟩ ⟨v, hv⟩ h
    exact Subtype.ext (by simpa using h)
  have : Finite { r // r ∈ sent } := List.finite_toSet sent
  have : Finite Offer := Finite.of_injective _ hinj
  let lower : Offer → Offer → Prop := fun u v => u.1.id < v.1.id
  have : IsTrans Offer lower := ⟨fun _ _ _ => ProposalId.lt_trans⟩
  have : Std.Irrefl lower := ⟨fun u => ProposalId.lt_irrefl u.1.id⟩
  have hwf : WellFounded lower := Finite.wellFounded_of_trans_of_irrefl lower
  refine hwf.induction (C := fun u => P u.1) ⟨w, hw⟩ ?_
  rintro ⟨u, hu⟩ ih
  exact step u hu fun v hv hlt => ih ⟨v, hv⟩ hlt

namespace Lawful

lemma size_eq (h : Lawful view quorum size s) {k : Nat} {r : Round} (hr : s.rounds k = some r) :
    quorum.acceptors.toNat = size := by
  obtain ⟨_, p, hp, _⟩ := h.used hr
  exact (h.named hp).1

/-- What a promise reports was offered under a lower id, and was not exceeded by anything that its
acceptor had acknowledged below that id. -/
lemma reported (h : Lawful view quorum size s) {slot : Slot} {id : ProposalId} {a : Nat}
    {p : Promise} (hp : s.Promised slot id a p) :
    (∀ e, p.reported? = some e → e.1 = e.2.id ∧ e.2.id < id ∧ .accept slot e.2 ∈ s.sent) ∧
    ∀ v x, s.Accepted slot v a x → v.id < id → ∃ e, p.reported? = some e ∧ v.id ≤ e.1 := by
  obtain ⟨prior, hgive, hprior, hseen⟩ := ((h.accounts a).believed slot).reports hp.1 hp.2
  rw [hgive, Promise.reported?_give]
  refine ⟨fun e he => ?_, fun v x hx hlt => ?_⟩
  · obtain ⟨w, hw, rfl⟩ := Option.map_eq_some_iff.mp he
    exact ⟨rfl, hprior w hw⟩
  · obtain ⟨w, hw, hle⟩ := hseen v hx.acknowledged hlt
    exact ⟨(w.id, w), by rw [hw]; rfl, hle⟩

lemma offered_of_accepted (h : Lawful view quorum size s) {slot : Slot} {v : ProposalValue}
    {a : Nat} {x : Acceptance} (hx : s.Accepted slot v a x) : .accept slot v ∈ s.sent :=
  ((h.accounts a).believed slot).asked hx.acknowledged

/-- Offers above a chosen value have its payload: induction on their ids. -/
theorem payload_eq (h : Lawful view quorum size s) {slot : Slot} {v : ProposalValue}
    (hv : s.Chosen quorum size slot v) {w : ProposalValue} (hw : .accept slot w ∈ s.sent)
    (hlt : v.id < w.id) : w.payload = v.payload := by
  obtain ⟨voters, hcard, hvoters⟩ := hv
  refine offers_induction (P := fun w => v.id < w.id → w.payload = v.payload) ?_ w hw hlt
  intro w hw ih hlt
  obtain ⟨_, k, r, hr, _, _, _, promises, hpayload, hsource, promisers, hpcard, hpromisers⟩ :=
    h.offers hw
  obtain ⟨a, hap, hav⟩ := exists_common_voter (h.size_eq hr) hpcard
    (fun a ha => (hpromisers a ha).1) hcard (fun a ha => (hvoters a ha).1)
  obtain ⟨_, p, hp, hpromised⟩ := hpromisers a hap
  obtain ⟨_, x, haccepted⟩ := hvoters a hav
  -- the common acceptor reports a value that is not below `v`
  obtain ⟨e, he, hle⟩ := (h.reported hpromised).2 v x haccepted hlt
  rcases resolvePayload_cases promises r.own with ⟨_, hnone⟩ | ⟨p', hp', best, hbest, hresolve, hhighest⟩
  · rw [hnone p hp] at he
    cases he
  obtain ⟨a', hpromised'⟩ := hsource p' hp'
  obtain ⟨hid, hbelow, hoffered⟩ := (h.reported hpromised').1 best hbest
  have hvbest : v.id ≤ best.2.id := by
    rw [← hid]
    exact Std.le_trans hle (hhighest p hp e he)
  rw [hpayload, hresolve]
  rcases ProposalId.lt_or_eq_or_gt v.id best.2.id with hvlt | heq | hgt
  · exact ih best.2 hoffered hbelow hvlt
  · rw [h.unique (h.offered_of_accepted haccepted) hoffered heq]
  · exact absurd hgt (Std.not_lt.mpr hvbest)

/-- Two values chosen for a slot have the same payload. -/
theorem chosen_payload_eq (h : Lawful view quorum size s) {slot : Slot} {v w : ProposalValue}
    (hv : .accept slot v ∈ s.sent ∧ s.Chosen quorum size slot v)
    (hw : .accept slot w ∈ s.sent ∧ s.Chosen quorum size slot w) : v.payload = w.payload := by
  rcases ProposalId.lt_or_eq_or_gt v.id w.id with hlt | heq | hgt
  · exact (h.payload_eq hv.2 hw.1 hlt).symm
  · rw [h.unique hv.1 hw.1 heq]
  · exact h.payload_eq hw.2 hv.1 hgt

/-- A round that succeeded has had its value chosen. -/
lemma chosen_of_ended (h : Lawful view quorum size s) {k : Nat} {r : Round} {v : ProposalValue}
    (hr : s.rounds k = some r) (hstage : r.stage = .ended (.ok v)) :
    .accept r.slot v ∈ s.sent ∧ s.Chosen quorum size r.slot v := by
  have hsound := h.staged hr
  rw [hstage] at hsound
  exact hsound

end Lawful

/-- Two proposers with different payloads take turns at one acceptor: the second round adopts the
payload that the first has had chosen, and overwrites the record. -/
lemma exists_two_rounds :
    ∃ s t : Assembly MemoryStore, Reachable MemoryStore.view Quorum.single 1 s ∧
      Reaches MemoryStore.view Quorum.single 1 s t ∧
      s.rounds 0 = some ⟨"a", ⟨0, "a"⟩, ⟨7⟩, [1], .ended (.ok ⟨⟨0, "a"⟩, ⟨7⟩, [1]⟩)⟩ ∧
      t.rounds 0 = some ⟨"a", ⟨0, "a"⟩, ⟨7⟩, [1], .ended (.ok ⟨⟨0, "a"⟩, ⟨7⟩, [1]⟩)⟩ ∧
      t.rounds 1 = some ⟨"b", ⟨0, "b"⟩, ⟨7⟩, [2], .ended (.ok ⟨⟨0, "b"⟩, ⟨7⟩, [1]⟩)⟩ ∧
      ((t.acceptors 0).durable MemoryStore.view ⟨7⟩).bind (·.accepted) =
        some ⟨⟨0, "b"⟩, ⟨7⟩, [1]⟩ := by
  let v : ProposalValue := ⟨⟨0, "a"⟩, ⟨7⟩, [1]⟩
  let w : ProposalValue := ⟨⟨0, "b"⟩, ⟨7⟩, [1]⟩
  have rest : ∀ {s t : Assembly MemoryStore}, Reaches MemoryStore.view Quorum.single 1 s t →
      Reaches MemoryStore.view Quorum.single 1 t t := fun _ => .refl
  have init : Reaches MemoryStore.view Quorum.single 1 (init fun _ => MemoryStore.empty) _ := .refl
  have a₁ := init.tail (.join "a" 0 rfl rfl)
  have a₂ := a₁.tail (.start 0 "a" ⟨7⟩ [1] rfl rfl rfl)
  have a₃ := a₂.tail (.act 0 (.request (.prepare ⟨7⟩ v.id)) (by decide) asked_request)
  have a₄ := a₃.tail (.hearPromise 0 0 (some (.give v.id none)) rfl rfl rfl (by decide) (by decide)
    fun p hp => by cases hp; decide)
  have a₅ := a₄.tail (.offer 0 rfl rfl rfl (.inl (by decide)) rfl)
  have a₆ := a₅.tail (.act 0 (.request (.accept ⟨7⟩ v)) (by decide) asked_request)
  have a₇ := a₆.tail (.hearAcceptance 0 0 (some ⟨true, v.id⟩) rfl rfl rfl (by decide) (by decide)
    fun x hx => by cases hx; decide)
  have a₈ := a₇.tail (.finish 0 rfl rfl rfl (.inl (by decide)) rfl)
  have b₁ := (rest a₈).tail (.join "b" 0 rfl rfl)
  have b₂ := b₁.tail (.start 1 "b" ⟨7⟩ [2] rfl rfl rfl)
  have b₃ := b₂.tail (.act 0 (.request (.prepare ⟨7⟩ w.id)) (by decide) asked_request)
  have b₄ := b₃.tail (.hearPromise 1 0 (some (.give w.id (some v))) rfl rfl rfl (by decide)
    (by decide) fun p hp => by cases hp; decide)
  have b₅ := b₄.tail (.offer 1 rfl rfl rfl (.inl (by decide)) rfl)
  have b₆ := b₅.tail (.act 0 (.request (.accept ⟨7⟩ w)) (by decide) asked_request)
  have b₇ := b₆.tail (.hearAcceptance 1 0 (some ⟨true, w.id⟩) rfl rfl rfl (by decide) (by decide)
    fun x hx => by cases hx; decide)
  have b₈ := b₇.tail (.finish 1 rfl rfl rfl (.inl (by decide)) rfl)
  have hs : Reachable MemoryStore.view Quorum.single 1 _ := ⟨_, fun _ => rfl, a₈⟩
  exact ⟨_, _, hs, b₈, rfl, rfl, rfl, by decide⟩

/-- Agreement. After a value has been chosen for a slot, only its payload is offered there under
higher ids, at any time; and all rounds for a slot that succeed return one payload. -/
theorem agreement (h : Reachable view quorum size s) (later : Reaches view quorum size s t) :
    (∀ slot v w, s.Chosen quorum size slot v → .accept slot w ∈ t.sent → v.id < w.id →
      w.payload = v.payload) ∧
    ∀ k l r r' v w, s.rounds k = some r → t.rounds l = some r' → r.slot = r'.slot →
      r.stage = .ended (.ok v) → r'.stage = .ended (.ok w) → v.payload = w.payload := by
  have hs := h.lawful
  have ht := hs.reaches later
  refine ⟨fun slot v w hv hw hlt => ht.payload_eq (hv.mono later.grows) hw hlt, ?_⟩
  intro k l r r' v w hr hr' hslot hv hw
  obtain ⟨hoffered, hchosen⟩ := hs.chosen_of_ended hr hv
  rw [hslot] at hoffered hchosen
  exact ht.chosen_payload_eq ⟨later.grows.sent hoffered, hchosen.mono later.grows⟩
    (ht.chosen_of_ended hr' hw)

/-- Two proposers with different payloads and one acceptor: the second round adopts the payload that
the first has had chosen. -/
theorem agreement_two_proposers :
    ∃ s : Assembly MemoryStore, Reachable MemoryStore.view Quorum.single 1 s ∧
      ∃ r r' v w, s.rounds 0 = some r ∧ s.rounds 1 = some r' ∧ r.own ≠ r'.own ∧
        r.stage = .ended (.ok v) ∧ r'.stage = .ended (.ok w) ∧ v.payload = w.payload := by
  obtain ⟨s, t, hs, later, _, hfirst, hsecond, _⟩ := exists_two_rounds
  obtain ⟨stores, hstores, hreaches⟩ := hs
  have ht : Reachable MemoryStore.view Quorum.single 1 t := ⟨stores, hstores, hreaches.trans later⟩
  exact ⟨t, ht, _, _, _, _, hfirst, hsecond, by decide, rfl, rfl,
    (agreement ht .refl).2 0 1 _ _ _ _ hfirst hsecond rfl rfl rfl⟩

end Synod.Assembly
