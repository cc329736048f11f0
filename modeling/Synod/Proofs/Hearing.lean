import Mathlib.Tactic.Lemma
import Synod.Learner

/-!
# What a learner has heard

After any offers a learner holds for each slot the first value that was offered under it and is its
own; `firstOffered` says so of the offers alone. Every answer follows from that: which offers are
taken, what is the greatest value, and what is held since a slot. Learners that were offered the same
values, if these do not contradict each other, hold the same payloads, whatever came first or twice.
-/
namespace Synod.Learner

/-- A value, and the slot under which it is offered. -/
abbrev Offer := Slot × ProposalValue

/-- One offer after the other, whatever the answers. -/
def hear (l : Learner) (offers : List Offer) : Learner :=
  offers.foldl (fun l o => (l.record o.1 o.2).2) l

/-- The first value offered under a slot that is its own. -/
def firstOffered (offers : List Offer) (slot : Slot) : Option ProposalValue :=
  (offers.find? fun o => o.1 = slot ∧ o.2.slot = o.1).map (·.2)

/-- No two values are offered for a slot, each under its own, that differ in the payload. -/
def Concordant (offers : List Offer) : Prop :=
  ∀ slot v w, (slot, v) ∈ offers → (slot, w) ∈ offers → v.slot = slot → w.slot = slot →
    v.payload = w.payload

variable {l : Learner} {offers offers' : List Offer} {slot : Slot} {value v : ProposalValue}

/-! ### The first value offered -/

lemma firstOffered_append (offers offers' : List Offer) (slot : Slot) :
    firstOffered (offers ++ offers') slot =
      (firstOffered offers slot).or (firstOffered offers' slot) := by
  simp [firstOffered, List.find?_append, Option.map_or]

lemma firstOffered_singleton (o : Offer) (slot : Slot) :
    firstOffered [o] slot = if o.1 = slot ∧ o.2.slot = o.1 then some o.2 else none := by
  unfold firstOffered
  split <;> simp_all

lemma mem_of_firstOffered (h : firstOffered offers slot = some v) :
    (slot, v) ∈ offers ∧ v.slot = slot := by
  obtain ⟨⟨slot', v'⟩, hfound, rfl⟩ := Option.map_eq_some_iff.mp h
  have hown := List.find?_some hfound
  simp only [decide_eq_true_eq] at hown
  obtain ⟨rfl, hown⟩ := hown
  exact ⟨List.mem_of_find?_eq_some hfound, hown⟩

lemma exists_firstOffered (h : (slot, v) ∈ offers) (hown : v.slot = slot) :
    ∃ w, firstOffered offers slot = some w := by
  have hsome : (offers.find? fun o => o.1 = slot ∧ o.2.slot = o.1).isSome :=
    List.find?_isSome.mpr ⟨(slot, v), h, by simpa using hown⟩
  obtain ⟨o, ho⟩ := Option.isSome_iff_exists.mp hsome
  exact ⟨o.2, by rw [firstOffered, ho, Option.map_some]⟩

/-- Offers that do not contradict each other have one payload for a slot, whichever comes first. -/
lemma Concordant.firstOffered_payload (h : Concordant offers) (hsame : ∀ o, o ∈ offers' ↔ o ∈ offers)
    (slot : Slot) :
    (firstOffered offers' slot).map (·.payload) = (firstOffered offers slot).map (·.payload) := by
  cases hfirst : firstOffered offers slot with
  | some v =>
    obtain ⟨hv, hown⟩ := mem_of_firstOffered hfirst
    obtain ⟨w, hw⟩ := exists_firstOffered ((hsame _).mpr hv) hown
    obtain ⟨hmem, hown'⟩ := mem_of_firstOffered hw
    rw [hw, Option.map_some, Option.map_some, h slot w v ((hsame _).mp hmem) hv hown' hown]
  | none =>
    cases hfirst' : firstOffered offers' slot with
    | none => rfl
    | some w =>
      obtain ⟨hmem, hown⟩ := mem_of_firstOffered hfirst'
      obtain ⟨v, hv⟩ := exists_firstOffered ((hsame _).mp hmem) hown
      rw [hfirst] at hv
      cases hv

/-! ### What is held, and what is answered -/

/-- What a learner holds is what it held before, or else what it was offered first. -/
theorem get?_hear (l : Learner) (offers : List Offer) (s : Slot) :
    (l.hear offers).get? s = (l.get? s).or (firstOffered offers s) := by
  induction offers generalizing l with
  | nil => exact (Option.or_none).symm
  | cons o rest ih =>
    have hrest : (l.hear (o :: rest)).get? s = ((l.record o.1 o.2).2.hear rest).get? s := rfl
    have hsplit : firstOffered (o :: rest) s = (firstOffered [o] s).or (firstOffered rest s) :=
      firstOffered_append [o] rest s
    rw [hrest, ih, get?_record, hsplit, firstOffered_singleton, Option.or_assoc]

lemma get?_hear_empty (offers : List Offer) (s : Slot) :
    (empty.hear offers).get? s = firstOffered offers s := by
  rw [get?_hear, get?_empty, Option.none_or]

/-- After some offers, those are taken that agree with the first value offered, or are it. -/
lemma record_hear_eq_ok_iff : ((empty.hear offers).record slot value).1 = .ok () ↔
    value.slot = slot ∧ ∃ first, firstOffered (offers ++ [(slot, value)]) slot = some first ∧
      value.payload = first.payload := by
  rw [record_eq_ok_iff, get?_hear_empty]
  refine and_congr_right fun hslot => ?_
  rw [firstOffered_append, firstOffered_singleton, if_pos ⟨rfl, hslot⟩]
  cases hfirst : firstOffered offers slot with
  | none => simp
  | some held =>
    have hown : held.slot = value.slot := (mem_of_firstOffered hfirst).2.trans hslot.symm
    simp [ProposalValue.SameDecree, hown, eq_comm]

/-- All offers of a history are taken just if they are of values under their own slots that do not
contradict each other. -/
lemma all_taken_iff :
    (∀ before o after, offers = before ++ o :: after →
      ((empty.hear before).record o.1 o.2).1 = .ok ()) ↔
    (∀ o ∈ offers, o.2.slot = o.1) ∧ Concordant offers := by
  simp only [record_hear_eq_ok_iff]
  constructor
  · intro h
    have hown : ∀ o ∈ offers, o.2.slot = o.1 := by
      intro o ho
      obtain ⟨before, after, rfl⟩ := List.append_of_mem ho
      exact (h before o after rfl).1
    -- all payloads for a slot are that of the first value offered
    have hfirst : ∀ slot v, (slot, v) ∈ offers →
        (firstOffered offers slot).map (·.payload) = some v.payload := by
      intro slot v hv
      obtain ⟨before, after, rfl⟩ := List.append_of_mem hv
      obtain ⟨-, first, hfirst, hpayload⟩ := h before (slot, v) after rfl
      have hsplit : before ++ (slot, v) :: after = before ++ [(slot, v)] ++ after := by simp
      rw [hsplit, firstOffered_append, hfirst, Option.some_or, Option.map_some, hpayload]
    refine ⟨hown, fun slot v w hv hw _ _ => ?_⟩
    exact Option.some.inj ((hfirst slot v hv).symm.trans (hfirst slot w hw))
  · rintro ⟨hown, hconcordant⟩ before ⟨slot, value⟩ after rfl
    have hsplit : before ++ (slot, value) :: after = before ++ [(slot, value)] ++ after := by simp
    have hvalue : (slot, value) ∈ before ++ (slot, value) :: after := by simp
    obtain ⟨first, hfirst⟩ :=
      exists_firstOffered (List.mem_append_right before (List.mem_singleton_self _)) (hown _ hvalue)
    obtain ⟨hmem, hslot⟩ := mem_of_firstOffered hfirst
    have hmem : (slot, first) ∈ before ++ (slot, value) :: after :=
      hsplit ▸ List.mem_append_left after hmem
    exact ⟨hown _ hvalue, first, hfirst,
      hconcordant slot value first hvalue hmem (hown _ hvalue) hslot⟩

/-! ### The greatest value held, and those since a slot -/

lemma Sound.hear (h : l.Sound) (offers : List Offer) : (l.hear offers).Sound := by
  induction offers generalizing l with
  | nil => exact h
  | cons o rest ih => exact ih (h.record o.1 o.2)

lemma Sound.greatest?_eq_some_iff (hsound : l.Sound) : l.greatest? = some v ↔
    l.get? v.slot = some v ∧ ∀ s w, l.get? s = some w → ¬v.slot < s := by
  constructor
  · intro h
    obtain ⟨slot, hv, hgreatest⟩ := SlotMap.greatest?_spec h
    obtain rfl : v.slot = slot := hsound slot v hv
    exact ⟨hv, hgreatest⟩
  · rintro ⟨hv, hgreatest⟩
    exact SlotMap.greatest?_of_last hv hgreatest

lemma greatest?_eq_none_iff : l.greatest? = none ↔ ∀ s, l.get? s = none := by
  constructor
  · intro h s
    cases hs : l.get? s with
    | none => rfl
    | some v =>
      obtain ⟨w, hw⟩ := SlotMap.exists_greatest? hs
      cases h.symm.trans hw
  · intro h
    cases hgreatest : l.greatest? with
    | none => rfl
    | some v =>
      obtain ⟨slot, hv, -⟩ := SlotMap.greatest?_spec hgreatest
      cases (h slot).symm.trans hv

lemma Sound.mem_since_iff (hsound : l.Sound) :
    v ∈ l.since slot ↔ slot ≤ v.slot ∧ l.get? v.slot = some v := by
  rw [since, SlotMap.mem_since]
  constructor
  · rintro ⟨s, hle, hv⟩
    obtain rfl : v.slot = s := hsound s v hv
    exact ⟨hle, hv⟩
  · rintro ⟨hle, hv⟩
    exact ⟨v.slot, hle, hv⟩

lemma Sound.pairwise_since (hsound : l.Sound) (slot : Slot) :
    (l.since slot).Pairwise (fun v w => v.slot < w.slot) := by
  have hentries := l.learned.pairwise_entries.filter (fun e => decide (slot ≤ e.1))
  refine List.pairwise_map.mpr (hentries.imp_of_mem fun {a b} ha hb hlt => ?_)
  have hheld : ∀ e ∈ l.learned.entries.filter (fun e => decide (slot ≤ e.1)), e.2.slot = e.1 :=
    fun e he => hsound e.1 e.2 (SlotMap.mem_entries.mp (List.mem_filter.mp he).1)
  rwa [hheld a ha, hheld b hb]

/-! ### The first value heard stands -/

/-- After any offers to a learner that was empty, it holds of each slot the first value that was
offered under it and is its own. An offer is taken just if its value is its slot's own and has the
payload of the first such value, it may be that one; any other is a conflict and changes nothing. The
greatest value is the one of the greatest slot that is filled, and the values since a slot are those
held for it and all later slots, in ascending order. Of offers that do not contradict each other,
which is of those that are all taken, it does not matter which came first or how often they came. -/
theorem first_heard_stands (offers : List Offer) :
    let l := empty.hear offers
    (∀ slot, l.get? slot = firstOffered offers slot) ∧
    (∀ slot value,
      ((l.record slot value).1 = .ok () ↔
        value.slot = slot ∧ ∃ first, firstOffered (offers ++ [(slot, value)]) slot = some first ∧
          value.payload = first.payload) ∧
      ((l.record slot value).1 ≠ .ok () →
        l.record slot value = (.error (.learnerConflict slot), l))) ∧
    (∀ v, l.greatest? = some v ↔
      l.get? v.slot = some v ∧ ∀ slot w, l.get? slot = some w → ¬v.slot < slot) ∧
    (l.greatest? = none ↔ ∀ slot, l.get? slot = none) ∧
    (∀ slot, (l.since slot).Pairwise (fun v w => v.slot < w.slot) ∧
      ∀ v, v ∈ l.since slot ↔ slot ≤ v.slot ∧ l.get? v.slot = some v) ∧
    ((∀ before o after, offers = before ++ o :: after →
        ((empty.hear before).record o.1 o.2).1 = .ok ()) ↔
      (∀ o ∈ offers, o.2.slot = o.1) ∧ Concordant offers) ∧
    (Concordant offers → ∀ offers', (∀ o, o ∈ offers' ↔ o ∈ offers) → ∀ slot,
      ((empty.hear offers').get? slot).map (·.payload) = (l.get? slot).map (·.payload)) := by
  intro l
  have hsound : l.Sound := sound_empty.hear offers
  refine ⟨get?_hear_empty offers, fun slot value => ⟨?_, record_of_ne_ok⟩,
    fun v => hsound.greatest?_eq_some_iff, greatest?_eq_none_iff,
    fun slot => ⟨hsound.pairwise_since slot, fun v => hsound.mem_since_iff⟩, all_taken_iff, ?_⟩
  · exact record_hear_eq_ok_iff
  · intro hconcordant offers' hsame slot
    rw [get?_hear_empty, get?_hear_empty]
    exact hconcordant.firstOffered_payload hsame slot

/-- The same decree under two ids, a value under the wrong slot and another slot's value between
them: heard backwards, the learner holds the other id, and the same payloads. -/
theorem first_heard_stands_backwards :
    let early : ProposalValue := ⟨⟨1, "a"⟩, ⟨1⟩, [7]⟩
    let late : ProposalValue := ⟨⟨4, "b"⟩, ⟨1⟩, [7]⟩
    let other : ProposalValue := ⟨⟨2, "a"⟩, ⟨3⟩, [9]⟩
    let offers : List Offer := [(⟨1⟩, early), (⟨2⟩, other), (⟨3⟩, other), (⟨1⟩, late)]
    Concordant offers ∧
      ((empty.hear offers).get? ⟨1⟩, (empty.hear offers.reverse).get? ⟨1⟩) =
        (some early, some late) ∧
      (empty.hear offers).greatest? = some other ∧
      (empty.hear offers).since ⟨0⟩ = [early, other] ∧
      ∀ slot, ((empty.hear offers.reverse).get? slot).map (·.payload) =
        ((empty.hear offers).get? slot).map (·.payload) := by
  intro early late other offers
  have hpayload : ∀ o ∈ offers, o.2.payload = if o.2.slot = ⟨1⟩ then [7] else [9] := by decide
  have hconcordant : Concordant offers := by
    intro slot v w hv hw hown hown'
    rw [hpayload _ hv, hpayload _ hw, hown, hown']
  obtain ⟨-, -, -, -, -, -, hsame⟩ := first_heard_stands offers
  exact ⟨hconcordant, by decide, by decide, by decide,
    hsame hconcordant offers.reverse fun _ => List.mem_reverse⟩

end Synod.Learner
