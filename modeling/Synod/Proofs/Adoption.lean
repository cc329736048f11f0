import Synod.Proofs.Agreement
import Synod.Proofs.Successors

/-!
# The highest report is adopted

A promise reports a value if it is given and names both the value and the id under which that was
accepted. What a round has to propose is the payload reported under the highest id, and its own if
nothing is reported. Promises that report nothing may come and go. Where the reports under one id
agree in their payloads, it does not matter in which order the promises came or how often. So it is
among acceptors that were asked to accept one payload under every id, as proposers ask them to.
-/
namespace Synod
variable {p : Promise} {promises promises' : List Promise} {own : Payload} {id : ProposalId}
  {v : ProposalValue}

lemma Promise.reported?_eq_none_iff : p.reported? = none ↔ ∀ id v, ¬p.Reports id v := by
  simp only [← Promise.reported?_eq_some_iff]
  constructor
  · intro h id v
    rw [h]
    exact nofun
  · intro h
    cases hp : p.reported? with
    | none => rfl
    | some e => exact absurd hp (h e.1 e.2)

/-- Nothing is reported by a promise that is refused, or lacks the id or the value. -/
lemma Promise.not_reports
    (h : p.accepted = false ∨ p.priorId = none ∨ p.priorValue = none) : ¬p.Reports id v := by
  rintro ⟨hgiven, hid, hvalue⟩
  simp [hgiven, hid, hvalue] at h

/-- A value reported under an id such that none is reported under a higher one. -/
structure HighestReport (promises : List Promise) (id : ProposalId) (v : ProposalValue) : Prop where
  reported : ∃ p ∈ promises, p.Reports id v
  highest : ∀ p ∈ promises, ∀ id' v', p.Reports id' v' → id' ≤ id

/-- The values that are reported under one id agree in their payloads. -/
def Promise.Concordant (promises : List Promise) : Prop :=
  ∀ p ∈ promises, ∀ q ∈ promises, ∀ id v w, p.Reports id v → q.Reports id w → v.payload = w.payload

lemma HighestReport.congr (h : HighestReport promises id v)
    (hsame : ∀ p, p ∈ promises' ↔ p ∈ promises) : HighestReport promises' id v := by
  obtain ⟨p, hp, hreports⟩ := h.reported
  exact ⟨⟨p, (hsame p).mpr hp, hreports⟩, fun q hq => h.highest q ((hsame q).mp hq)⟩

/-! ### What a list of promises binds a round to -/

lemma exists_highestReport (h : ∃ p ∈ promises, ∃ id v, p.Reports id v) (own : Payload) :
    ∃ id v, HighestReport promises id v ∧ resolvePayload promises own = v.payload := by
  rcases resolvePayload_cases promises own with
    ⟨_, hnone⟩ | ⟨p, hp, ⟨id, v⟩, hbest, hresolve, hhighest⟩
  · obtain ⟨p, hp, id, v, hreports⟩ := h
    exact absurd hreports (Promise.reported?_eq_none_iff.mp (hnone p hp) id v)
  · refine ⟨id, v, ⟨⟨p, hp, Promise.reported?_eq_some_iff.mp hbest⟩, ?_⟩, hresolve⟩
    intro q hq id' v' hreports
    exact hhighest q hq (id', v') (Promise.reported?_eq_some_iff.mpr hreports)

lemma resolvePayload_of_no_report (h : ∀ p ∈ promises, ∀ id v, ¬p.Reports id v) :
    resolvePayload promises own = own := by
  rcases resolvePayload_cases promises own with ⟨hown, _⟩ | ⟨p, hp, ⟨id, v⟩, hbest, _⟩
  · exact hown
  · exact absurd (Promise.reported?_eq_some_iff.mp hbest) (h p hp id v)

/-- A promise that reports nothing could as well have stayed away. -/
lemma resolvePayload_insert (h : ∀ id v, ¬p.Reports id v) (before after : List Promise) :
    resolvePayload (before ++ p :: after) own = resolvePayload (before ++ after) own := by
  unfold resolvePayload
  rw [List.filterMap_append, List.filterMap_cons_none (Promise.reported?_eq_none_iff.mpr h),
    ← List.filterMap_append]

namespace Promise.Concordant

lemma iff_reported : Concordant promises ↔ ∀ e ∈ promises.filterMap Promise.reported?,
    ∀ f ∈ promises.filterMap Promise.reported?, e.1 = f.1 → e.2.payload = f.2.payload := by
  simp only [List.mem_filterMap]
  constructor
  · rintro hc ⟨id, v⟩ ⟨p, hp, hv⟩ ⟨id', w⟩ ⟨q, hq, hw⟩ rfl
    exact hc p hp q hq id v w (reported?_eq_some_iff.mp hv) (reported?_eq_some_iff.mp hw)
  · intro h p hp q hq id v w hv hw
    exact h (id, v) ⟨p, hp, reported?_eq_some_iff.mpr hv⟩ (id, w)
      ⟨q, hq, reported?_eq_some_iff.mpr hw⟩ rfl

instance : Decidable (Concordant promises) := decidable_of_iff' _ iff_reported

/-- Where the reports agree, any of the highest decides. -/
lemma resolvePayload_eq (hc : Concordant promises) (h : HighestReport promises id v) :
    resolvePayload promises own = v.payload := by
  obtain ⟨p, hp, hv⟩ := h.reported
  obtain ⟨id', w, hw, hresolve⟩ := exists_highestReport ⟨p, hp, id, v, hv⟩ own
  obtain ⟨q, hq, hw'⟩ := hw.reported
  -- two of the highest have one id, and so one payload
  obtain rfl : id = id' := Std.le_antisymm (hw.highest p hp id v hv) (h.highest q hq id' w hw')
  rw [hresolve, hc p hp q hq id v w hv hw']

/-- Only which promises there are matters, not their order or number. -/
theorem resolvePayload_congr (hc : Concordant promises)
    (hsame : ∀ p, p ∈ promises' ↔ p ∈ promises) :
    resolvePayload promises' own = resolvePayload promises own := by
  by_cases hreports : ∃ p ∈ promises', ∃ id v, p.Reports id v
  · obtain ⟨id, v, hv, hresolve⟩ := exists_highestReport hreports own
    rw [hresolve, hc.resolvePayload_eq (hv.congr fun p => (hsame p).symm)]
  · push Not at hreports
    rw [resolvePayload_of_no_report hreports,
      resolvePayload_of_no_report fun p hp => hreports p ((hsame p).mpr hp)]

end Promise.Concordant

/-! ### What acceptors report -/

/-- A promise reports what its acceptor had been asked to accept, under the id of that. -/
lemma Register.Account.asked_of_reports {sent : List Request} {slot : Slot} {calls : List Call}
    {record : Option AcceptorRecord} (h : Account sent slot calls record) {q : ProposalId}
    (hp : .prepare slot q (.ok p) ∈ calls) (hreports : p.Reports id v) :
    v.id = id ∧ .accept slot v ∈ sent := by
  obtain ⟨prior, hgive, hprior, _⟩ := h.reports hp hreports.given
  have hreported := Promise.reported?_eq_some_iff.mpr hreports
  rw [hgive, Promise.reported?_give] at hreported
  obtain ⟨w, hw, he⟩ := Option.map_eq_some_iff.mp hreported
  cases he
  exact ⟨rfl, (hprior v hw).2⟩

section Acceptors
open RecordStore
variable {σ : Type} [RecordStore σ] {view : StoreView σ}

/-- Acceptors that were asked to accept one payload under every id report no two. -/
theorem Promise.concordant_of_accounts {acceptors : Nat → Acceptor σ} {calls : Nat → List Call}
    {sent : List Request} (h : ∀ a, (acceptors a).Accounts view sent (calls a))
    (honce : ∀ slot slot' v w, .accept slot v ∈ sent → .accept slot' w ∈ sent → v.id = w.id →
      v.payload = w.payload)
    (hgave : ∀ p ∈ promises, ∃ a slot q, .prepare slot q (.ok p) ∈ calls a) :
    Promise.Concordant promises := by
  intro p hp p' hp' id v w hv hw
  obtain ⟨a, slot, q, hcall⟩ := hgave p hp
  obtain ⟨a', slot', q', hcall'⟩ := hgave p' hp'
  obtain ⟨hid, hasked⟩ := ((h a).believed slot).asked_of_reports hcall hv
  obtain ⟨hid', hasked'⟩ := ((h a').believed slot').asked_of_reports hcall' hw
  exact honce slot slot' v w hasked hasked' (hid.trans hid'.symm)

lemma Assembly.Lawful.concordant {quorum : Quorum} {size : Nat} {s : Assembly σ}
    (h : Assembly.Lawful view quorum size s)
    (hgave : ∀ p ∈ promises, ∃ a slot q, .prepare slot q (.ok p) ∈ s.calls a) :
    Promise.Concordant promises :=
  Promise.concordant_of_accounts h.accounts
    (fun _ _ _ _ hv hw hid => congrArg ProposalValue.payload (h.unique hv hw hid)) hgave

end Acceptors

/-- Ids go by rounds, and within a round by the bytes of their tiebreakers. If some promise reports
a value, a round has to propose the payload of one that is reported under the highest id; if none
does, its own. A promise that is refused, or lacks the id or the value, changes nothing wherever it
stands. Where the reports under one id agree, only which promises there are matters, not their order
or number; and in what acceptors answer to proposers the reports do agree. -/
theorem highest_report_adopted (promises : List Promise) (own : Payload) :
    (∀ a b : ProposalId, a ≤ b ↔ a.round < b.round ∨
      (a.round = b.round ∧ Text.toBytes a.tiebreaker ≤ Text.toBytes b.tiebreaker)) ∧
    ((∃ p ∈ promises, ∃ id v, p.Reports id v) →
      ∃ id v, HighestReport promises id v ∧ resolvePayload promises own = v.payload) ∧
    ((∀ p ∈ promises, ∀ id v, ¬p.Reports id v) → resolvePayload promises own = own) ∧
    (∀ before p after, promises = before ++ p :: after →
      p.accepted = false ∨ p.priorId = none ∨ p.priorValue = none →
      resolvePayload promises own = resolvePayload (before ++ after) own) ∧
    (Promise.Concordant promises → ∀ promises', (∀ p, p ∈ promises' ↔ p ∈ promises) →
      resolvePayload promises' own = resolvePayload promises own) ∧
    ∀ {σ : Type} [RecordStore σ] (view : StoreView σ) (quorum : Quorum) (size : Nat)
      (s : Assembly σ), Assembly.Reachable view quorum size s →
      (∀ p ∈ promises, ∃ a slot q, .prepare slot q (.ok p) ∈ s.calls a) →
      Promise.Concordant promises := by
  refine ⟨fun a b => ProposalId.le_iff_toBytes_le, fun h => exists_highestReport h own,
    resolvePayload_of_no_report, ?_, fun hc promises' hsame => hc.resolvePayload_congr hsame, ?_⟩
  · rintro before p after rfl hvoid
    exact resolvePayload_insert (fun id v => Promise.not_reports hvoid) before after
  · intro σ _ view quorum size s h hgave
    exact h.lawful.concordant hgave

/-- Two values reported twice, among promises that are refused or lack a part: in any order the
higher one is adopted. Of two rounds the second one has had an answer that reports the first. -/
theorem highest_report_adopted_medley :
    let id : ProposalId := ⟨9, "c"⟩
    let low : ProposalValue := ⟨⟨3, "a"⟩, ⟨1⟩, [3]⟩
    let high : ProposalValue := ⟨⟨3, "b"⟩, ⟨1⟩, [7]⟩
    let refused : Promise := ⟨false, id, some ⟨8, "z"⟩, some ⟨⟨8, "z"⟩, ⟨1⟩, [8]⟩⟩
    let promises : List Promise := [.give id (some high), refused, .give id (some low),
      ⟨true, id, some ⟨8, "a"⟩, none⟩, ⟨true, id, some high.id, some ⟨⟨2, "a"⟩, ⟨5⟩, [7]⟩⟩,
      ⟨true, id, none, some low⟩, .give id (some low)]
    Promise.Concordant promises ∧
      (∃ id v, HighestReport promises id v ∧ resolvePayload promises [0] = v.payload) ∧
      resolvePayload promises [0] = resolvePayload (promises.erase refused) [0] ∧
      resolvePayload (promises.reverse ++ promises) [0] = resolvePayload promises [0] ∧
      resolvePayload promises [0] = [7] ∧ resolvePayload [refused, .refuse id] [0] = [0] ∧
      ∃ s reports, Assembly.Reachable MemoryStore.view Quorum.single 1 s ∧
        (∀ p ∈ reports, ∃ a slot q, .prepare slot q (.ok p) ∈ s.calls a) ∧
        resolvePayload reports [2] = [1] ∧ Promise.Concordant reports := by
  intro id low high refused promises
  obtain ⟨-, hhighest, -, hvoid, hsame, -⟩ := highest_report_adopted promises [0]
  have hconcordant : Promise.Concordant promises := by decide
  refine ⟨hconcordant, hhighest ⟨_, List.mem_cons_self, high.id, high, rfl, rfl, rfl⟩,
    hvoid [.give id (some high)] refused _ rfl (.inl rfl), hsame hconcordant _ (by simp),
    by decide, ?_, ?_⟩
  · obtain ⟨-, -, hnone, -⟩ := highest_report_adopted [refused, .refuse id] [0]
    refine hnone fun p hp id v => Promise.not_reports (.inl ?_)
    revert p
    decide
  · obtain ⟨s, t, ⟨stores, hstores, hreaches⟩, later, -, -, hround, -⟩ :=
      Assembly.exists_two_rounds
    have ht : Assembly.Reachable MemoryStore.view Quorum.single 1 t :=
      ⟨stores, hstores, hreaches.trans later⟩
    have hlawful := ht.lawful
    -- the promises that stand behind the value of the second round
    obtain ⟨-, k, r, hr, hid, -, -, reports, hpayload, hsource, -⟩ :=
      hlawful.offers (hlawful.chosen_of_ended hround rfl).1
    obtain rfl := hlawful.distinct hr hround hid
    rw [hround] at hr
    cases hr
    have hgave : ∀ p ∈ reports, ∃ a slot q, .prepare slot q (.ok p) ∈ t.calls a := by
      intro p hp
      obtain ⟨a, hpromised⟩ := hsource p hp
      exact ⟨a, _, _, hpromised.1⟩
    exact ⟨t, reports, ht, hgave, hpayload.symm,
      (highest_report_adopted reports [2]).2.2.2.2.2 _ _ _ t ht hgave⟩

/-- Without that agreement the last of the reports under the highest id is adopted. -/
example : let promises : List Promise :=
      [.give ⟨9, "c"⟩ (some ⟨⟨3, "a"⟩, ⟨1⟩, [1]⟩), .give ⟨9, "c"⟩ (some ⟨⟨3, "a"⟩, ⟨1⟩, [2]⟩)]
    resolvePayload promises [0] = [2] ∧ resolvePayload promises.reverse [0] = [1] := by
  decide

end Synod
