import Synod.Proofs.History

/-!
# The contract of an acceptor

What proposers rely on, for an acceptor that started with an empty store and has been through
failures and restarts since: promises bind, they report what was acknowledged last, refusals name
a reason, and the record held only ever grows. All of it is shown for a register first, and holds
for an acceptor because it refines its registers.
-/
namespace Synod

/-- How the calls for a slot hang together. -/
structure Call.Contract (slot : Slot) (calls : List Call) : Prop where
  /-- A promise that was given rules out all that comes later and is not above it. -/
  binding : ∀ {before q p after}, calls = before ++ .prepare slot q (.ok p) :: after →
    p.accepted = true → ∀ c ∈ after, c.slot = slot → c.Respects q
  /-- A promise that is given reports the value acknowledged last. -/
  prior : ∀ {before q p after}, calls = before ++ .prepare slot q (.ok p) :: after →
    p.accepted = true →
    p.priorValue = Call.lastAcknowledged (before.filter (·.slot = slot)) ∧
    p.priorId = p.priorValue.map (·.id)
  /-- That value has the highest id of all that were acknowledged. -/
  highest : ∀ {before q p after}, calls = before ++ .prepare slot q (.ok p) :: after →
    p.accepted = true →
    ∀ u ∈ (before.filter (·.slot = slot)).filterMap Call.acknowledged?,
      ∃ v, p.priorValue = some v ∧ u.id ≤ v.id
  honest : ∀ c ∈ calls, c.slot = slot → c.Honest

namespace Register

variable {rs : List Request} {before after : List Call} {slot : Slot} {q : ProposalId} {p : Promise}

lemma respects_of_promise {record : Option AcceptorRecord}
    (h : (serveAll record rs).1 = before ++ .prepare slot q (.ok p) :: after)
    (hp : p.accepted = true) : ∀ c ∈ after, c.Respects q := by
  obtain ⟨earlier, r, later, _, hc, rfl⟩ := exists_of_serveAll_eq_append h
  exact respects_serveAll (give_of_promise hc.symm hp).2.2 later

lemma recalled_by_promise
    (h : (serveAll none rs).1 = before ++ .prepare slot q (.ok p) :: after)
    (hp : p.accepted = true) :
    p.priorValue = Call.lastAcknowledged before ∧ p.priorId = p.priorValue.map (·.id) ∧
    ∀ u ∈ before.filterMap Call.acknowledged?, ∃ v, p.priorValue = some v ∧ u.id ≤ v.id := by
  obtain ⟨earlier, r, later, rfl, hc, _⟩ := exists_of_serveAll_eq_append h
  have hrecalls := recalls_serveAll recalls_none earlier
  rw [(give_of_promise hc.symm hp).1]
  exact ⟨hrecalls.accepted, rfl, hrecalls.highest⟩

lemma honest_serveAll {c : Call} (h : c ∈ (serveAll none rs).1) : c.Honest := by
  obtain ⟨before, after, h⟩ := List.append_of_mem h
  obtain ⟨earlier, r, later, _, rfl, _⟩ := exists_of_serveAll_eq_append h
  exact honest_serve (recalls_serveAll recalls_none earlier).sound r

end Register

namespace Call

lemma filterMap_answered (slot : Slot) (calls : List Call) :
    (answered slot calls).filterMap acknowledged? =
      (calls.filter (·.slot = slot)).filterMap acknowledged? := by
  induction calls with
  | nil => rfl
  | cons c rest ih =>
    by_cases hs : c.slot = slot
    · by_cases hf : c.failure? = none
      · simp [answered_cons_of ⟨hs, hf⟩, hs, List.filterMap_cons, ih]
      · simp [answered_cons_of_not (fun h => hf h.2), hs, acknowledged?_of_failure hf, ih]
    · simp [answered_cons_of_not (fun h => hs h.1), hs, ih]

lemma lastAcknowledged_answered (slot : Slot) (calls : List Call) :
    lastAcknowledged (answered slot calls) = lastAcknowledged (calls.filter (·.slot = slot)) := by
  rw [lastAcknowledged, lastAcknowledged, filterMap_answered]

/-- It is enough that the calls that were answered look as if a register had answered them. -/
theorem contract_of_serveAll {slot : Slot} {calls : List Call} {rs : List Request}
    (h : (Register.serveAll none rs).1 = answered slot calls) : Contract slot calls := by
  have hsplit : ∀ {before q p after}, calls = before ++ .prepare slot q (.ok p) :: after →
      (Register.serveAll none rs).1 =
        answered slot before ++ .prepare slot q (.ok p) :: answered slot after := by
    rintro before q p after rfl
    have hc : (Call.prepare slot q (.ok p)).slot = slot ∧
      (Call.prepare slot q (.ok p)).failure? = none := ⟨rfl, rfl⟩
    rw [h, answered_append, answered_cons_of hc]
  constructor
  case binding =>
    intro before q p after hc hp c hmem hs
    by_cases hf : c.failure? = none
    · exact Register.respects_of_promise (hsplit hc) hp c (mem_answered.mpr ⟨hmem, hs, hf⟩)
    · rcases c with ⟨_, _, _ | _⟩ | ⟨_, _, _ | _⟩ <;> simp_all [failure?, Respects]
  case prior =>
    intro before q p after hc hp
    obtain ⟨hvalue, hid, _⟩ := Register.recalled_by_promise (hsplit hc) hp
    exact ⟨hvalue.trans (lastAcknowledged_answered slot _), hid⟩
  case highest =>
    intro before q p after hc hp
    rw [← filterMap_answered]
    exact (Register.recalled_by_promise (hsplit hc) hp).2.2
  case honest =>
    intro c hmem hs
    by_cases hf : c.failure? = none
    · exact Register.honest_serveAll (h ▸ mem_answered.mpr ⟨hmem, hs, hf⟩)
    · rcases c with ⟨_, _, _ | _⟩ | ⟨_, _, _ | _⟩ <;> simp_all [failure?, Honest]

end Call

namespace Acceptor
open RecordStore

variable {σ : Type} [RecordStore σ] {view : StoreView σ}

/-- What the store holds for a slot after a history, the store having been empty. -/
lemma serveAll_answered (hv : view.Atomic) {s : σ} (hs : view.held s = fun _ => none)
    (events : List (Event view)) (slot : Slot) :
    Register.serveAll none
        ((Call.answered slot ((start s).meetAll events).1).map Call.request) =
      (Call.answered slot ((start s).meetAll events).1,
        ((start s).meetAll events).2.durable view slot) := by
  have h := (meetAll_spec hv (a := start s) rfl events).2.2 slot
  rwa [show (start s).durable view slot = none from congrFun hs slot] at h

/-- A promise held is never taken back, whatever happens next. -/
lemma bound_meetAll (hv : view.Atomic) {s : σ} (hs : view.held s = fun _ => none)
    {earlier : List (Event view)} {slot : Slot} {q : ProposalId}
    (h : Register.Bound q (((start s).meetAll earlier).2.durable view slot))
    (later : List (Event view)) :
    Register.Bound q (((start s).meetAll (earlier ++ later)).2.durable view slot) := by
  have hnow := congrArg Prod.snd (serveAll_answered hv hs earlier slot)
  have hlater := congrArg Prod.snd (serveAll_answered hv hs (earlier ++ later) slot)
  rw [meetAll_append, Call.answered_append, List.map_append, Register.serveAll_append] at hlater
  dsimp only at hnow hlater
  rw [meetAll_append, ← hlater, hnow]
  exact Register.bound_serveAll h _

lemma sound_meetAll (hv : view.Atomic) {s : σ} (hs : view.held s = fun _ => none)
    (events : List (Event view)) (slot : Slot) :
    Register.Sound (((start s).meetAll events).2.durable view slot) := by
  have h := congrArg Prod.snd (serveAll_answered hv hs events slot)
  dsimp only at h
  rw [← h]
  exact (Register.recalls_serveAll Register.recalls_none _).sound

/-- An acceptor keeps its contract for every slot through failures and restarts. It goes by what
its store holds; the promise held never goes back, and the value accepted is never above it. -/
theorem keeps_contract (hv : view.Atomic) {s : σ} (hs : view.held s = fun _ => none)
    (events : List (Event view)) (slot : Slot) :
    ((start s).meetAll events).2.believes view = ((start s).meetAll events).2.durable view ∧
    (∀ earlier later, events = earlier ++ later → ∀ q,
      Register.Bound q (((start s).meetAll earlier).2.durable view slot) →
      Register.Bound q (((start s).meetAll events).2.durable view slot)) ∧
    Register.Sound (((start s).meetAll events).2.durable view slot) ∧
    Call.Contract slot ((start s).meetAll events).1 := by
  refine ⟨(meetAll_spec hv rfl events).1, ?_, sound_meetAll hv hs events slot, ?_⟩
  · rintro earlier later rfl q hq
    exact bound_meetAll hv hs hq later
  · exact Call.contract_of_serveAll (congrArg Prod.fst (serveAll_answered hv hs events slot))

/-- The rehearsal ends with the promise that was given after the value was acknowledged. -/
theorem keeps_contract_rehearsal :
    (FaultyStore.view MemoryStore.view).Atomic ∧
    (FaultyStore.view MemoryStore.view).held (FaultyStore.new MemoryStore.empty) =
      (fun _ => none) ∧
    Register.Bound ⟨2, "b"⟩ (((start (FaultyStore.new MemoryStore.empty)).meetAll
      rehearsal).2.durable (FaultyStore.view MemoryStore.view) ⟨7⟩) ∧
    Call.Contract ⟨7⟩ ((start (FaultyStore.new MemoryStore.empty)).meetAll rehearsal).1 := by
  have hv := FaultyStore.view_atomic MemoryStore.view_atomic
  have hs : (FaultyStore.view MemoryStore.view).held (FaultyStore.new MemoryStore.empty) =
      fun _ => none := rfl
  have hcontract := keeps_contract hv hs rehearsal ⟨7⟩
  refine ⟨hv, hs, ?_, hcontract.2.2.2⟩
  refine hcontract.2.1 (rehearsal.take 13) (rehearsal.drop 13) rfl _ ?_
  exact ⟨⟨⟨2, "b"⟩, some ⟨⟨1, "a"⟩, ⟨7⟩, [1]⟩⟩, rfl, by decide⟩

end Acceptor
end Synod
