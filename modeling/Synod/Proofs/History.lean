import Synod.Proofs.Belief
import Synod.Proofs.Register

/-!
# Histories of an acceptor

Requests reach an acceptor in any order, its store fails now and then, and now and then it is
restarted. When failures have no effect, none of this shows in its answers: taken slot by slot,
the requests that were answered got the answers of a register, and the store holds that
register's record.
-/
namespace Synod
namespace Call

/-- The calls for a slot that were answered. -/
def answered (slot : Slot) (calls : List Call) : List Call :=
  calls.filter fun c => c.slot = slot ∧ c.failure? = none

theorem answered_append (slot : Slot) (calls calls' : List Call) :
    answered slot (calls ++ calls') = answered slot calls ++ answered slot calls' :=
  List.filter_append ..

theorem mem_answered {slot : Slot} {calls : List Call} {c : Call} :
    c ∈ answered slot calls ↔ c ∈ calls ∧ c.slot = slot ∧ c.failure? = none := by
  simp [answered]

/-- A call that failed, or one for another slot, does not count. -/
theorem answered_cons_of_not {slot : Slot} {c : Call} (h : ¬(c.slot = slot ∧ c.failure? = none))
    (calls : List Call) : answered slot (c :: calls) = answered slot calls := by
  simp [answered, h]

theorem answered_cons_of {slot : Slot} {c : Call} (h : c.slot = slot ∧ c.failure? = none)
    (calls : List Call) : answered slot (c :: calls) = c :: answered slot calls := by
  simp [answered, h]

end Call

namespace Register

@[simp] theorem request_serve (record : Option AcceptorRecord) (r : Request) :
    (serve record r).1.request = r := by
  cases r <;> rfl

@[simp] theorem failure?_serve (record : Option AcceptorRecord) (r : Request) :
    (serve record r).1.failure? = none := by
  cases r <;> rfl

end Register

namespace Acceptor
open RecordStore

variable {σ : Type} [RecordStore σ] {view : StoreView σ}

/-- What can happen to an acceptor. A disturbance is anything else that can happen to its store;
it leaves the records alone, but may well decide which operations fail from then on. -/
inductive Event (view : StoreView σ)
  | request (r : Request)
  | restart
  | disturb (change : σ → σ) (harmless : ∀ s, view.held (change s) = view.held s)

def Event.request? : Event view → Option Request
  | .request r => some r
  | _ => none

/-- The call that a request leads to, and the acceptor after it. -/
def serve (a : Acceptor σ) : Request → Call × Acceptor σ
  | .prepare slot id => (.prepare slot id (a.prepare slot id).1, (a.prepare slot id).2)
  | .accept slot value => (.accept slot value (a.accept slot value).1, (a.accept slot value).2)

def meet (a : Acceptor σ) : Event view → List Call × Acceptor σ
  | .request r => ([(a.serve r).1], (a.serve r).2)
  | .restart => ([], a.restart)
  | .disturb change _ => ([], { a with store := change a.store })

def meetAll (a : Acceptor σ) : List (Event view) → List Call × Acceptor σ
  | [] => ([], a)
  | e :: rest => ((a.meet e).1 ++ ((a.meet e).2.meetAll rest).1, ((a.meet e).2.meetAll rest).2)

theorem meetAll_append (a : Acceptor σ) (events events' : List (Event view)) :
    a.meetAll (events ++ events') =
      ((a.meetAll events).1 ++ ((a.meetAll events).2.meetAll events').1,
        ((a.meetAll events).2.meetAll events').2) := by
  induction events generalizing a with
  | nil => rfl
  | cons e rest ih => simp [meetAll, ih]

/-- Every request leads to one call. -/
theorem request_meetAll (a : Acceptor σ) (events : List (Event view)) :
    (a.meetAll events).1.map Call.request = events.filterMap Event.request? := by
  induction events generalizing a with
  | nil => rfl
  | cons e rest ih =>
    rcases e with r | _ | ⟨change, harmless⟩
    · cases r <;> simp [meetAll, meet, serve, Event.request?, Call.request, ih]
    · exact ih a.restart
    · exact ih ⟨change a.store, a.known⟩

section Disturb
variable {change : σ → σ} (harmless : ∀ s, view.held (change s) = view.held s)
include harmless

theorem durable_disturb (a : Acceptor σ) :
    (Acceptor.mk (change a.store) a.known).durable view = a.durable view :=
  harmless a.store

theorem believes_disturb (a : Acceptor σ) :
    (Acceptor.mk (change a.store) a.known).believes view = a.believes view := by
  funext slot
  simp only [believes, harmless]

end Disturb

/-- A write goes to the record of its slot, and there may be none. -/
lemma written_cases (slot : Slot) (write : Option AcceptorRecord)
    (records : Slot → Option AcceptorRecord) :
    (write = none ∧ written slot write records = records) ∨
    ∃ r, write = some r ∧ written slot write records = Function.update records slot (some r) := by
  cases write with
  | none => exact .inl ⟨rfl, rfl⟩
  | some r => exact .inr ⟨r, rfl, rfl⟩

/-- What a request does to an acceptor over any store. If it is answered, it is answered as by the
register of its slot, and if it writes, the write reaches the store. If it fails, the acceptor goes
by what it went by, but the write may have reached the store. -/
inductive Effect (view : StoreView σ) (before after : Acceptor σ) (r : Request) : Call → Prop
  | wrote (believed : after.believes view = Function.update (before.believes view) r.slot
        (Register.serve (before.believes view r.slot) r).2)
      (kept : after.durable view = Function.update (before.durable view) r.slot
        (Register.serve (before.believes view r.slot) r).2) :
      Effect view before after r (Register.serve (before.believes view r.slot) r).1
  | repeated (same : (Register.serve (before.believes view r.slot) r).2 =
        before.believes view r.slot)
      (believed : after.believes view = before.believes view)
      (kept : after.durable view = before.durable view) :
      Effect view before after r (Register.serve (before.believes view r.slot) r).1
  | failed {c : Call} (request : c.request = r) (failure : c.failure? ≠ none)
      (believed : after.believes view = before.believes view)
      (kept : after.durable view = before.durable view ∨
        after.durable view = Function.update (before.durable view) r.slot
          (Register.serve (before.believes view r.slot) r).2) : Effect view before after r c

lemma Handled.effect {α : Type} {before after : Acceptor σ} {r : Request}
    {reply : Option AcceptorRecord → Reply α} {outcome : Except Failure α}
    (call : Except Failure α → Call)
    (hserve : ∀ record, Register.serve record r =
      (call (.ok (reply record).answer), (reply record).write.or record))
    (hrequest : ∀ outcome, (call outcome).request = r)
    (hfailure : ∀ e, (call (.error e)).failure? ≠ none)
    (h : Handled view before after r.slot (reply (before.believes view r.slot)) outcome) :
    Effect view before after r (call outcome) := by
  have hw := written_cases r.slot (reply (before.believes view r.slot)).write
  cases h with
  | answered hbelief hkept =>
    rcases hw (before.believes view) with ⟨hnone, hsame⟩ | ⟨record, hsome, hnew⟩
    · have h : Effect view before after r (Register.serve (before.believes view r.slot) r).1 := by
        refine .repeated ?_ (hbelief.trans hsame) ?_
        · rw [hserve, hnone, Option.none_or]
        · rw [hkept, hnone, written_none]
      rwa [hserve] at h
    · have h : Effect view before after r (Register.serve (before.believes view r.slot) r).1 := by
        refine .wrote ?_ ?_
        · rw [hserve, hbelief, hnew, hsome, Option.some_or]
        · rw [hserve, hkept, hsome, written_some, Option.some_or]
      rwa [hserve] at h
  | failed e hbelief hkept => exact .failed (hrequest _) (hfailure e) hbelief (.inl hkept)
  | late e hbelief hkept =>
    refine .failed (hrequest _) (hfailure e) hbelief ?_
    rcases hw (before.durable view) with ⟨_, hsame⟩ | ⟨record, hsome, hnew⟩
    · exact .inl (hkept.trans hsame)
    · exact .inr (by rw [hkept, hnew, hserve, hsome, Option.some_or])

theorem effect (view : StoreView σ) (a : Acceptor σ) (r : Request) :
    Effect view a (a.serve r).2 r (a.serve r).1 := by
  cases r with
  | prepare slot id =>
    exact Handled.effect (.prepare slot id) (fun _ => rfl) (fun _ => rfl)
      (fun _ => Option.some_ne_none _) (handled view (Reply.toPrepare · id) a slot)
  | accept slot value =>
    exact Handled.effect (.accept slot value) (fun _ => rfl) (fun _ => rfl)
      (fun _ => Option.some_ne_none _) (handled view (Reply.toAccept · value) a slot)

/-- What a store names a failure of durability, its acceptor does too. -/
theorem failureOf_durability (slot : Slot) {f : StoreFault} (h : f.OfDurability) :
    ∃ c, failureOf slot f = .durability c := by
  cases f with
  | failed cause => exact h
  | crashed => exact ⟨_, rfl⟩

section Atomic
variable (hv : view.Atomic)
include hv

lemma current_error (a : Acceptor σ) (slot : Slot) {e : Failure}
    (h : (a.current slot).1 = .error e) : ∃ c, e = .durability c := by
  have hload := @StoreView.Atomic.load_fault _ _ _ hv slot a.store
  unfold current at h
  split at h
  · cases h
  · split at h
    · cases h
    · rename_i f s hl
      cases h
      exact failureOf_durability slot (hload (congrArg Prod.fst hl))

lemma commit_error {α : Type} {reply : Reply α} {a : Acceptor σ} {slot : Slot} {e : Failure}
    (h : (a.commit slot reply).1 = .error e) :
    (∃ c, e = .durability c) ∧ (a.commit slot reply).2.durable view = a.durable view := by
  unfold commit at h ⊢
  cases hw : reply.write with
  | none => simp [hw] at h
  | some record =>
    have hsave := @StoreView.Atomic.save_fault _ _ _ hv slot record a.store
    have hheld := @StoreView.Atomic.held_save_error _ _ _ hv slot record a.store
    rcases hs : save slot record a.store with ⟨outcome, s⟩
    rw [hs] at hsave hheld
    simp only [hw, hs] at h ⊢
    cases outcome with
    | ok u => cases h
    | error f =>
      cases h
      exact ⟨failureOf_durability slot (hsave rfl), hheld rfl⟩

/-- When failures have no effect, a request that fails leaves the store as it was, and the failure
is one of durability. -/
lemma handle_error {α : Type} {reply : Option AcceptorRecord → Reply α} {a : Acceptor σ}
    {slot : Slot} {e : Failure} (h : (a.handle reply slot).1 = .error e) :
    (∃ c, e = .durability c) ∧ (a.handle reply slot).2.durable view = a.durable view := by
  obtain ⟨_, hdurable, _⟩ := current_spec view a slot
  have hcause := current_error hv a slot (e := e)
  unfold handle at h ⊢
  rcases hc : a.current slot with ⟨outcome, b⟩
  rw [hc] at h hdurable hcause
  cases outcome with
  | error f =>
    cases h
    exact ⟨hcause rfl, hdurable⟩
  | ok r =>
    obtain ⟨hc, hk⟩ := commit_error hv h
    exact ⟨hc, hk.trans hdurable⟩

lemma serve_error {a : Acceptor σ} {r : Request} (h : (a.serve r).1.failure? ≠ none) :
    (∃ c, (a.serve r).1.failure? = some (.durability c)) ∧
    (a.serve r).2.durable view = a.durable view := by
  cases r with
  | prepare slot id =>
    cases hc : (a.prepare slot id).1 with
    | ok p => simp [serve, hc, Call.failure?] at h
    | error e =>
      obtain ⟨⟨c, rfl⟩, hkept⟩ := handle_error hv hc
      exact ⟨⟨c, by simp [serve, hc, Call.failure?]⟩, hkept⟩
  | accept slot value =>
    cases hc : (a.accept slot value).1 with
    | ok x => simp [serve, hc, Call.failure?] at h
    | error e =>
      obtain ⟨⟨c, rfl⟩, hkept⟩ := handle_error hv hc
      exact ⟨⟨c, by simp [serve, hc, Call.failure?]⟩, hkept⟩

/-- Request by request: the acceptor fails without a trace, or it does what the register of the
slot does. -/
lemma serve_cases {a : Acceptor σ} (ha : a.believes view = a.durable view) (r : Request) :
    (a.serve r).2.believes view = (a.serve r).2.durable view ∧
    (((∃ c, (a.serve r).1.failure? = some (.durability c)) ∧
        (a.serve r).2.durable view = a.durable view) ∨
      ((a.serve r).1 = (Register.serve (a.durable view r.slot) r).1 ∧
        (a.serve r).2.durable view =
          Function.update (a.durable view) r.slot (Register.serve (a.durable view r.slot) r).2)) := by
  have heffect := effect view a r
  have herror := serve_error hv (a := a) (r := r)
  rcases hp : a.serve r with ⟨c, b⟩
  rw [hp] at heffect herror
  cases heffect with
  | wrote hbelief hkept =>
    rw [ha] at hbelief hkept ⊢
    exact ⟨hbelief.trans hkept.symm, .inr ⟨rfl, hkept⟩⟩
  | repeated hsame hbelief hkept =>
    rw [ha] at hsame hbelief ⊢
    exact ⟨hbelief.trans hkept.symm, .inr ⟨rfl, by rw [hsame, Function.update_eq_self, hkept]⟩⟩
  | failed hrequest hfailure hbelief _ =>
    obtain ⟨hcause, hkept⟩ := herror hfailure
    exact ⟨hbelief.trans (ha.trans hkept.symm), .inl ⟨hcause, hkept⟩⟩

/-- A whole history, from any acceptor whose memory agrees with its store: induction on the
events, with that agreement as the invariant. -/
theorem meetAll_spec {a : Acceptor σ} (ha : a.believes view = a.durable view)
    (events : List (Event view)) :
    (a.meetAll events).2.believes view = (a.meetAll events).2.durable view ∧
    (∀ c ∈ (a.meetAll events).1, ∀ e, c.failure? = some e → ∃ cause, e = .durability cause) ∧
    ∀ slot, Register.serveAll (a.durable view slot)
        ((Call.answered slot (a.meetAll events).1).map Call.request) =
      (Call.answered slot (a.meetAll events).1, (a.meetAll events).2.durable view slot) := by
  induction events generalizing a with
  | nil => exact ⟨ha, by simp [meetAll], fun slot => rfl⟩
  | cons e rest ih =>
    rcases e with r | _ | ⟨change, harmless⟩
    · obtain ⟨hsync, hcases⟩ := serve_cases hv ha r
      obtain ⟨hend, hfail, hrun⟩ := ih hsync
      simp only [meetAll, meet, List.singleton_append, List.forall_mem_cons]
      rcases hcases with ⟨⟨c, hc⟩, hkept⟩ | ⟨hcall, hkept⟩
      · refine ⟨hend, ⟨fun e he => ?_, hfail⟩, fun slot => ?_⟩
        · rw [hc] at he
          cases he
          exact ⟨c, rfl⟩
        · rw [Call.answered_cons_of_not (by simp [hc]), ← hkept]
          exact hrun slot
      · refine ⟨hend, ⟨fun e he => ?_, hfail⟩, fun slot => ?_⟩
        · rw [hcall, Register.failure?_serve] at he
          cases he
        have hslot := hrun slot
        rw [hkept] at hslot
        by_cases hs : r.slot = slot
        · subst hs
          have hcount : (a.serve r).1.slot = r.slot ∧ (a.serve r).1.failure? = none := by
            simp [hcall, Call.slot]
          rw [Function.update_self] at hslot
          rw [Call.answered_cons_of hcount, List.map_cons, hcall, Register.request_serve,
            Register.serveAll, hslot]
        · rw [Function.update_of_ne (Ne.symm hs)] at hslot
          rw [Call.answered_cons_of_not (by simp [hcall, Call.slot, hs])]
          exact hslot
    · simpa [meetAll, meet] using ih (a := a.restart) rfl
    · have h := ih (a := ⟨change a.store, a.known⟩)
        (by rw [believes_disturb harmless, durable_disturb harmless, ha])
      rw [durable_disturb harmless] at h
      simpa [meetAll, meet] using h

end Atomic

/-- The answers of an acceptor are those of one register for each slot, which gets the requests
that were answered and no others, and the store holds the registers' records. Every request leads
to a call, and those that fail do so for want of durability. -/
theorem refines_registers (hv : view.Atomic) (s : σ) (events : List (Event view)) :
    ((start s).meetAll events).1.map Call.request = events.filterMap Event.request? ∧
    (∀ c ∈ ((start s).meetAll events).1, ∀ e,
      c.failure? = some e → ∃ cause, e = .durability cause) ∧
    ∀ slot, Register.serveAll (view.held s slot)
        ((Call.answered slot ((start s).meetAll events).1).map Call.request) =
      (Call.answered slot ((start s).meetAll events).1,
        view.held ((start s).meetAll events).2.store slot) := by
  have hsync : (start s).believes view = (start s).durable view := rfl
  exact ⟨request_meetAll _ events, (meetAll_spec hv hsync events).2⟩

/-- Two slots, a save refused, a save broken off, a load refused, and a restart after each. -/
def rehearsal : List (Event (FaultyStore.view MemoryStore.view)) :=
  let fail (mode : FaultMode) : Event (FaultyStore.view MemoryStore.view) :=
    .disturb ({ · with mode }) fun _ => rfl
  let value : ProposalValue := ⟨⟨1, "a"⟩, ⟨7⟩, [1]⟩
  [.request (.prepare ⟨7⟩ ⟨1, "a"⟩), fail .failSave, .request (.accept ⟨7⟩ value),
    .request (.prepare ⟨8⟩ ⟨5, "b"⟩), .restart, fail .crashSave, .request (.accept ⟨7⟩ value),
    .restart, fail .failLoad, .request (.prepare ⟨7⟩ ⟨2, "b"⟩), fail .ok,
    .request (.accept ⟨7⟩ value), .request (.prepare ⟨7⟩ ⟨2, "b"⟩), .restart,
    .request (.accept ⟨7⟩ value)]

theorem refines_registers_rehearsal :
    (FaultyStore.view MemoryStore.view).Atomic ∧
    (((start (FaultyStore.new MemoryStore.empty)).meetAll rehearsal).1.map
      fun c => c.failure?.isNone) = [true, false, false, false, false, true, true, true] ∧
    ∀ slot, Register.serveAll none ((Call.answered slot
        ((start (FaultyStore.new MemoryStore.empty)).meetAll rehearsal).1).map Call.request) =
      (Call.answered slot ((start (FaultyStore.new MemoryStore.empty)).meetAll rehearsal).1,
        (FaultyStore.view MemoryStore.view).held
          ((start (FaultyStore.new MemoryStore.empty)).meetAll rehearsal).2.store slot) := by
  have hv := FaultyStore.view_atomic MemoryStore.view_atomic
  exact ⟨hv, by decide, (refines_registers hv (FaultyStore.new MemoryStore.empty) rehearsal).2.2⟩

end Acceptor
end Synod
