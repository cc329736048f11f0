import Synod.Proofs.History

/-!
# Messages that arrive again

A network may deliver a message twice. Whatever an acceptor answers to a request, the record that
it holds from then on settles the request: a promise stands at least as high as the id asked for,
and a value is either outbid or held under its own id. No later request undoes that, provided that
an id is never used for two values, and a request that is settled is answered without a write.
-/
namespace Synod

/-- No two values go by the same id for the same slot. -/
def OneValuePerId (requests : List Request) : Prop :=
  ∀ slot v v', .accept slot v ∈ requests → .accept slot v' ∈ requests → v.id = v'.id → v = v'

/-- The call was answered with a promise given or with a value accepted. -/
def Call.Granted : Call → Prop
  | prepare _ _ (.ok promise) => promise.accepted = true
  | accept _ _ (.ok answer) => answer.accepted = true
  | _ => False

namespace Register

/-- What a register holds after it has answered a request, whatever came in between. -/
def Settled (record : Option AcceptorRecord) : Request → Prop
  | .prepare _ id => Bound id record
  | .accept _ value =>
    ∃ held, record = some held ∧ (value.id < held.promised ∨ held = ⟨value.id, some value⟩)

lemma settled_of_serve {record : Option AcceptorRecord} (h : Sound record) (r : Request) :
    Settled (serve record r).2 r := by
  cases r with
  | prepare slot id =>
    rcases Reply.toPrepare_cases record id with ⟨held, rfl, hle, he⟩ | ⟨_, he⟩
    · exact ⟨held, by simp [serve, he], hle⟩
    · exact ⟨⟨id, _⟩, by simp [serve, he]; rfl, Std.le_refl id⟩
  | accept slot value =>
    rcases Reply.toAccept_cases record value with
      ⟨held, rfl, hlt, he⟩ | ⟨⟨promised, accepted⟩, rfl, hle, hv, he⟩ | ⟨_, he⟩
    · exact ⟨held, by simp [serve, he], .inl hlt⟩
    · have hid : promised = value.id := Std.le_antisymm hle (h _ value rfl hv)
      exact ⟨⟨promised, accepted⟩, by simp [serve, he], .inr (by rw [hid, ← hv])⟩
    · exact ⟨⟨value.id, some value⟩, by simp [serve, he], .inr rfl⟩

/-- A register that holds a value under its own id goes on holding it, or promises a higher id. -/
lemma settled_serve_of_held {value : ProposalValue} {r : Request}
    (hvalue : ∀ slot v, r = .accept slot v → v.id = value.id → v = value) :
    Settled (serve (some ⟨value.id, some value⟩) r).2 (.accept r.slot value) := by
  cases r with
  | prepare slot id =>
    rcases Reply.toPrepare_cases (some ⟨value.id, some value⟩) id with ⟨_, _, _, he⟩ | ⟨hlt, he⟩
    · exact ⟨_, by simp [serve, he], .inr rfl⟩
    · exact ⟨⟨id, _⟩, by simp [serve, he]; rfl, .inl (hlt _ rfl)⟩
  | accept slot v =>
    rcases Reply.toAccept_cases (some ⟨value.id, some value⟩) v with
      ⟨_, _, _, he⟩ | ⟨_, _, _, _, he⟩ | ⟨hle, he⟩
    · exact ⟨_, by simp [serve, he], .inr rfl⟩
    · exact ⟨_, by simp [serve, he], .inr rfl⟩
    · refine ⟨⟨v.id, some v⟩, by simp [serve, he], ?_⟩
      by_cases hid : v.id = value.id
      · exact .inr (by rw [hvalue slot v rfl hid])
      · exact .inl (Std.lt_of_le_of_ne (hle _ rfl) (Ne.symm hid))

/-- A request stays settled through the next one, unless that brings another value under its id. -/
lemma settled_serve {record : Option AcceptorRecord} {settled r : Request}
    (h : Settled record settled)
    (hvalue : ∀ slot slot' v v', settled = .accept slot v → r = .accept slot' v' →
      v'.id = v.id → v' = v) : Settled (serve record r).2 settled := by
  cases settled with
  | prepare slot id => exact bound_serve h r
  | accept slot value =>
    obtain ⟨held, rfl, hlt | rfl⟩ := h
    · obtain ⟨held', hheld', hle⟩ := bound_serve ⟨held, rfl, Std.le_refl _⟩ r
      exact ⟨held', hheld', .inl (Std.lt_of_lt_of_le hlt hle)⟩
    · exact settled_serve_of_held fun slot' v hr => hvalue slot slot' value v rfl hr

theorem settled_serveAll {record : Option AcceptorRecord} {settled : Request} {rs : List Request}
    (h : Settled record settled)
    (hvalues : ∀ r ∈ rs, ∀ slot slot' v v', settled = .accept slot v → r = .accept slot' v' →
      v'.id = v.id → v' = v) : Settled (serveAll record rs).2 settled := by
  induction rs generalizing record with
  | nil => exact h
  | cons r rest ih =>
    rw [List.forall_mem_cons] at hvalues
    exact ih (settled_serve h hvalues.1) hvalues.2

lemma sound_serveAll {record : Option AcceptorRecord} (h : Sound record) (rs : List Request) :
    Sound (serveAll record rs).2 := by
  induction rs generalizing record with
  | nil => exact h
  | cons r rest ih => exact ih (sound_serve h r)

/-- An id that is settled is refused, and nothing is written. -/
lemma toPrepare_of_settled {record : Option AcceptorRecord} {slot : Slot} {id : ProposalId}
    (h : Settled record (.prepare slot id)) :
    (Reply.toPrepare record id).write = none ∧
    (Reply.toPrepare record id).answer.accepted = false := by
  obtain ⟨held, rfl, hle⟩ := h
  rcases Reply.toPrepare_cases (some held) id with ⟨_, _, _, he⟩ | ⟨hlt, _⟩
  · simp [he, Promise.refuse]
  · exact absurd hle (Std.not_le.mpr (hlt held rfl))

/-- A value that is settled is refused for a higher promise or acknowledged again, and nothing is
written. -/
lemma toAccept_of_settled {record : Option AcceptorRecord} {slot : Slot} {value : ProposalValue}
    (h : Settled record (.accept slot value)) :
    (Reply.toAccept record value).write = none ∧
    ((Reply.toAccept record value).answer = ⟨true, value.id⟩ ∨
      (Reply.toAccept record value).answer.accepted = false ∧
      value.id < (Reply.toAccept record value).answer.promised) := by
  obtain ⟨held, rfl, hlt | rfl⟩ := h
  · simp [Reply.toAccept, hlt]
  · simp [Reply.toAccept, Std.lt_irrefl]

/-- A request that a register refused once is refused from then on. -/
lemma not_granted_of_refused {record : Option AcceptorRecord} {r : Request}
    (hrefused : ¬(serve record r).1.Granted) (rs : List Request) :
    ¬(serve (serveAll (serve record r).2 rs).2 r).1.Granted := by
  cases r with
  | prepare slot id =>
    rcases Reply.toPrepare_cases record id with ⟨held, rfl, hle, he⟩ | ⟨_, he⟩
    · have hbound : Bound id (serve (some held) (.prepare slot id)).2 :=
        ⟨held, by simp [serve, he], hle⟩
      have hanswer := respects_serve (bound_serveAll hbound rs) (.prepare slot id)
      simpa [serve, Call.Granted, Call.Respects] using hanswer
    · simp [serve, Call.Granted, he, Promise.give] at hrefused
  | accept slot value =>
    rcases Reply.toAccept_cases record value with
      ⟨held, rfl, hlt, he⟩ | ⟨_, _, _, _, he⟩ | ⟨_, he⟩
    · have hbound : Bound held.promised (serve (some held) (.accept slot value)).2 :=
        ⟨held, by simp [serve, he], Std.le_refl _⟩
      have hanswer := respects_serve (bound_serveAll hbound rs) (.accept slot value)
      simpa [serve, Call.Granted] using hanswer hlt
    · simp [serve, Call.Granted, he] at hrefused
    · simp [serve, Call.Granted, he] at hrefused

end Register

namespace Acceptor
open RecordStore

variable {σ : Type} [RecordStore σ] {view : StoreView σ}

/-- What comes of delivering a request again to an acceptor that has answered it before. -/
structure Harmless (view : StoreView σ) (a : Acceptor σ) (r : Request) (first : Call) : Prop where
  /-- Reading the record of the slot, if it is not in memory, is all that the acceptor does. -/
  reads : (a.serve r).2 = (a.current r.slot).2
  believed : (a.serve r).2.believes view = a.believes view
  kept : (a.serve r).2.durable view = a.durable view
  refused : ¬first.Granted → ¬(a.serve r).1.Granted
  /-- The second answer to a value that was acknowledged, if there is one. -/
  acknowledged : ∀ {slot v answer answer'}, first = .accept slot v (.ok answer) →
    answer.accepted = true → (a.serve r).1 = .accept slot v (.ok answer') →
    answer' = answer ∨ answer'.accepted = false ∧ answer.promised < answer'.promised

/-- A reply that writes nothing leaves the acceptor as reading leaves it. -/
lemma handle_of_silent {α : Type} {reply : Option AcceptorRecord → Reply α} {a : Acceptor σ}
    {slot : Slot} (h : (reply (a.believes view slot)).write = none) :
    (a.handle reply slot).2 = (a.current slot).2 := by
  have hspec := (current_spec view a slot).2.2
  unfold handle
  rcases hc : a.current slot with ⟨_ | record, b⟩
  · rfl
  · rw [(hspec record (by rw [hc])).1]
    simp [commit, h]

lemma reads_of_settled {a : Acceptor σ} {r : Request}
    (h : Register.Settled (a.believes view r.slot) r) : (a.serve r).2 = (a.current r.slot).2 := by
  cases r with
  | prepare slot id => exact handle_of_silent (Register.toPrepare_of_settled h).1
  | accept slot value => exact handle_of_silent (Register.toAccept_of_settled h).1

section Atomic
variable (hv : view.Atomic)
include hv

/-- What is answered is answered as by the register of the slot. -/
lemma serve_of_answered {a : Acceptor σ} (ha : a.believes view = a.durable view) {r : Request}
    (h : (a.serve r).1.failure? = none) :
    (a.serve r).1 = (Register.serve (a.durable view r.slot) r).1 ∧
    (a.serve r).2.durable view r.slot = (Register.serve (a.durable view r.slot) r).2 := by
  rcases (serve_cases hv ha r).2 with ⟨⟨c, hc⟩, _⟩ | ⟨hcall, hkept⟩
  · rw [hc] at h
    cases h
  · exact ⟨hcall, by rw [hkept, Function.update_self]⟩

/-- After a request was settled, delivering it again does no harm. -/
lemma harmless_of_settled {a : Acceptor σ} (ha : a.believes view = a.durable view) {r : Request}
    {first : Call} (hsettled : Register.Settled (a.durable view r.slot) r)
    (hrefused : ¬first.Granted → ¬(Register.serve (a.durable view r.slot) r).1.Granted)
    (hfirst : ∀ {slot v answer}, first = .accept slot v (.ok answer) → answer.accepted = true →
      answer = ⟨true, v.id⟩) : Harmless view a r first := by
  have hreads := reads_of_settled (ha ▸ hsettled)
  obtain ⟨hbelieved, hkept, _⟩ := current_spec view a r.slot
  refine ⟨hreads, by rw [hreads, hbelieved], by rw [hreads, hkept], fun h hgranted => ?_, ?_⟩
  · have hanswered : (a.serve r).1.failure? = none := by
      revert hgranted
      rcases (a.serve r).1 with ⟨_, _, _ | _⟩ | ⟨_, _, _ | _⟩ <;> simp [Call.Granted, Call.failure?]
    rw [(serve_of_answered hv ha hanswered).1] at hgranted
    exact hrefused h hgranted
  · intro slot v answer answer' hanswer haccepted hagain
    have hcall := (serve_of_answered hv ha (by rw [hagain]; rfl)).1
    have hr : r = .accept slot v := by
      rw [← Register.request_serve (a.durable view r.slot) r, ← hcall, hagain]
      rfl
    subst hr
    rw [hagain, Register.serve, Call.accept.injEq, Except.ok.injEq] at hcall
    rw [hfirst hanswer haccepted, hcall.2.2]
    exact (Register.toAccept_of_settled hsettled).2

/-- A request that an acceptor has answered is harmless after all that comes later, unless another
value comes under its id. -/
lemma harmless_meetAll {a : Acceptor σ} (ha : a.believes view = a.durable view) {r : Request}
    (hsound : Register.Sound (a.durable view r.slot)) (hanswered : (a.serve r).1.failure? = none)
    {between : List (Event view)}
    (hvalues : ∀ slot v v', r = .accept slot v →
      .accept slot v' ∈ between.filterMap Event.request? → v'.id = v.id → v' = v) :
    Harmless view ((a.serve r).2.meetAll between).2 r (a.serve r).1 := by
  obtain ⟨hfirst, hheld⟩ := serve_of_answered hv ha hanswered
  obtain ⟨hend, -, hafter⟩ := meetAll_spec hv (serve_cases hv ha r).1 between
  -- the record in the end is what a register makes of the requests answered since
  obtain ⟨rs, hrs⟩ : ∃ rs, rs =
    (Call.answered r.slot ((a.serve r).2.meetAll between).1).map Call.request := ⟨_, rfl⟩
  have hlast : ((a.serve r).2.meetAll between).2.durable view r.slot =
      (Register.serveAll (Register.serve (a.durable view r.slot) r).2 rs).2 := by
    rw [← hheld, hrs, hafter r.slot]
  have hsent : ∀ r' ∈ rs, r'.slot = r.slot ∧ r' ∈ between.filterMap Event.request? := by
    intro r' hr'
    obtain ⟨c, hc, rfl⟩ := List.mem_map.mp (hrs ▸ hr')
    obtain ⟨hc, hslot, _⟩ := Call.mem_answered.mp hc
    exact ⟨hslot, request_meetAll _ between ▸ List.mem_map_of_mem hc⟩
  refine harmless_of_settled hv hend ?_ ?_ ?_
  · rw [hlast]
    refine Register.settled_serveAll (Register.settled_of_serve hsound r) ?_
    rintro _ hr' slot slot' v v' rfl rfl hid
    obtain ⟨rfl, hmem⟩ := hsent _ hr'
    exact hvalues slot' v v' rfl hmem hid
  · rw [hlast, hfirst]
    exact fun hrefused => Register.not_granted_of_refused hrefused rs
  · intro slot v answer hanswer haccepted
    have hhonest := Register.honest_serve hsound r
    rw [← hfirst, hanswer, Call.Honest, if_pos haccepted] at hhonest
    obtain ⟨accepted, promised⟩ := answer
    rw [show accepted = true from haccepted, show promised = v.id from hhonest]

/-- Once a message was answered, delivering it again is harmless, however often it has arrived and
whatever else has reached the acceptor since: nothing is written, what was refused stays refused,
and a value that was acknowledged gets the same answer again or is refused for a higher promise. -/
theorem redelivery_harmless {s : σ} (hs : ∀ slot, Register.Sound (view.held s slot))
    (earlier between : List (Event view)) (r : Request)
    (hvalues : OneValuePerId ((earlier ++ .request r :: between).filterMap Event.request?))
    (hanswered : (((start s).meetAll earlier).2.serve r).1.failure? = none) :
    Harmless view ((start s).meetAll (earlier ++ .request r :: between)).2 r
      (((start s).meetAll earlier).2.serve r).1 := by
  obtain ⟨hsync, -, hrun⟩ := meetAll_spec hv (a := start s) rfl earlier
  have hsound : Register.Sound (((start s).meetAll earlier).2.durable view r.slot) := by
    have h := congrArg Prod.snd (hrun r.slot)
    dsimp only at h
    exact h ▸ Register.sound_serveAll (hs r.slot) _
  have hstate : ((start s).meetAll (earlier ++ .request r :: between)).2 =
      ((((start s).meetAll earlier).2.serve r).2.meetAll between).2 := by
    rw [meetAll_append]
    rfl
  rw [hstate]
  refine harmless_meetAll hv hsync hsound hanswered fun slot v v' hr hmem hid => ?_
  refine hvalues slot v' v ?_ ?_ hid
  · simp [Event.request?, hmem]
  · simp [Event.request?, hr]

end Atomic

/-- In the rehearsal a value is acknowledged, outbid and sent again; the next time it is refused as
well, and the store is spared. -/
theorem redelivery_harmless_rehearsal :
    (FaultyStore.view MemoryStore.view).Atomic ∧
    Harmless (FaultyStore.view MemoryStore.view)
      ((start (FaultyStore.new MemoryStore.empty)).meetAll rehearsal).2
      (.accept ⟨7⟩ ⟨⟨1, "a"⟩, ⟨7⟩, [1]⟩)
      (.accept ⟨7⟩ ⟨⟨1, "a"⟩, ⟨7⟩, [1]⟩ (.ok ⟨true, ⟨1, "a"⟩⟩)) ∧
    (((start (FaultyStore.new MemoryStore.empty)).meetAll rehearsal).2.serve
      (.accept ⟨7⟩ ⟨⟨1, "a"⟩, ⟨7⟩, [1]⟩)).1 =
        .accept ⟨7⟩ ⟨⟨1, "a"⟩, ⟨7⟩, [1]⟩ (.ok ⟨false, ⟨2, "b"⟩⟩) ∧
    (((start (FaultyStore.new MemoryStore.empty)).meetAll rehearsal).2.serve
      (.accept ⟨7⟩ ⟨⟨1, "a"⟩, ⟨7⟩, [1]⟩)).2.store.saves =
        ((start (FaultyStore.new MemoryStore.empty)).meetAll rehearsal).2.store.saves := by
  have hv := FaultyStore.view_atomic MemoryStore.view_atomic
  have hs : ∀ slot, Register.Sound ((FaultyStore.view MemoryStore.view).held
      (FaultyStore.new MemoryStore.empty) slot) := fun _ => Register.sound_none
  have hvalues : OneValuePerId ((rehearsal.take 11 ++ .request (.accept ⟨7⟩ ⟨⟨1, "a"⟩, ⟨7⟩, [1]⟩) ::
      rehearsal.drop 12).filterMap Event.request?) := by
    have honly : ∀ slot v, .accept slot v ∈ (rehearsal.take 11 ++
        .request (.accept ⟨7⟩ ⟨⟨1, "a"⟩, ⟨7⟩, [1]⟩) :: rehearsal.drop 12).filterMap Event.request? →
        v = ⟨⟨1, "a"⟩, ⟨7⟩, [1]⟩ := by
      simp [rehearsal, Event.request?]
    exact fun slot v v' hmem hmem' _ => (honly slot v hmem).trans (honly slot v' hmem').symm
  exact ⟨hv, redelivery_harmless hv hs (rehearsal.take 11) (rehearsal.drop 12) _ hvalues rfl,
    by decide, by decide⟩

end Acceptor
end Synod
