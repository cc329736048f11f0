import Mathlib.Tactic.Lemma
import Synod.Proofs.Assembly

/-!
# Acceptors that hear from nobody else

The requests that were sent are handled at some time or never, by each acceptor once at most, and
nothing else happens to the acceptors. Then a promise that an acceptor goes by is one that it went
by at first, or comes from a request that it has handled. A request that is above all that was sent
before it is therefore refused on account of initial promises only, however late the others are
handled.
-/
namespace Synod
namespace Request

/-- The id that an acceptor promises when it does what it is asked for. -/
def id : Request → ProposalId
  | prepare _ id => id
  | accept _ value => value.id

/-- Acceptors that have promised this id refuse the request. -/
def BarredBy (promised : ProposalId) : Request → Prop
  | prepare _ id => id ≤ promised
  | accept _ value => value.id < promised

lemma BarredBy.id_le {q : Request} {promised : ProposalId} (h : q.BarredBy promised) :
    q.id ≤ promised := by
  cases q with
  | prepare slot id => exact h
  | accept slot value => exact Std.le_of_lt h

end Request

namespace Call

/-- The promise that the call was refused for. -/
def refusal? : Call → Option ProposalId
  | prepare _ _ (.ok promise) => if promise.accepted then none else some promise.id
  | accept _ _ (.ok answer) => if answer.accepted then none else some answer.promised
  | _ => none

lemma refusal?_of_failure {c : Call} (h : c.failure? ≠ none) : c.refusal? = none := by
  rcases c with ⟨_, _, _ | _⟩ | ⟨_, _, _ | _⟩ <;> simp_all [failure?, refusal?]

end Call

namespace Register

/-- A promise was there before the request, or is the one that the request asked for. -/
lemma promised_serve {record : Option AcceptorRecord} {q : Request} {held : AcceptorRecord}
    (h : (serve record q).2 = some held) : record = some held ∨ held.promised = q.id := by
  cases q with
  | prepare slot id =>
    rcases Reply.toPrepare_cases record id with ⟨_, _, _, he⟩ | ⟨_, he⟩
    · exact .inl (by simpa [serve, he] using h)
    · simp only [serve, he, Option.some_or, Option.some.injEq] at h
      exact .inr (h ▸ rfl)
  | accept slot value =>
    rcases Reply.toAccept_cases record value with ⟨_, _, _, he⟩ | ⟨_, _, _, _, he⟩ | ⟨_, he⟩
    · exact .inl (by simpa [serve, he] using h)
    · exact .inl (by simpa [serve, he] using h)
    · simp only [serve, he, Option.some_or, Option.some.injEq] at h
      exact .inr (h ▸ rfl)

/-- A refusal names the promise held, which bars the request. -/
lemma refusal_serve {record : Option AcceptorRecord} {q : Request} {seen : ProposalId}
    (h : (serve record q).1.refusal? = some seen) :
    ∃ held, record = some held ∧ held.promised = seen ∧ q.BarredBy seen := by
  cases q with
  | prepare slot id =>
    rcases Reply.toPrepare_cases record id with ⟨held, hheld, hle, he⟩ | ⟨_, he⟩
    · have hseen : held.promised = seen := by simpa [serve, he, Call.refusal?, Promise.refuse] using h
      exact ⟨held, hheld, hseen, hseen ▸ hle⟩
    · simp [serve, he, Call.refusal?, Promise.give] at h
  | accept slot value =>
    rcases Reply.toAccept_cases record value with ⟨held, hheld, hlt, he⟩ | ⟨_, _, _, _, he⟩ | ⟨_, he⟩
    · have hseen : held.promised = seen := by simpa [serve, he, Call.refusal?] using h
      exact ⟨held, hheld, hseen, hseen ▸ hlt⟩
    · simp [serve, he, Call.refusal?] at h
    · simp [serve, he, Call.refusal?] at h

end Register

namespace Acceptor
variable {σ : Type} [RecordStore σ] (view : StoreView σ) (a : Acceptor σ) (q : Request)

/-- What an acceptor goes by after a request, and why it refused it, if it did. -/
lemma serve_promises :
    (a.serve q).1.request = q ∧
    (∀ slot held, (a.serve q).2.believes view slot = some held →
      a.believes view slot = some held ∨ held.promised = q.id) ∧
    ∀ seen, (a.serve q).1.refusal? = some seen →
      ∃ held, a.believes view q.slot = some held ∧ held.promised = seen ∧ q.BarredBy seen := by
  have heffect := effect view a q
  rcases hp : a.serve q with ⟨c, b⟩
  rw [hp] at heffect
  cases heffect with
  | wrote hbelief _ =>
    refine ⟨Register.request_serve .., fun slot held hheld => ?_, fun _ => Register.refusal_serve⟩
    dsimp only at hheld
    rw [hbelief] at hheld
    by_cases hslot : slot = q.slot
    · subst hslot
      rw [Function.update_self] at hheld
      exact Register.promised_serve hheld
    · rw [Function.update_of_ne hslot] at hheld
      exact .inl hheld
  | repeated _ hbelief _ =>
    refine ⟨Register.request_serve .., fun slot held hheld => .inl ?_, fun _ => Register.refusal_serve⟩
    rw [← hbelief]
    exact hheld
  | failed hrequest hfailure hbelief _ =>
    refine ⟨hrequest, fun slot held hheld => .inl ?_, fun seen hseen => ?_⟩
    · rw [← hbelief]
      exact hheld
    · rw [Call.refusal?_of_failure hfailure] at hseen
      cases hseen

end Acceptor

namespace Assembly
variable {σ : Type} [RecordStore σ] {view : StoreView σ} {size : Nat} {slot : Slot}
  {s t : Assembly σ}

/-- The records of a slot that the acceptors go by. -/
def records (view : StoreView σ) (slot : Slot) (s : Assembly σ) (a : Nat) : Option AcceptorRecord :=
  (s.acceptors a).believes view slot

/-- An acceptor handles a request that was sent, for the first time. -/
inductive Handles (view : StoreView σ) (size : Nat) : Assembly σ → Assembly σ → Prop
  | handle {s : Assembly σ} (a : Nat) (q : Request) (present : a < size) (asked : q ∈ s.sent)
      (first : ∀ c ∈ s.calls a, c.request ≠ q) :
      Handles view size s (s.act a (.request q : Acceptor.Event view))

/-- Some requests are handled, in some order, and others not. -/
def Drifts (view : StoreView σ) (size : Nat) : Assembly σ → Assembly σ → Prop :=
  Relation.ReflTransGen (Handles view size)

theorem Drifts.grows (h : Drifts view size s t) : Grows s t := by
  induction h with
  | refl => exact Grows.refl s
  | tail _ hstep ih =>
    cases hstep with
    | handle a q => exact ih.trans (grows_act _ a _)

theorem Drifts.sent_eq (h : Drifts view size s t) : t.sent = s.sent := by
  induction h with
  | refl => rfl
  | tail _ hstep ih =>
    cases hstep with
    | handle a q => exact ih

/-- A call at some acceptor was there before another request was handled, or is that one. -/
lemma mem_calls_act {a b : Nat} {q : Request} {c : Call}
    (h : c ∈ (s.act a (.request q : Acceptor.Event view)).calls b) :
    c ∈ s.calls b ∨ b = a ∧ c = ((s.acceptors a).serve q).1 := by
  by_cases hb : b = a
  · subst hb
    simpa [act, Acceptor.meet] using h
  · exact .inl (by simpa [act, hb] using h)

/-- Every call was for a request that was sent. A promise for the slot was there initially, or was
given on one of these calls. -/
structure Tame (view : StoreView σ) (slot : Slot) (initial : Nat → Option AcceptorRecord)
    (s : Assembly σ) : Prop where
  sent : ∀ a, ∀ c ∈ s.calls a, c.request ∈ s.sent
  promised : ∀ a r, s.records view slot a = some r →
    (∃ r₀, initial a = some r₀ ∧ r₀.promised = r.promised) ∨
    ∃ c ∈ s.calls a, c.request.id = r.promised

/-- A request among others that do not stand in its way. It is refused for initial promises only. -/
structure Asking (view : StoreView σ) (slot : Slot) (initial : Nat → Option AcceptorRecord)
    (q : Request) (s : Assembly σ) : Prop extends Tame view slot initial s where
  clear : ∀ other ∈ s.sent, other ≠ q → ¬q.BarredBy other.id
  refused : ∀ a, ∀ c ∈ s.calls a, c.request = q → ∀ seen, c.refusal? = some seen →
    ∃ r, initial a = some r ∧ r.promised = seen ∧ q.BarredBy seen

variable {initial : Nat → Option AcceptorRecord} {q : Request}

lemma Tame.handles (h : Tame view slot initial s) (hstep : Handles view size s t) :
    Tame view slot initial t := by
  cases hstep with
  | handle a q present asked first =>
    obtain ⟨hrequest, hbelief, _⟩ := (s.acceptors a).serve_promises view q
    have hcalls := (grows_act s a (.request q : Acceptor.Event view)).calls
    refine ⟨fun b c hc => ?_, fun b r hr => ?_⟩
    · rcases mem_calls_act hc with hc | ⟨_, rfl⟩
      · exact h.sent b c hc
      · rw [hrequest]
        exact asked
    · -- a promise that is new comes from the call that was added
      have hold : s.records view slot b = some r ∨ b = a ∧ r.promised = q.id := by
        by_cases hb : b = a
        · subst hb
          simp only [records, act, Function.update_self] at hr
          exact (hbelief slot r hr).imp_right fun h => ⟨rfl, h⟩
        · exact .inl (by simpa [records, act, hb] using hr)
      rcases hold with hold | ⟨rfl, hnew⟩
      · rcases h.promised b r hold with hinitial | ⟨c, hc, hid⟩
        · exact .inl hinitial
        · exact .inr ⟨c, hcalls b hc, hid⟩
      · refine .inr ⟨((s.acceptors b).serve q).1, ?_, by rw [hrequest, hnew]⟩
        simp [act, Acceptor.meet]

lemma Asking.handles (h : Asking view slot initial q s) (hslot : q.slot = slot)
    (hstep : Handles view size s t) : Asking view slot initial q t := by
  have htame := h.toTame.handles hstep
  cases hstep with
  | handle a other present asked first =>
    refine ⟨htame, h.clear, fun b c hc hcq seen hseen => ?_⟩
    rcases mem_calls_act hc with hc | ⟨rfl, rfl⟩
    · exact h.refused b c hc hcq seen hseen
    obtain ⟨hrequest, _, hrefused⟩ := (s.acceptors b).serve_promises view other
    have hother : other = q := hrequest.symm.trans hcq
    subst hother
    obtain ⟨held, hheld, hpromised, hbarred⟩ := hrefused seen hseen
    rw [hslot] at hheld
    rcases h.promised b held hheld with ⟨r, hr, heq⟩ | ⟨c, hc, hid⟩
    · exact ⟨r, hr, heq.trans hpromised, hbarred⟩
    · -- the promise would be due to another request, and these do not stand in the way
      refine absurd ?_ (h.clear c.request (h.sent b c hc) (first c hc))
      rwa [hid, hpromised]

lemma Asking.drifts (h : Asking view slot initial q s) (hslot : q.slot = slot)
    (hdrift : Drifts view size s t) : Asking view slot initial q t := by
  induction hdrift with
  | refl => exact h
  | tail _ hstep ih => exact ih.handles hslot hstep

/-- No acceptor can have heard of the request. -/
structure Fresh (s : Assembly σ) (q : Request) : Prop where
  sent : q ∉ s.sent
  calls : ∀ a, ∀ c ∈ s.calls a, c.request ≠ q

lemma Tame.fresh (h : Tame view slot initial s) (hq : q ∉ s.sent) : s.Fresh q :=
  ⟨hq, fun a c hc heq => hq (heq ▸ h.sent a c hc)⟩

/-- A request that is sent for the first time, above what was sent before. -/
lemma Tame.asking (h : Tame view slot initial s) (hq : q ∉ s.sent)
    (hclear : ∀ other ∈ s.sent, ¬q.BarredBy other.id) : Asking view slot initial q (s.send q) where
  sent a c hc := List.mem_cons_of_mem _ (h.sent a c hc)
  promised := h.promised
  clear other hother hne := by
    rcases List.mem_cons.mp hother with rfl | hother
    · exact absurd rfl hne
    · exact hclear other hother
  refused a c hc hcq := absurd hcq ((h.fresh hq).calls a c hc)

/-- Answers that come when they are awaited, those of the acceptors listed. An answer was given by
then, and the world drifts on until it is there. -/
inductive Comes {ω α : Type} (view : StoreView σ) (size : Nat) (shows : ω → Assembly σ)
    (call : α → Call) : List Nat → List (ω → Option α × ω) → ω → Prop
  | done {w} : Comes view size shows call [] [] w
  | come {a order await answers w x w'} (answer : await w = (some x, w'))
      (drifts : Drifts view size (shows w) (shows w')) (said : call x ∈ (shows w').calls a)
      (rest : Comes view size shows call order answers w') :
      Comes view size shows call (a :: order) (await :: answers) w

/-- A transport to acceptors that hear from nobody else. Every acceptor answers when it is waited
for, in whatever order. -/
structure Attends {ω : Type} (view : StoreView σ) (size : Nat) (shows : ω → Assembly σ)
    (t : Transport ω) : Prop where
  prepare : ∀ slot id w, (shows w).Fresh (.prepare slot id) →
    Drifts view size ((shows w).send (.prepare slot id)) (shows (t.prepare slot id w).2) ∧
    ∃ order : List Nat, order.Perm (List.range size) ∧
      Comes view size shows (fun x => .prepare slot id (.ok x)) order (t.prepare slot id w).1
        (t.prepare slot id w).2
  accept : ∀ slot value w, (shows w).Fresh (.accept slot value) →
    Drifts view size ((shows w).send (.accept slot value)) (shows (t.accept slot value w).2) ∧
    ∃ order : List Nat, order.Perm (List.range size) ∧
      Comes view size shows (fun x => .accept slot value (.ok x)) order (t.accept slot value w).1
        (t.accept slot value w).2
  notify : ∀ slot value w, Drifts view size (shows w) (shows (t.notify slot value w))

section Gathering
variable {ω α : Type} {shows : ω → Assembly σ} {call : α → Call}

/-- Answers are gathered until they decide the tally, or are all there. Induction on the answers
still to come. -/
lemma Comes.gather {order : List Nat} {answers : List (ω → Option α × ω)} {w : ω}
    (h : Comes view size shows call order answers w) (agrees : α → Bool) (total required : Nat)
    (tally : Tally α) :
    let g := Tally.gather agrees total required tally w answers
    Drifts view size (shows w) (shows g.2) ∧
    (∀ x ∈ g.1.refused, x ∈ tally.refused ∨
      agrees x = false ∧ ∃ a ∈ order, call x ∈ (shows g.2).calls a) ∧
    g.1.unreachable = tally.unreachable ∧
    (¬g.1.Undecided total required ∨ g.1.count = tally.count + order.length) := by
  induction h generalizing tally with
  | done => exact ⟨.refl, fun x hx => .inl hx, rfl, .inr rfl⟩
  | @come a order await answers w x w' hanswer hdrifts hsaid _ ih =>
    dsimp only
    unfold Tally.gather
    split
    · obtain ⟨hlater, hrefused, hunreachable, hdone⟩ := ih (tally.add agrees (await w).1)
      rw [hanswer] at hlater hrefused hunreachable hdone ⊢
      refine ⟨Relation.ReflTransGen.trans hdrifts hlater, fun y hy => ?_, ?_, ?_⟩
      · rcases hrefused y hy with hy | ⟨hagrees, b, hb, hcall⟩
        · simp only [Tally.refused_add, Option.toList_some, List.mem_append, List.mem_filter,
            List.mem_singleton] at hy
          rcases hy with hy | ⟨rfl, hagrees⟩
          · exact .inl hy
          · exact .inr ⟨by simpa using hagrees, a, List.mem_cons_self, hlater.grows.calls a hsaid⟩
        · exact .inr ⟨hagrees, b, List.mem_cons_of_mem a hb, hcall⟩
      · simpa using hunreachable
      · refine hdone.imp_right fun hcount => ?_
        rw [hcount, Tally.count_add, List.length_cons]
        omega
    · rename_i hdecided
      exact ⟨.refl, fun x hx => .inl hx, rfl, .inl hdecided⟩

/-- What a phase has come to when nobody else is heard: the refusals name initial promises above
the request, and there are some if too few acceptors agreed. -/
structure Heard (view : StoreView σ) (size : Nat) (slot : Slot)
    (initial : Nat → Option AcceptorRecord) (q : Request) (s t : Assembly σ)
    (seen : List ProposalId) (reached : Prop) : Prop where
  tame : Tame view slot initial t
  sent : t.sent = q :: s.sent
  initial : ∀ id ∈ seen, ∃ a < size, ∃ r, initial a = some r ∧ r.promised = id ∧ q.id ≤ id
  refused : ¬reached → seen ≠ []

/-- One phase, from the sending of the request to the last answer that is taken. -/
lemma Tame.heard (h : Tame view slot initial s) (hslot : q.slot = slot) (hq : q ∉ s.sent)
    (hclear : ∀ other ∈ s.sent, ¬q.BarredBy other.id) {w : ω}
    (hdrifts : Drifts view size (s.send q) (shows w)) {order : List Nat}
    (horder : order.Perm (List.range size)) {answers : List (ω → Option α × ω)}
    (hcomes : Comes view size shows call order answers w) {agrees : α → Bool}
    (named : α → ProposalId) (hrequest : ∀ x, (call x).request = q)
    (hnamed : ∀ x, agrees x = false → (call x).refusal? = some (named x)) {required : Nat}
    (hrequired : required ≤ size) {tally : Tally α} {w' : ω}
    (hg : Tally.gather agrees size required Tally.empty w answers = (tally, w')) :
    Heard view size slot initial q s (shows w') (tally.refused.map named)
      (tally.Reached required) := by
  obtain ⟨hlater, hrefused, hunreachable, hdone⟩ := hcomes.gather agrees size required Tally.empty
  rw [hg] at hlater hrefused hunreachable hdone
  have hall := Relation.ReflTransGen.trans hdrifts hlater
  have hasking := (h.asking hq hclear).drifts hslot hall
  refine ⟨hasking.toTame, Drifts.sent_eq hall, fun id hid => ?_, fun hmissed hnone => ?_⟩
  · obtain ⟨x, hx, rfl⟩ := List.mem_map.mp hid
    rcases hrefused x hx with hx | ⟨hagrees, a, ha, hcall⟩
    · cases hx
    obtain ⟨r, hr, hpromised, hbarred⟩ :=
      hasking.refused a (call x) hcall (hrequest x) (named x) (hnamed x hagrees)
    exact ⟨a, List.mem_range.mp (horder.mem_iff.mp ha), r, hr, hpromised, hbarred.id_le⟩
  · have hnone : tally.refused = [] := List.map_eq_nil_iff.mp hnone
    have hzero : tally.unreachable = 0 := hunreachable
    have hlength := horder.length_eq
    rw [List.length_range] at hlength
    simp only [Tally.Undecided, Tally.count, Tally.against, hnone, hzero, List.length_nil,
      hlength] at hdone
    unfold Tally.Reached at hmissed
    omega

end Gathering
end Assembly
end Synod
