import Mathlib.Control.Monad.Basic
import Mathlib.Tactic.Lemma
import Synod.Network

/-!
# One slot by itself

What an acceptor does, without its memory, its store and their failures: a register holds the
record of one slot and serves one request after the other. A register is bound to every id up to
the one it has promised, and recalls the value that it acknowledged last.
-/
namespace Synod

/-- What an acceptor can be asked. -/
inductive Request
  | prepare (slot : Slot) (id : ProposalId)
  | accept (slot : Slot) (value : ProposalValue)
  deriving DecidableEq, Repr

def Request.slot : Request → Slot
  | prepare slot _ => slot
  | accept slot _ => slot

deriving instance DecidableEq for Call

namespace Call

def request : Call → Request
  | prepare slot id _ => .prepare slot id
  | accept slot value _ => .accept slot value

def slot (c : Call) : Slot := c.request.slot

/-- Why the call was not answered, if it was not. -/
def failure? : Call → Option Failure
  | prepare _ _ (.error e) => some e
  | accept _ _ (.error e) => some e
  | prepare _ _ (.ok _) => none
  | accept _ _ (.ok _) => none

/-- The value that the call acknowledged. -/
def acknowledged? : Call → Option ProposalValue
  | accept _ value (.ok answer) => if answer.accepted then some value else none
  | _ => none

/-- The call gives nothing that a promise for `q` rules out. -/
def Respects (q : ProposalId) : Call → Prop
  | prepare _ id (.ok promise) => id ≤ q → promise.accepted = false
  | accept _ value (.ok answer) => value.id < q → answer.accepted = false
  | _ => True

/-- A refusal names an id that justifies it, and an acceptance the id of its value. -/
def Honest : Call → Prop
  | prepare _ id (.ok promise) => promise.accepted = false → id ≤ promise.id
  | accept _ value (.ok answer) =>
    if answer.accepted then answer.promised = value.id else value.id < answer.promised
  | _ => True

/-- The value acknowledged last in a list of calls. -/
def lastAcknowledged (calls : List Call) : Option ProposalValue :=
  (calls.filterMap acknowledged?).getLast?

/-- What was not answered acknowledges nothing. -/
lemma acknowledged?_of_failure {c : Call} (h : c.failure? ≠ none) : c.acknowledged? = none := by
  rcases c with ⟨_, _, _ | _⟩ | ⟨_, _, _ | _⟩ <;> simp_all [failure?, acknowledged?]

/-- Only a request to accept a value gets it acknowledged. -/
lemma request_of_acknowledged {c : Call} {v : ProposalValue} (h : c.acknowledged? = some v) :
    c.request = .accept c.slot v := by
  rcases c with _ | ⟨slot, value, _ | x⟩
  · cases h
  · cases h
  · simp only [acknowledged?] at h
    split at h
    · cases h
      rfl
    · cases h

end Call

namespace Reply

/-- A promise is refused because of a promise at least as high, or given above all others. -/
theorem toPrepare_cases (current : Option AcceptorRecord) (id : ProposalId) :
    (∃ r, current = some r ∧ id ≤ r.promised ∧
      toPrepare current id = ⟨Promise.refuse r.promised, none⟩) ∨
    ((∀ r, current = some r → r.promised < id) ∧
      toPrepare current id = ⟨Promise.give id (current.bind (·.accepted)),
        some ⟨id, current.bind (·.accepted)⟩⟩) := by
  cases current with
  | none => exact .inr ⟨nofun, rfl⟩
  | some r =>
    by_cases h : id ≤ r.promised
    · exact .inl ⟨r, rfl, h, by simp [toPrepare, h]⟩
    · refine .inr ⟨fun r' hr => ?_, by simp [toPrepare, h]⟩
      cases hr
      exact Std.not_le.mp h

/-- A value is refused because of a higher promise, held already, or accepted anew. -/
theorem toAccept_cases (current : Option AcceptorRecord) (value : ProposalValue) :
    (∃ r, current = some r ∧ value.id < r.promised ∧
      toAccept current value = ⟨⟨false, r.promised⟩, none⟩) ∨
    (∃ r, current = some r ∧ r.promised ≤ value.id ∧ r.accepted = some value ∧
      toAccept current value = ⟨⟨true, r.promised⟩, none⟩) ∨
    ((∀ r, current = some r → r.promised ≤ value.id) ∧
      toAccept current value = ⟨⟨true, value.id⟩, some ⟨value.id, some value⟩⟩) := by
  cases current with
  | none => exact .inr (.inr ⟨nofun, rfl⟩)
  | some r =>
    by_cases h : value.id < r.promised
    · exact .inl ⟨r, rfl, h, by simp [toAccept, h]⟩
    · have hle : r.promised ≤ value.id := Std.not_lt.mp h
      by_cases hv : r.accepted = some value
      · exact .inr (.inl ⟨r, rfl, hle, hv, by simp [toAccept, h, hv]⟩)
      · refine .inr (.inr ⟨fun r' hr => ?_, by simp [toAccept, h, hv]⟩)
        cases hr
        exact hle

end Reply

namespace Register

/-- The call that a request leads to, and the record after it. -/
def serve (record : Option AcceptorRecord) : Request → Call × Option AcceptorRecord
  | .prepare slot id =>
    (.prepare slot id (.ok (Reply.toPrepare record id).answer),
      (Reply.toPrepare record id).write.or record)
  | .accept slot value =>
    (.accept slot value (.ok (Reply.toAccept record value).answer),
      (Reply.toAccept record value).write.or record)

def serveAll (record : Option AcceptorRecord) : List Request → List Call × Option AcceptorRecord
  | [] => ([], record)
  | r :: rest =>
    ((serve record r).1 :: (serveAll (serve record r).2 rest).1,
      (serveAll (serve record r).2 rest).2)

theorem serveAll_append (record : Option AcceptorRecord) (rs rs' : List Request) :
    serveAll record (rs ++ rs') =
      ((serveAll record rs).1 ++ (serveAll (serveAll record rs).2 rs').1,
        (serveAll (serveAll record rs).2 rs').2) := by
  induction rs generalizing record with
  | nil => rfl
  | cons r rest ih => simp [serveAll, ih]

/-- A call in the middle of a run is the answer to a request in the middle of its requests. -/
theorem exists_of_serveAll_eq_append {record : Option AcceptorRecord} {rs : List Request}
    {before after : List Call} {c : Call} (h : (serveAll record rs).1 = before ++ c :: after) :
    ∃ earlier r later, before = (serveAll record earlier).1 ∧
      c = (serve (serveAll record earlier).2 r).1 ∧
      after = (serveAll (serve (serveAll record earlier).2 r).2 later).1 := by
  induction rs generalizing record before with
  | nil => simp [serveAll] at h
  | cons r rest ih =>
    cases before with
    | nil =>
      simp only [serveAll, List.nil_append, List.cons.injEq] at h
      exact ⟨[], r, rest, rfl, h.1.symm, h.2.symm⟩
    | cons d before =>
      simp only [serveAll, List.cons_append, List.cons.injEq] at h
      obtain ⟨earlier, r', later, hb, hc, ha⟩ := ih h.2
      exact ⟨r :: earlier, r', later, by simp [serveAll, h.1, hb], hc, ha⟩

/-- The record stands by a promise at least as high as `q`. -/
def Bound (q : ProposalId) (record : Option AcceptorRecord) : Prop :=
  ∃ r, record = some r ∧ q ≤ r.promised

/-- What has been accepted is not above what has been promised. -/
def Sound (record : Option AcceptorRecord) : Prop :=
  ∀ r v, record = some r → r.accepted = some v → v.id ≤ r.promised

theorem sound_none : Sound none := fun r v h => by cases h

lemma bound_serve {q : ProposalId} {record : Option AcceptorRecord} (h : Bound q record)
    (r : Request) : Bound q (serve record r).2 := by
  obtain ⟨held, rfl, hq⟩ := h
  cases r with
  | prepare slot id =>
    rcases Reply.toPrepare_cases (some held) id with ⟨_, _, _, he⟩ | ⟨hid, he⟩
    · exact ⟨held, by simp [serve, he], hq⟩
    · exact ⟨⟨id, _⟩, by simp [serve, he]; rfl, Std.le_trans hq (Std.le_of_lt (hid held rfl))⟩
  | accept slot value =>
    rcases Reply.toAccept_cases (some held) value with ⟨_, _, _, he⟩ | ⟨_, _, _, _, he⟩ | ⟨hv, he⟩
    · exact ⟨held, by simp [serve, he], hq⟩
    · exact ⟨held, by simp [serve, he], hq⟩
    · exact ⟨⟨value.id, _⟩, by simp [serve, he]; rfl, Std.le_trans hq (hv held rfl)⟩

theorem bound_serveAll {q : ProposalId} {record : Option AcceptorRecord} (h : Bound q record)
    (rs : List Request) : Bound q (serveAll record rs).2 := by
  induction rs generalizing record with
  | nil => exact h
  | cons r rest ih => exact ih (bound_serve h r)

lemma respects_serve {q : ProposalId} {record : Option AcceptorRecord} (h : Bound q record)
    (r : Request) : (serve record r).1.Respects q := by
  obtain ⟨held, rfl, hq⟩ := h
  cases r with
  | prepare slot id =>
    intro hid
    rcases Reply.toPrepare_cases (some held) id with ⟨_, _, _, he⟩ | ⟨hlt, _⟩
    · simp [he, Promise.refuse]
    · exact absurd (Std.le_trans hid hq) (Std.not_le.mpr (hlt held rfl))
  | accept slot value =>
    intro hv
    have hlt : value.id < held.promised := Std.lt_of_lt_of_le hv hq
    rcases Reply.toAccept_cases (some held) value with ⟨_, _, _, he⟩ | ⟨_, h, hle, _⟩ | ⟨hle, _⟩
    · simp [he]
    · cases h
      exact absurd hlt (Std.not_lt.mpr hle)
    · exact absurd hlt (Std.not_lt.mpr (hle held rfl))

/-- A register never goes behind a promise that it is bound to. -/
theorem respects_serveAll {q : ProposalId} {record : Option AcceptorRecord} (h : Bound q record)
    (rs : List Request) : ∀ c ∈ (serveAll record rs).1, c.Respects q := by
  induction rs generalizing record with
  | nil => simp [serveAll]
  | cons r rest ih =>
    intro c hc
    rcases List.mem_cons.mp hc with rfl | hc
    · exact respects_serve h r
    · exact ih (bound_serve h r) c hc

/-- A promise that is given is above all others, and reports the value accepted. -/
lemma give_of_promise {record : Option AcceptorRecord} {r : Request} {slot : Slot}
    {q : ProposalId} {p : Promise} (h : (serve record r).1 = .prepare slot q (.ok p))
    (hp : p.accepted = true) :
    p = Promise.give q (record.bind (·.accepted)) ∧
    (∀ held, record = some held → held.promised < q) ∧ Bound q (serve record r).2 := by
  rcases r with ⟨slot', id⟩ | ⟨slot', value⟩
  · simp only [serve, Call.prepare.injEq, Except.ok.injEq] at h
    obtain ⟨rfl, rfl, rfl⟩ := h
    rcases Reply.toPrepare_cases record id with ⟨_, _, _, he⟩ | ⟨hlt, he⟩
    · simp [he, Promise.refuse] at hp
    · exact ⟨by simp [he], hlt, ⟨id, _⟩, by simp [serve, he]; rfl, Std.le_refl id⟩
  · simp [serve] at h

lemma sound_serve {record : Option AcceptorRecord} (h : Sound record) (r : Request) :
    Sound (serve record r).2 := by
  cases r with
  | prepare slot id =>
    rcases Reply.toPrepare_cases record id with ⟨_, _, _, he⟩ | ⟨hid, he⟩
    · simpa [serve, he] using h
    · intro r v hr hv
      simp only [serve, he, Option.some_or, Option.some.injEq] at hr
      subst hr
      obtain ⟨held, rfl, hv⟩ := Option.bind_eq_some_iff.mp hv
      exact Std.le_trans (h held v rfl hv) (Std.le_of_lt (hid held rfl))
  | accept slot value =>
    rcases Reply.toAccept_cases record value with ⟨_, _, _, he⟩ | ⟨_, _, _, _, he⟩ | ⟨_, he⟩
    · simpa [serve, he] using h
    · simpa [serve, he] using h
    · intro r v hr hv
      simp only [serve, he, Option.some_or, Option.some.injEq] at hr
      subst hr
      cases hv
      exact Std.le_refl _

/-- What is accepted after a call is what the call acknowledged, and otherwise what was before. -/
lemma accepted_serve (record : Option AcceptorRecord) (r : Request) :
    (serve record r).2.bind (·.accepted) =
      (serve record r).1.acknowledged?.or (record.bind (·.accepted)) := by
  cases r with
  | prepare slot id =>
    rcases Reply.toPrepare_cases record id with ⟨_, _, _, he⟩ | ⟨_, he⟩ <;>
      simp [serve, he, Call.acknowledged?]
  | accept slot value =>
    rcases Reply.toAccept_cases record value with ⟨_, _, _, he⟩ | ⟨_, rfl, _, hv, he⟩ | ⟨_, he⟩
    · simp [serve, he, Call.acknowledged?]
    · simp [serve, he, hv, Call.acknowledged?]
    · simp [serve, he, Call.acknowledged?]

/-- No value is acknowledged below a promise. -/
lemma le_of_acknowledged {q : ProposalId} {record : Option AcceptorRecord} (h : Bound q record)
    {r : Request} {v : ProposalValue} (hv : (serve record r).1.acknowledged? = some v) :
    q ≤ v.id := by
  have hrespects := respects_serve h r
  rcases r with ⟨slot, id⟩ | ⟨slot, value⟩
  · cases hv
  · simp only [serve, Call.acknowledged?] at hv
    split at hv
    · rename_i haccepted
      cases hv
      refine Std.not_lt.mp fun hlt => ?_
      rw [hrespects hlt] at haccepted
      cases haccepted
    · cases hv

/-- What a register that has answered some calls still knows of them. -/
structure Recalls (calls : List Call) (record : Option AcceptorRecord) : Prop where
  sound : Sound record
  accepted : record.bind (·.accepted) = Call.lastAcknowledged calls
  highest : ∀ v ∈ calls.filterMap Call.acknowledged?,
    ∃ u, record.bind (·.accepted) = some u ∧ v.id ≤ u.id

theorem recalls_none : Recalls [] none := ⟨sound_none, rfl, nofun⟩

/-- A call that acknowledges nothing and leaves the accepted value adds nothing to recall. -/
lemma Recalls.append_silent {calls : List Call} {record record' : Option AcceptorRecord}
    (h : Recalls calls record) {c : Call} (hc : c.acknowledged? = none) (hs : Sound record')
    (ha : record'.bind (·.accepted) = record.bind (·.accepted)) : Recalls (calls ++ [c]) record' := by
  have hcalls : (calls ++ [c]).filterMap Call.acknowledged? =
      calls.filterMap Call.acknowledged? := by simp [hc]
  refine ⟨hs, ?_, ?_⟩
  · rw [ha, h.accepted, Call.lastAcknowledged, Call.lastAcknowledged, hcalls]
  · rw [hcalls, ha]
    exact h.highest

/-- A call that acknowledges a value makes it the one to recall. -/
lemma Recalls.append_acknowledged {calls : List Call} {record : Option AcceptorRecord}
    {c : Call} {v : ProposalValue} (hc : c.acknowledged? = some v) (hs : Sound record)
    (ha : record.bind (·.accepted) = some v)
    (hle : ∀ u ∈ calls.filterMap Call.acknowledged?, u.id ≤ v.id) :
    Recalls (calls ++ [c]) record := by
  refine ⟨hs, by simp [ha, Call.lastAcknowledged, hc], fun u hu => ⟨v, ha, ?_⟩⟩
  simp only [List.filterMap_append, List.mem_append] at hu
  rcases hu with hu | hu
  · exact hle u hu
  · simp only [List.filterMap_cons, hc, List.filterMap_nil, List.mem_singleton] at hu
    exact hu ▸ Std.le_refl _

lemma recalls_serve {calls : List Call} {record : Option AcceptorRecord} (h : Recalls calls record)
    (r : Request) : Recalls (calls ++ [(serve record r).1]) (serve record r).2 := by
  have hsound := sound_serve h.sound r
  have haccepted := accepted_serve record r
  cases hc : (serve record r).1.acknowledged? with
  | none => exact h.append_silent hc hsound (by rw [haccepted, hc, Option.none_or])
  | some v =>
    refine Recalls.append_acknowledged hc hsound (by rw [haccepted, hc, Option.some_or]) ?_
    intro u hu
    obtain ⟨w, hw, hle⟩ := h.highest u hu
    obtain ⟨held, rfl, hv⟩ := Option.bind_eq_some_iff.mp hw
    exact le_of_acknowledged ⟨held, rfl, Std.le_trans hle (h.sound held w rfl hv)⟩ hc

theorem recalls_serveAll {calls : List Call} {record : Option AcceptorRecord}
    (h : Recalls calls record) (rs : List Request) :
    Recalls (calls ++ (serveAll record rs).1) (serveAll record rs).2 := by
  induction rs generalizing calls record with
  | nil => simpa [serveAll] using h
  | cons r rest ih => simpa [serveAll] using ih (recalls_serve h r)

lemma honest_serve {record : Option AcceptorRecord} (h : Sound record) (r : Request) :
    (serve record r).1.Honest := by
  cases r with
  | prepare slot id =>
    intro hp
    rcases Reply.toPrepare_cases record id with ⟨held, _, hle, he⟩ | ⟨_, he⟩
    · simpa [he, Promise.refuse] using hle
    · simp [he, Promise.give] at hp
  | accept slot value =>
    rcases Reply.toAccept_cases record value with ⟨held, _, hlt, he⟩ | ⟨held, hr, hle, hv, he⟩ | ⟨_, he⟩
    · simpa [serve, Call.Honest, he] using hlt
    · -- the value held is not above the promise, and the promise is not above it
      simpa [serve, Call.Honest, he] using Std.le_antisymm hle (h held value hr hv)
    · simp [serve, Call.Honest, he]

end Register
end Synod
