import Synod.Acceptor
import Synod.Proofs.StoreView

/-!
# What an acceptor goes by

Seen from outside an acceptor is two maps of records: `believes`, which its answers follow, and
`durable`, which is what it would believe after a restart. They differ only while a save that
failed has reached the store nevertheless. `Handled` lists all that one request can do to the two
maps, and `handled` shows that nothing else happens.
-/
namespace Synod.Acceptor
open RecordStore

variable {σ α : Type} [RecordStore σ] (view : StoreView σ)

/-- The record that the next answer follows: the one remembered, or else the one in the store. -/
def believes (a : Acceptor σ) (slot : Slot) : Option AcceptorRecord :=
  (a.known.get? slot).getD (view.held a.store slot)

/-- The record that the store has, whatever is remembered. -/
def durable (a : Acceptor σ) : Slot → Option AcceptorRecord := view.held a.store

theorem believes_start (s : σ) : (start s).believes view = view.held s := rfl

theorem believes_restart (a : Acceptor σ) : a.restart.believes view = a.durable view := rfl

@[simp] theorem durable_restart (a : Acceptor σ) : a.restart.durable view = a.durable view := rfl

/-- The records after a write, if there is one. -/
def written (slot : Slot) (write : Option AcceptorRecord)
    (records : Slot → Option AcceptorRecord) : Slot → Option AcceptorRecord :=
  match write with
  | none => records
  | some r => Function.update records slot (some r)

@[simp] theorem written_none (slot : Slot) (records : Slot → Option AcceptorRecord) :
    written slot none records = records := rfl

theorem written_some (slot : Slot) (r : AcceptorRecord) (records : Slot → Option AcceptorRecord) :
    written slot (some r) records = Function.update records slot (some r) := rfl

/-- What a request for a slot does, its reply being worked out from the record believed. -/
inductive Handled (before after : Acceptor σ) (slot : Slot) (reply : Reply α) :
    Except Failure α → Prop
  | answered (believed : after.believes view = written slot reply.write (before.believes view))
      (kept : after.durable view = written slot reply.write (before.durable view)) :
      Handled before after slot reply (.ok reply.answer)
  | failed (e : Failure) (believed : after.believes view = before.believes view)
      (kept : after.durable view = before.durable view) : Handled before after slot reply (.error e)
  /-- The save failed, but the record had reached the store. -/
  | late (e : Failure) (believed : after.believes view = before.believes view)
      (kept : after.durable view = written slot reply.write (before.durable view)) :
      Handled before after slot reply (.error e)

theorem believes_eq_of_known {a : Acceptor σ} {slot : Slot} {r : Option AcceptorRecord}
    (h : a.known.get? slot = some r) : a.believes view slot = r := by
  simp [believes, h]

/-- Reading a record into memory changes neither map. -/
theorem current_spec (a : Acceptor σ) (slot : Slot) :
    (a.current slot).2.believes view = a.believes view ∧
    (a.current slot).2.durable view = a.durable view ∧
    ∀ r, (a.current slot).1 = .ok r →
      r = a.believes view slot ∧ (a.current slot).2.known.get? slot = some r := by
  unfold current
  cases hk : a.known.get? slot with
  | some r =>
    refine ⟨rfl, rfl, fun r' h => ?_⟩
    cases h
    exact ⟨(believes_eq_of_known view hk).symm, hk⟩
  | none =>
    have hstate := view.held_load slot a.store
    rcases hl : load slot a.store with ⟨outcome, s⟩
    rw [hl] at hstate
    cases outcome with
    | error e =>
      exact ⟨funext fun t => by simp only [believes, hstate], hstate, fun r h => by cases h⟩
    | ok r =>
      have hr : r = view.held a.store slot := view.load_ok (congrArg Prod.fst hl)
      refine ⟨funext fun t => ?_, hstate, fun r' h => ?_⟩
      · by_cases ht : slot = t
        · subst ht
          simp [believes, hk, hr]
        · simp [believes, ht, hstate]
      · cases h
        exact ⟨by simp [believes, hk, hr], by simp⟩

/-- Once the record is in memory a reply is given only if its write succeeds. -/
theorem commit_spec (a : Acceptor σ) (slot : Slot) (reply : Reply α)
    (hk : ∃ r, a.known.get? slot = some r) :
    Handled view a (a.commit slot reply).2 slot reply (a.commit slot reply).1 := by
  obtain ⟨answer, write⟩ := reply
  unfold commit
  cases write with
  | none => exact .answered rfl rfl
  | some record =>
    have hok := @view.save_ok slot record a.store
    have herr := @view.save_error slot record a.store
    rcases hs : save slot record a.store with ⟨outcome, s⟩
    rw [hs] at hok herr
    simp only [hs]
    cases outcome with
    | ok u =>
      replace hok : view.held s = _ := hok rfl
      refine .answered (funext fun t => ?_) hok
      by_cases ht : slot = t
      · subst ht
        simp [believes, written_some]
      · simp [believes, ht, Ne.symm ht, hok, written_some]
    | error e =>
      replace herr : view.held s = _ ∨ view.held s = _ := herr rfl
      have hother : ∀ t, t ≠ slot → view.held s t = view.held a.store t := by
        intro t ht
        rcases herr with h | h
        · rw [h]
        · rw [h, Function.update_of_ne ht]
      have hbelief : (Acceptor.mk s a.known).believes view = a.believes view := by
        funext t
        by_cases ht : t = slot
        · obtain ⟨r, hr⟩ := hk
          subst ht
          simp [believes, hr]
        · simp [believes, hother t ht]
      rcases herr with h | h
      · exact .failed _ hbelief h
      · exact .late _ hbelief h

/-- All that a request can do. -/
theorem handled (reply : Option AcceptorRecord → Reply α) (a : Acceptor σ) (slot : Slot) :
    Handled view a (a.handle reply slot).2 slot (reply (a.believes view slot))
      (a.handle reply slot).1 := by
  obtain ⟨hbelief, hdurable, hok⟩ := current_spec view a slot
  unfold handle
  rcases hc : a.current slot with ⟨outcome, b⟩
  rw [hc] at hbelief hdurable hok
  cases outcome with
  | error e => exact .failed e hbelief hdurable
  | ok r =>
    obtain ⟨hr, hk⟩ := hok r rfl
    have hcommit := commit_spec view b slot (reply (a.believes view slot)) ⟨r, hk⟩
    rw [← hr] at hcommit ⊢
    dsimp only at hbelief hdurable hcommit ⊢
    rcases hp : b.commit slot (reply r) with ⟨outcome, c⟩
    rw [hp] at hcommit
    cases hcommit with
    | answered h k => exact .answered (h.trans (by rw [hbelief])) (k.trans (by rw [hdurable]))
    | failed e h k => exact .failed e (h.trans hbelief) (k.trans hdurable)
    | late e h k => exact .late e (h.trans hbelief) (k.trans (by rw [hdurable]))

end Synod.Acceptor
