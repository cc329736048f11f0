import Mathlib.Logic.Function.Basic
import Synod.Store.Faulty
import Synod.Store.Memory

/-!
# What a store holds

A store is trusted with one thing: a record is kept once `save` has answered. `StoreView` says so
through the map of the records held. An operation may fail at any time, and a save that fails may
have reached the store or not. In an atomic view failing has no effect, and every failure is one of
durability. Which operations fail is up to the state of the store, so a theorem about all views
covers all patterns of failure.
-/
namespace Synod
open RecordStore

/-- The records that a store holds, as its operations show them. -/
structure StoreView (σ : Type) [RecordStore σ] where
  held : σ → Slot → Option AcceptorRecord
  held_load : ∀ slot s, held (load slot s).2 = held s
  load_ok : ∀ {slot s r}, (load slot s).1 = .ok r → r = held s slot
  save_ok : ∀ {slot r s}, (save slot r s).1 = .ok () →
    held (save slot r s).2 = Function.update (held s) slot (some r)
  save_error : ∀ {slot r s e}, (save slot r s).1 = .error e →
    held (save slot r s).2 = held s ∨
      held (save slot r s).2 = Function.update (held s) slot (some r)

/-- A store that breaks off, or that names a failure of durability. -/
def StoreFault.OfDurability : StoreFault → Prop
  | .failed cause => ∃ c, cause = .durability c
  | .crashed => True

/-- Failed operations leave the records alone and are failures of durability. -/
structure StoreView.Atomic {σ : Type} [RecordStore σ] (view : StoreView σ) : Prop where
  held_save_error : ∀ {slot r s e}, (save slot r s).1 = .error e →
    view.held (save slot r s).2 = view.held s
  load_fault : ∀ {slot s e}, (load (σ := σ) slot s).1 = .error e → e.OfDurability
  save_fault : ∀ {slot r s e}, (save (σ := σ) slot r s).1 = .error e → e.OfDurability

namespace MemoryStore

theorem get?_insert_eq_update (m : SlotMap AcceptorRecord) (slot : Slot) (r : AcceptorRecord) :
    (m.insert slot r).get? = Function.update m.get? slot (some r) := by
  funext t
  by_cases h : slot = t
  · subst h
    simp
  · simp [h, Ne.symm h]

def view : StoreView MemoryStore where
  held s := s.records.get?
  held_load _ _ := rfl
  load_ok h := by cases h; rfl
  save_ok _ := get?_insert_eq_update _ _ _
  save_error h := by cases h

theorem view_atomic : view.Atomic where
  held_save_error h := by cases h
  load_fault h := by cases h
  save_fault h := by cases h

end MemoryStore

namespace FaultyStore
variable {σ : Type} [RecordStore σ]

/-- A load is refused without effect, or it is a load of the store below. -/
theorem load_cases (slot : Slot) (s : FaultyStore σ) :
    (∃ e, (RecordStore.load slot s).1 = .error e ∧ e.OfDurability ∧
      (RecordStore.load slot s).2.inner = s.inner) ∨
    ((RecordStore.load slot s).1 = (RecordStore.load slot s.inner).1 ∧
      (RecordStore.load slot s).2.inner = (RecordStore.load slot s.inner).2) := by
  change (∃ e, (load slot s).1 = .error e ∧ _ ∧ (load slot s).2.inner = _) ∨
    ((load slot s).1 = _ ∧ (load slot s).2.inner = _)
  by_cases hm : s.mode = .failLoad
  · exact .inl ⟨.failed (.durability (.described "unreadable")), by simp [load, hm], ⟨_, rfl⟩,
      by simp [load, hm]⟩
  · exact .inr (by simp [load, hm])

/-- A save is refused without effect, or it is a save of the store below. -/
theorem save_cases (slot : Slot) (r : AcceptorRecord) (s : FaultyStore σ) :
    (∃ e, (RecordStore.save slot r s).1 = .error e ∧ e.OfDurability ∧
      (RecordStore.save slot r s).2.inner = s.inner) ∨
    ((RecordStore.save slot r s).1 = (RecordStore.save slot r s.inner).1 ∧
      (RecordStore.save slot r s).2.inner = (RecordStore.save slot r s.inner).2) := by
  change (∃ e, (save slot r s).1 = .error e ∧ _ ∧ (save slot r s).2.inner = _) ∨
    ((save slot r s).1 = _ ∧ (save slot r s).2.inner = _)
  by_cases hm : s.mode = .failSave
  · exact .inl ⟨.failed (.durability (.described "disk full")), by simp [save, hm], ⟨_, rfl⟩,
      by simp [save, hm]⟩
  by_cases hc : s.mode = .crashSave
  · exact .inl ⟨.crashed, by simp [save, hc], trivial, by simp [save, hc]⟩
  right
  rcases hs : RecordStore.save slot r s.inner with ⟨outcome, inner⟩
  cases outcome <;> simp [save, hm, hc, hs]

/-- The layer of faults hides nothing of what the store below holds. -/
def view (inner : StoreView σ) : StoreView (FaultyStore σ) where
  held s := inner.held s.inner
  held_load slot s := by
    rcases load_cases slot s with ⟨e, _, _, hs⟩ | ⟨_, hs⟩
    · rw [hs]
    · rw [hs, inner.held_load]
  load_ok {slot s r} h := by
    rcases load_cases slot s with ⟨e, he, _⟩ | ⟨he, _⟩
    · rw [he] at h
      cases h
    · exact inner.load_ok (he ▸ h)
  save_ok {slot r s} h := by
    rcases save_cases slot r s with ⟨e, he, _⟩ | ⟨he, hs⟩
    · rw [he] at h
      cases h
    · rw [hs]
      exact inner.save_ok (he ▸ h)
  save_error {slot r s e} h := by
    rcases save_cases slot r s with ⟨e', _, _, hs⟩ | ⟨he, hs⟩
    · exact .inl (by rw [hs])
    · rw [hs]
      exact inner.save_error (he ▸ h)

theorem view_atomic {inner : StoreView σ} (h : inner.Atomic) : (view inner).Atomic where
  held_save_error {slot r s e} he := by
    change inner.held _ = inner.held s.inner
    rcases save_cases slot r s with ⟨e', _, _, hs⟩ | ⟨he', hs⟩
    · rw [hs]
    · rw [hs]
      exact h.held_save_error (he' ▸ he)
  load_fault {slot s e} he := by
    rcases load_cases slot s with ⟨e', he', hd, _⟩ | ⟨he', _⟩
    · rw [he'] at he
      cases he
      exact hd
    · exact h.load_fault (he' ▸ he)
  save_fault {slot r s e} he := by
    rcases save_cases slot r s with ⟨e', he', hd, _⟩ | ⟨he', _⟩
    · rw [he'] at he
      cases he
      exact hd
    · exact h.save_fault (he' ▸ he)

end FaultyStore
end Synod
