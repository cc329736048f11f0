import Synod.Proofs.Agreement
import Synod.Proofs.Audience

/-!
# Learners never conflict

A learner is told values that were chosen, and values chosen for one slot have one payload, under
whatever ids they come. So a learner finds every value that it is told either new or the same as the
one it holds.
-/
namespace Synod
open RecordStore

namespace Audience

variable {σ : Type} [RecordStore σ] {view : StoreView σ} {quorum : Quorum} {size : Nat}
  {s t : Audience σ}

/-- The invariant: what learners hold was chosen, and no learner has refused anything. -/
structure Sound (view : StoreView σ) (quorum : Quorum) (size : Nat) (s : Audience σ) : Prop where
  lawful : s.assembly.Lawful view quorum size
  learned : ∀ {l slot v}, (s.learners l).get? slot = some v →
    .accept slot v ∈ s.assembly.sent ∧ s.assembly.Chosen quorum size slot v
  taken : ∀ {e}, e ∈ s.tellings → e.answer = .ok () ∧
    ∃ held, (s.learners e.learner).get? e.slot = some held ∧ held.payload = e.value.payload

theorem sound_init {stores : Nat → σ} (h : ∀ a, view.held (stores a) = fun _ => none) :
    Sound view quorum size (init stores) where
  lawful := Assembly.lawful_init h
  learned h := by cases h
  taken h := by cases h

namespace Sound

lemma setAssembly (h : Sound view quorum size s) {a : Assembly σ}
    (step : Assembly.Step view quorum size s.assembly a) :
    Sound view quorum size (s.setAssembly a) where
  lawful := h.lawful.step step
  learned hv := ⟨step.grows.sent (h.learned hv).1, (h.learned hv).2.mono step.grows⟩
  taken := h.taken

/-- A learner is told a value that was chosen. -/
lemma tell (h : Sound view quorum size s) {slot : Slot} {v : ProposalValue}
    (hv : .accept slot v ∈ s.assembly.sent ∧ s.assembly.Chosen quorum size slot v) (l : Nat) :
    Sound view quorum size (s.tell l slot v) := by
  have hslot : v.slot = slot := (h.lawful.offers hv.1).1
  have hsame : ∀ held, (s.learners l).get? slot = some held → held.SameDecree v := by
    intro held hheld
    have hchosen := h.learned hheld
    have hown : held.slot = slot := (h.lawful.offers hchosen.1).1
    exact ⟨hown.trans hslot.symm, h.lawful.chosen_payload_eq hchosen hv⟩
  refine ⟨h.lawful, fun {l' slot' w} hw => ?_, fun {e} he => ?_⟩
  · rcases eq_or_eq_of_get?_tell hw with hw | ⟨rfl, rfl⟩
    · exact h.learned hw
    · exact hv
  · rcases List.mem_cons.mp he with rfl | he
    · refine ⟨Learner.record_eq_ok_iff.mpr ⟨hslot, hsame⟩, ?_⟩
      rw [get?_tell]
      cases hheld : (s.learners l).get? slot with
      | none => exact ⟨v, by simp [hslot], rfl⟩
      | some held => exact ⟨held, rfl, (hsame held hheld).2⟩
    · obtain ⟨hanswer, held, hheld, hpayload⟩ := h.taken he
      exact ⟨hanswer, held, by rw [get?_tell, hheld, Option.some_or], hpayload⟩

/-- Every step keeps the invariant. -/
theorem step (h : Sound view quorum size s) (hstep : Step (Assembly.Step view quorum size) s t) :
    Sound view quorum size t := by
  cases hstep with
  | proceed step => exact h.setAssembly step
  | tell l k round ended => exact h.tell (h.lawful.chosen_of_ended round ended) l

theorem reaches (h : Sound view quorum size s)
    (hreaches : Reaches (Assembly.Step view quorum size) s t) : Sound view quorum size t := by
  induction hreaches with
  | refl => exact h
  | tail _ hstep ih => exact ih.step hstep

end Sound

theorem Reachable.sound (h : Reachable view (Assembly.Step view quorum size) s) :
    Sound view quorum size s := by
  obtain ⟨stores, hstores, hreaches⟩ := h
  exact (sound_init hstores).reaches hreaches

/-- What happens to the assembly are steps of the assembly. -/
theorem Reaches.assembly (h : Reaches (Assembly.Step view quorum size) s t) :
    Assembly.Reaches view quorum size s.assembly t.assembly := by
  induction h with
  | refl => exact .refl
  | tail _ hstep ih =>
    cases hstep with
    | proceed step => exact ih.tail step
    | tell => exact ih

/-- No learner refuses what it is told, and it holds that payload from then on. Each value that it
holds was acknowledged, under its own id, by as many acceptors as the second phase needs, and all
learners hold the same payload for a slot, now and later. -/
theorem learners_agree (h : Reachable view (Assembly.Step view quorum size) s)
    (later : Reaches (Assembly.Step view quorum size) s t) :
    (∀ e ∈ s.tellings, e.answer = .ok () ∧
      ∃ held, (s.learners e.learner).get? e.slot = some held ∧
        held.payload = e.value.payload) ∧
    (∀ l slot v, (s.learners l).get? slot = some v → s.assembly.Chosen quorum size slot v) ∧
    ∀ l l' slot v w, (s.learners l).get? slot = some v → (t.learners l').get? slot = some w →
      v.payload = w.payload := by
  have hs := h.sound
  have ht := hs.reaches later
  have hgrows := later.assembly.grows
  refine ⟨fun e he => hs.taken he, fun l slot v hv => (hs.learned hv).2, ?_⟩
  intro l l' slot v w hv hw
  obtain ⟨hoffered, hchosen⟩ := hs.learned hv
  exact ht.lawful.chosen_payload_eq ⟨hgrows.sent hoffered, hchosen.mono hgrows⟩ (ht.learned hw)

/-- A decree is chosen in two rounds. One learner hears of both, another one of the second alone:
they hold it under different ids. -/
theorem learners_agree_under_two_ids :
    ∃ s : Audience MemoryStore,
      Reachable MemoryStore.view (Assembly.Step MemoryStore.view Quorum.single 1) s ∧
      (s.learners 0).get? ⟨7⟩ = some ⟨⟨0, "a"⟩, ⟨7⟩, [1]⟩ ∧
      (s.learners 1).get? ⟨7⟩ = some ⟨⟨0, "b"⟩, ⟨7⟩, [1]⟩ ∧
      s.tellings.length = 3 ∧ ∀ e ∈ s.tellings, e.answer = .ok () := by
  obtain ⟨_, a, ⟨stores, hstores, hreaches⟩, later, _, hfirst, hsecond, _⟩ :=
    Assembly.exists_two_rounds
  have proceeded := reaches_setAssembly (s := init stores) (hreaches.trans later)
  have told₁ := proceeded.tail (.tell 0 0 hfirst rfl)
  have told₂ := told₁.tail (.tell 1 1 hsecond rfl)
  have told₃ := told₂.tail (.tell 0 1 hsecond rfl)
  have hs : Reachable MemoryStore.view (Assembly.Step MemoryStore.view Quorum.single 1) _ :=
    ⟨stores, hstores, told₃⟩
  exact ⟨_, hs, rfl, rfl, rfl, fun e he => ((learners_agree hs .refl).1 e he).1⟩

end Audience
end Synod
