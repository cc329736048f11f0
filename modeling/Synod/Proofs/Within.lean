import Mathlib.Tactic.Lemma
import Synod.Proposer

/-!
# Rounds within a larger state

A proposer whose transport is for a part of a state does to the part what it would do without the
rest, and leaves the rest alone.
-/
namespace Synod

/-- `replace` puts another part in the place of `part`, and changes nothing else. -/
structure IsPart {σ ω : Type} (part : σ → ω) (replace : σ → ω → σ) : Prop where
  part_replace : ∀ s w, part (replace s w) = w
  replace_part : ∀ s, replace s (part s) = s
  replace_replace : ∀ s w w', replace (replace s w) w' = replace s w'

variable {σ ω α : Type} {part : σ → ω} {replace : σ → ω → σ}

/-- To await answers within a state is to await them outside: induction on the answers. -/
theorem Tally.gather_within (h : IsPart part replace) (agrees : α → Bool) (total required : Nat)
    (tally : Tally α) (s : σ) (answers : List (ω → Option α × ω)) :
    gather agrees total required tally s (answers.map fun await s =>
        ((await (part s)).1, replace s (await (part s)).2)) =
      ((gather agrees total required tally (part s) answers).1,
        replace s (gather agrees total required tally (part s) answers).2) := by
  induction answers generalizing tally s with
  | nil => simp only [List.map_nil, gather, h.replace_part]
  | cons await rest ih =>
    simp only [List.map_cons, gather]
    split
    · rw [ih]
      simp only [h.part_replace, h.replace_replace]
    · rw [h.replace_part]

namespace Proposer

lemma acceptPhase_within (h : IsPart part replace) (t : Transport ω) (slot : Slot)
    (value : ProposalValue) (p : Proposer) (s : σ) :
    p.acceptPhase (t.within part replace) slot value s =
      ((p.acceptPhase t slot value (part s)).1, (p.acceptPhase t slot value (part s)).2.1,
        replace s (p.acceptPhase t slot value (part s)).2.2) := by
  simp only [acceptPhase, Transport.within, Tally.gather_within h, h.part_replace,
    h.replace_replace]
  generalize p.afterAccept slot value _ = closed
  rcases closed with ⟨_ | _, _⟩ <;> rfl

theorem propose_within (h : IsPart part replace) (t : Transport ω) (slot : Slot) (own : Payload)
    (p : Proposer) (s : σ) :
    p.propose (t.within part replace) slot own s =
      ((p.propose t slot own (part s)).1, (p.propose t slot own (part s)).2.1,
        replace s (p.propose t slot own (part s)).2.2) := by
  unfold propose
  rcases p.nextId with e | ⟨id, q⟩
  · simp only [h.replace_part]
  · simp only [acceptPhase_within h]
    simp only [Transport.within, Tally.gather_within h, h.part_replace, h.replace_replace]
    generalize q.afterPrepare slot id own _ = closed
    rcases closed with ⟨_ | _, _⟩ <;> rfl

end Proposer
end Synod
