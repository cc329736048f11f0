import Synod.Proofs.Agreement

/-!
# Validity

Nothing is offered, and so nothing is chosen, that some round did not bring with it as its own
payload.
-/
namespace Synod.Assembly
open RecordStore

variable {σ : Type} [RecordStore σ] {view : StoreView σ} {quorum : Quorum} {size : Nat}
  {s : Assembly σ}

/-- Where the payload of an offer comes from: the round that made the offer, or by way of promises
another round with a lower id. -/
theorem Lawful.payload_origin (h : Lawful view quorum size s) {slot : Slot} {v : ProposalValue}
    (hv : .accept slot v ∈ s.sent) :
    ∃ k r, s.rounds k = some r ∧ r.slot = slot ∧ v.payload = r.own := by
  refine offers_induction (P := fun v => ∃ k r, s.rounds k = some r ∧ r.slot = slot ∧
    v.payload = r.own) ?_ v hv
  intro w hw ih
  obtain ⟨_, k, r, hr, _, hslot, _, promises, hpayload, hsource, _⟩ := h.offers hw
  rcases resolvePayload_cases promises r.own with ⟨hown, _⟩ | ⟨p, hp, best, hbest, hresolve, _⟩
  · exact ⟨k, r, hr, hslot, hpayload.trans hown⟩
  · obtain ⟨a, hpromised⟩ := hsource p hp
    obtain ⟨_, hlt, hoffered⟩ := (h.reported hpromised).1 best hbest
    obtain ⟨l, r', hr', hslot', hown⟩ := ih best.2 hoffered hlt
    exact ⟨l, r', hr', hslot', by rw [hpayload, hresolve, hown]⟩

end Synod.Assembly
