import Synod.Proofs.Propose

/-!
# Returned values stay in the stores

When a round returns a value, a quorum of stores holds the value's payload for its slot. Later
rounds may overwrite these records, but only under higher ids and with the same payload.
Acceptors forget on a restart what they remember, so this is about the records in their stores.
-/
namespace Synod.Assembly
open RecordStore

variable {σ ω : Type} [RecordStore σ] {view : StoreView σ} {quorum : Quorum} {size : Nat}
  {s t : Assembly σ}

/-- The store of an acceptor has accepted the payload of `v`, under its id or a higher one. -/
def Keeps (view : StoreView σ) (s : Assembly σ) (slot : Slot) (v : ProposalValue) (a : Nat) :
    Prop :=
  ∃ w, ((s.acceptors a).durable view slot).bind (·.accepted) = some w ∧
    w.payload = v.payload ∧ v.id ≤ w.id

/-- Offers that are not below a chosen value have its payload. -/
lemma Lawful.payload_eq_of_le (h : Lawful view quorum size s) {slot : Slot} {v w : ProposalValue}
    (hv : .accept slot v ∈ s.sent ∧ s.Chosen quorum size slot v) (hw : .accept slot w ∈ s.sent)
    (hle : v.id ≤ w.id) : w.payload = v.payload := by
  rcases ProposalId.lt_or_eq_or_gt v.id w.id with hlt | heq | hgt
  · exact h.payload_eq hv.2 hw hlt
  · rw [h.unique hv.1 hw heq]
  · exact absurd hgt (Std.not_lt.mpr hle)

/-- An acceptor that has acknowledged a chosen value keeps its payload: what its store has
accepted is not below the value and was offered. -/
lemma Lawful.keeps (h : Lawful view quorum size s) {slot : Slot} {v : ProposalValue} {a : Nat}
    {x : Acceptance} (hv : .accept slot v ∈ s.sent ∧ s.Chosen quorum size slot v)
    (hx : s.Accepted slot v a x) : s.Keeps view slot v a := by
  have hkept := (h.accounts a).kept slot
  obtain ⟨w, hw, hle⟩ := hkept.holds hx.acknowledged
  exact ⟨w, hw, h.payload_eq_of_le hv (hkept.offered hw) hle, hle⟩

/-- The acceptors that chose a value keep its payload from then on. -/
theorem Lawful.voters_keep (h : Lawful view quorum size s) {slot : Slot} {v : ProposalValue}
    (hv : .accept slot v ∈ s.sent ∧ s.Chosen quorum size slot v) :
    ∃ voters : Finset Nat, quorum.accept.toNat ≤ voters.card ∧ (∀ a ∈ voters, a < size) ∧
      ∀ t, Reaches view quorum size s t → ∀ a ∈ voters, t.Keeps view slot v a := by
  obtain ⟨hoffered, hchosen⟩ := hv
  obtain ⟨voters, hcard, hvoters⟩ := hchosen
  refine ⟨voters, hcard, fun a ha => (hvoters a ha).1, fun t later a ha => ?_⟩
  obtain ⟨_, x, hx⟩ := hvoters a ha
  have hchosen : s.Chosen quorum size slot v := ⟨voters, hcard, hvoters⟩
  exact (h.reaches later).keeps ⟨later.grows.sent hoffered, hchosen.mono later.grows⟩
    (hx.mono later.grows)

/-- A value that a proposer returns is in a quorum of stores by then, and its payload stays there
whatever happens next. -/
theorem propose_keeps {u : String} {k : Nat} {transport : Transport ω} {shows : ω → Assembly σ}
    (hc : (Arena.alone view quorum size shows).Carries u k transport) {p p' : Proposer}
    {slot : Slot} {own : Payload} {v : ProposalValue} {w w' : ω}
    (hw : Reachable view quorum size ((shows w).setProposer u p))
    (hunused : (shows w).rounds k = none) (h : p.propose transport slot own w = (.ok v, p', w')) :
    ∃ r, ∃ voters : Finset Nat, quorum.accept.toNat ≤ voters.card ∧ (∀ a ∈ voters, a < size) ∧
      ∀ t, Reaches view quorum size ((shows w').running u k p' r) t →
        ∀ a ∈ voters, t.Keeps view slot v a := by
  obtain ⟨r, hlater, hchosen⟩ := chosen_of_propose hc hw hunused h
  exact ⟨r, hlater.lawful.voters_keep hchosen⟩

/-- A round that succeeded leaves the payload of its value in a quorum of stores. There it is at
once, and there it stays: through failed writes, restarts and all rounds of other proposers. -/
theorem returned_value_lasts (h : Reachable view quorum size s) {k : Nat} {r : Round}
    {v : ProposalValue} (hr : s.rounds k = some r) (returned : r.stage = .ended (.ok v)) :
    ∃ voters : Finset Nat, quorum.accept.toNat ≤ voters.card ∧ (∀ a ∈ voters, a < size) ∧
      ∀ t, Reaches view quorum size s t → ∀ a ∈ voters, t.Keeps view r.slot v a :=
  h.lawful.voters_keep (h.lawful.chosen_of_ended hr returned)

/-- The value of a first round is overwritten by a second one, which brought another payload. -/
theorem returned_value_lasts_overwritten :
    ∃ s t : Assembly MemoryStore, Reachable MemoryStore.view Quorum.single 1 s ∧
      Reaches MemoryStore.view Quorum.single 1 s t ∧
      ∃ r, s.rounds 0 = some r ∧ r.stage = .ended (.ok ⟨⟨0, "a"⟩, ⟨7⟩, [1]⟩) ∧
        (∃ r', t.rounds 1 = some r' ∧ r'.own = [2]) ∧
        t.Keeps MemoryStore.view r.slot ⟨⟨0, "a"⟩, ⟨7⟩, [1]⟩ 0 ∧
        ((t.acceptors 0).durable MemoryStore.view r.slot).bind (·.accepted) =
          some ⟨⟨0, "b"⟩, ⟨7⟩, [1]⟩ := by
  obtain ⟨s, t, hs, later, hfirst, _, hsecond, hrecord⟩ := exists_two_rounds
  obtain ⟨voters, hcard, hlt, hkeeps⟩ := returned_value_lasts hs hfirst rfl
  obtain ⟨c, hc⟩ := Finset.card_pos.mp hcard
  have hzero := Nat.lt_one_iff.mp (hlt c hc)
  exact ⟨s, t, hs, later, _, hfirst, rfl, ⟨_, hsecond, rfl⟩, hzero ▸ hkeeps t later c hc, hrecord⟩

end Synod.Assembly
