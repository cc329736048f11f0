import Mathlib.Data.Finset.Card
import Mathlib.Data.Finset.Range
import Mathlib.Tactic.Lemma
import Synod.Proposer

/-!
# The parts of a round

What a proposer's counter does, what it concludes from a tally, which payload it is bound to, and
who stands behind the answers of a tally: as many acceptors as there are answers, each of them
asked once.
-/
namespace Synod
namespace Proposer

/-- The same proposer, with a counter that has not gone back. -/
structure Follows (p q : Proposer) : Prop where
  uuid : q.uuid = p.uuid
  quorum : q.quorum = p.quorum
  nextRound : p.nextRound ≤ q.nextRound

theorem Follows.refl (p : Proposer) : Follows p p := ⟨rfl, rfl, UInt64.le_refl _⟩

theorem Follows.trans {p q r : Proposer} (h : Follows p q) (k : Follows q r) : Follows p r :=
  ⟨k.uuid.trans h.uuid, k.quorum.trans h.quorum, UInt64.le_trans h.nextRound k.nextRound⟩

theorem follows_fastForward (p : Proposer) (seen : ProposalId) : Follows p (p.fastForward seen) :=
  ⟨uuid_fastForward p seen, quorum_fastForward p seen, nextRound_le_fastForward p seen⟩

theorem follows_fastForwardAll (p : Proposer) (seen : List ProposalId) :
    Follows p (p.fastForwardAll seen) := by
  induction seen generalizing p with
  | nil => exact Follows.refl p
  | cons id rest ih => exact (follows_fastForward p id).trans (ih (p.fastForward id))

theorem make_spec {uuid : String} {quorum : Quorum} {size : Nat} {floor : UInt64} {p : Proposer}
    (h : make uuid quorum size floor = .ok p) :
    quorum.acceptors.toNat = size ∧ p.uuid = uuid ∧ p.quorum = quorum := by
  unfold make at h
  split at h
  · rename_i hsize
    cases h
    exact ⟨hsize, rfl, rfl⟩
  · cases h

/-- An id that is handed out has been used up. -/
theorem nextId_spec {p q : Proposer} {id : ProposalId} (h : p.nextId = .ok (id, q)) :
    id = ⟨p.nextRound, p.uuid⟩ ∧ Follows p q ∧ p.nextRound < q.nextRound := by
  unfold nextId at h
  split at h
  · cases h
  · rename_i after hafter
    cases h
    rw [Word.next?_eq_some_iff] at hafter
    refine ⟨rfl, ⟨rfl, rfl, ?_⟩, ?_⟩
    · rw [UInt64.le_iff_toNat_le, hafter]
      exact Nat.le_succ _
    · rw [UInt64.lt_iff_toNat_lt, hafter]
      exact Nat.lt_succ_self _

lemma nextRound_of_nextId {p q : Proposer} {id : ProposalId} (h : p.nextId = .ok (id, q)) :
    q.nextRound.toNat = p.nextRound.toNat + 1 := by
  unfold nextId at h
  split at h
  · cases h
  · rename_i after hafter
    cases h
    exact Word.next?_eq_some_iff.mp hafter

theorem nextId_error {p : Proposer} {e : Failure} (h : p.nextId = .error e) :
    e = .roundsExhausted p.uuid := by
  unfold nextId at h
  split at h
  · exact (Except.error.inj h).symm
  · cases h

/-- A proposer that has no round left asks nobody. -/
lemma propose_of_spent {ω : Type} {p : Proposer} {e : Failure} (h : p.nextId = .error e)
    (t : Transport ω) (slot : Slot) (own : Payload) (w : ω) :
    p.propose t slot own w = (.error e, p, w) := by
  rw [propose, h]

theorem afterPrepare_spec {p q : Proposer} {slot : Slot} {id : ProposalId} {own : Payload}
    {tally : Tally Promise} {outcome : Except Failure ProposalValue}
    (h : p.afterPrepare slot id own tally = (outcome, q)) :
    Follows p q ∧
    (∀ v, outcome = .ok v → p.quorum.prepare.toNat ≤ tally.agreed.length ∧
      v = ⟨id, slot, resolvePayload tally.agreed own⟩) ∧
    ∀ e, outcome = .error e → e.isRoundFailure = true := by
  unfold afterPrepare at h
  dsimp only at h
  split at h
  · rename_i hreached
    cases h
    refine ⟨follows_fastForwardAll p _, fun v hv => ⟨hreached, (Except.ok.inj hv).symm⟩, ?_⟩
    exact nofun
  · cases h
    refine ⟨follows_fastForwardAll p _, nofun, fun e he => ?_⟩
    cases he
    rfl

theorem afterAccept_spec {p q : Proposer} {slot : Slot} {value : ProposalValue}
    {tally : Tally Acceptance} {outcome : Except Failure ProposalValue}
    (h : p.afterAccept slot value tally = (outcome, q)) :
    Follows p q ∧
    (∀ v, outcome = .ok v → p.quorum.accept.toNat ≤ tally.agreed.length ∧ v = value) ∧
    ∀ e, outcome = .error e → e.isRoundFailure = true := by
  unfold afterAccept at h
  dsimp only at h
  split at h
  · rename_i hreached
    cases h
    refine ⟨follows_fastForwardAll p _, fun v hv => ⟨hreached, (Except.ok.inj hv).symm⟩, ?_⟩
    exact nofun
  · cases h
    refine ⟨follows_fastForwardAll p _, nofun, fun e he => ?_⟩
    cases he
    rfl

variable {ω : Type} {t : Transport ω} {slot : Slot} {p q : Proposer}
  {outcome : Except Failure ProposalValue} {w w' : ω}

lemma acceptPhase_follows {value : ProposalValue}
    (h : p.acceptPhase t slot value w = (outcome, q, w')) : Follows p q := by
  unfold acceptPhase at h
  dsimp only at h
  split at h
  all_goals
    rename_i hclosed
    cases h
    exact (afterAccept_spec hclosed).1

/-- A round leaves its proposer the same, but for the counter. -/
theorem propose_follows {own : Payload} (h : p.propose t slot own w = (outcome, q, w')) :
    Follows p q := by
  unfold propose at h
  rcases hn : p.nextId with e | ⟨id, after⟩
  · rw [hn] at h
    cases h
    exact Follows.refl p
  · obtain ⟨_, hstarted, _⟩ := nextId_spec hn
    simp only [hn] at h
    split at h
    · rename_i hclosed
      cases h
      exact hstarted.trans (afterPrepare_spec hclosed).1
    · rename_i hclosed
      exact (hstarted.trans (afterPrepare_spec hclosed).1).trans (acceptPhase_follows h)

/-- A round that fails has missed a quorum, or has got no id. -/
theorem propose_error {own : Payload} {e : Failure}
    (h : p.propose t slot own w = (.error e, q, w')) :
    e.isRoundFailure = true ∨ ∃ uuid, e = .roundsExhausted uuid := by
  unfold propose at h
  rcases hn : p.nextId with e' | ⟨id, after⟩
  · rw [hn] at h
    cases h
    exact .inr ⟨_, nextId_error hn⟩
  · simp only [hn] at h
    split at h
    · rename_i hclosed
      cases h
      exact .inl ((afterPrepare_spec hclosed).2.2 e rfl)
    · unfold acceptPhase at h
      dsimp only at h
      split at h
      · rename_i hclosed
        cases h
        exact .inl ((afterAccept_spec hclosed).2.2 e rfl)
      · cases h

end Proposer

/-- The promise is given, and names both the id and the value of an acceptance. -/
structure Promise.Reports (p : Promise) (id : ProposalId) (v : ProposalValue) : Prop where
  given : p.accepted = true
  priorId : p.priorId = some id
  priorValue : p.priorValue = some v

lemma Promise.reported?_eq_some_iff {p : Promise} {id : ProposalId} {v : ProposalValue} :
    p.reported? = some (id, v) ↔ p.Reports id v := by
  constructor
  · intro h
    unfold Promise.reported? at h
    split at h
    · rename_i hgiven hid hvalue
      cases h
      exact ⟨hgiven, hid, hvalue⟩
    · cases h
  · rintro ⟨hgiven, hid, hvalue⟩
    simp only [Promise.reported?, hgiven, hid, hvalue]

theorem Promise.reported?_give (id : ProposalId) (prior : Option ProposalValue) :
    (Promise.give id prior).reported? = prior.map fun w => (w.id, w) := by
  cases prior <;> rfl

theorem highest?_eq_none {entries : List (ProposalId × ProposalValue)}
    (h : highest? entries = none) : entries = [] := by
  cases entries with
  | nil => rfl
  | cons e rest =>
    simp only [highest?] at h
    split at h
    · cases h
    · split at h <;> cases h

theorem highest?_spec {entries : List (ProposalId × ProposalValue)}
    {best : ProposalId × ProposalValue} (h : highest? entries = some best) :
    best ∈ entries ∧ ∀ e ∈ entries, e.1 ≤ best.1 := by
  induction entries generalizing best with
  | nil => cases h
  | cons e rest ih =>
    simp only [highest?] at h
    cases hrest : highest? rest with
    | none =>
      rw [hrest] at h
      cases h
      simp [highest?_eq_none hrest, Std.le_refl]
    | some other =>
      obtain ⟨hmem, hle⟩ := ih hrest
      rw [hrest] at h
      dsimp only at h
      split at h
      · rename_i hlt
        cases h
        refine ⟨List.mem_cons_self, fun d hd => ?_⟩
        rcases List.mem_cons.mp hd with rfl | hd
        · exact Std.le_refl _
        · exact Std.le_trans (hle d hd) (Std.le_of_lt hlt)
      · rename_i hlt
        cases h
        refine ⟨List.mem_cons_of_mem _ hmem, fun d hd => ?_⟩
        rcases List.mem_cons.mp hd with rfl | hd
        · exact Std.not_lt.mp hlt
        · exact hle d hd

/-- The payload to propose is the round's own when no promise reports a value, and otherwise it is
the one reported with the highest id. -/
theorem resolvePayload_cases (promises : List Promise) (own : Payload) :
    (resolvePayload promises own = own ∧ ∀ p ∈ promises, p.reported? = none) ∨
    ∃ p ∈ promises, ∃ best, p.reported? = some best ∧
      resolvePayload promises own = best.2.payload ∧
      ∀ p' ∈ promises, ∀ e, p'.reported? = some e → e.1 ≤ best.1 := by
  unfold resolvePayload
  cases hbest : highest? (promises.filterMap Promise.reported?) with
  | none =>
    refine .inl ⟨rfl, fun p hp => ?_⟩
    have hnil := highest?_eq_none hbest
    rw [List.filterMap_eq_nil_iff] at hnil
    exact hnil p hp
  | some best =>
    obtain ⟨hmem, hle⟩ := highest?_spec hbest
    obtain ⟨p, hp, hreported⟩ := List.mem_filterMap.mp hmem
    refine .inr ⟨p, hp, best, hreported, rfl, fun p' hp' e he => ?_⟩
    exact hle e (List.mem_filterMap.mpr ⟨p', hp', he⟩)

/-- The answers that agree come from different acceptors, and none of those is awaited still. -/
structure Gathered {α : Type} (size : Nat) (said : Nat → α → Prop) (awaited : Finset Nat)
    (answers : List α) : Prop where
  awaited_lt : ∀ a ∈ awaited, a < size
  source : ∀ x ∈ answers, ∃ a, said a x
  voters : ∃ voters : Finset Nat, voters.card = answers.length ∧
    ∀ a ∈ voters, a < size ∧ a ∉ awaited ∧ ∃ x ∈ answers, said a x

namespace Gathered
variable {α : Type} {size : Nat} {said : Nat → α → Prop} {awaited : Finset Nat} {answers : List α}

theorem empty : Gathered size said (Finset.range size) (Tally.empty : Tally α).agreed where
  awaited_lt a ha := Finset.mem_range.mp ha
  source x hx := by cases hx
  voters := ⟨∅, rfl, by simp⟩

theorem mono {said' : Nat → α → Prop} (h : Gathered size said awaited answers)
    (hs : ∀ a x, said a x → said' a x) : Gathered size said' awaited answers where
  awaited_lt := h.awaited_lt
  source x hx := by
    obtain ⟨a, ha⟩ := h.source x hx
    exact ⟨a, hs a x ha⟩
  voters := by
    obtain ⟨voters, hcard, hvoters⟩ := h.voters
    refine ⟨voters, hcard, fun a ha => ?_⟩
    obtain ⟨hlt, hfree, x, hx, hsaid⟩ := hvoters a ha
    exact ⟨hlt, hfree, x, hx, hs a x hsaid⟩

lemma erase (h : Gathered size said awaited answers) (a : Nat) :
    Gathered size said (awaited.erase a) answers where
  awaited_lt b hb := h.awaited_lt b (Finset.mem_of_mem_erase hb)
  source := h.source
  voters := by
    obtain ⟨voters, hcard, hvoters⟩ := h.voters
    refine ⟨voters, hcard, fun b hb => ?_⟩
    obtain ⟨hlt, hfree, hx⟩ := hvoters b hb
    exact ⟨hlt, fun hmem => hfree (Finset.mem_of_mem_erase hmem), hx⟩

/-- The acceptor that has just agreed was not among the others. -/
lemma agree (h : Gathered size said awaited answers) {a : Nat} (ha : a ∈ awaited) {x : α}
    (hx : said a x) : Gathered size said (awaited.erase a) (answers ++ [x]) where
  awaited_lt b hb := h.awaited_lt b (Finset.mem_of_mem_erase hb)
  source y hy := by
    rcases List.mem_append.mp hy with hy | hy
    · exact h.source y hy
    · exact ⟨a, List.mem_singleton.mp hy ▸ hx⟩
  voters := by
    obtain ⟨voters, hcard, hvoters⟩ := h.voters
    have hnew : a ∉ voters := fun hmem => (hvoters a hmem).2.1 ha
    refine ⟨insert a voters, ?_, fun b hb => ?_⟩
    · rw [Finset.card_insert_of_notMem hnew, hcard, List.length_append, List.length_singleton]
    · rcases Finset.mem_insert.mp hb with rfl | hb
      · exact ⟨h.awaited_lt b ha, Finset.notMem_erase b awaited, x, by simp, hx⟩
      · obtain ⟨hlt, hfree, y, hy, hsaid⟩ := hvoters b hb
        exact ⟨hlt, fun hmem => hfree (Finset.mem_of_mem_erase hmem), y,
          List.mem_append_left _ hy, hsaid⟩

theorem hear {agrees : α → Bool} {tally : Tally α} (h : Gathered size said awaited tally.agreed)
    {a : Nat} (ha : a ∈ awaited) {answer : Option α}
    (hx : ∀ x, answer = some x → agrees x = true → said a x) :
    Gathered size said (awaited.erase a) (tally.add agrees answer).agreed := by
  rw [Tally.agreed_add]
  cases answer with
  | none => simpa using h.erase a
  | some x =>
    by_cases hagrees : agrees x = true
    · simpa [hagrees] using h.agree ha (hx x rfl hagrees)
    · simpa [hagrees] using h.erase a

end Gathered
end Synod
