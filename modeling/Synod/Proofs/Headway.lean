import Synod.Proofs.Attempts
import Synod.Proofs.Overtaking
import Synod.Proofs.Propose
import Synod.Proofs.Quiet

/-!
# A lone proposer gets through

When acceptors hear from one proposer only, a round fails for the sake of initial promises, and all
later ids are above those that the failure has named. So whatever order the answers come in, every
failed round leaves fewer acceptors whose initial promise stands against the next id, and once there
are none the round succeeds.
-/
namespace Synod

namespace Proposer

/-- The id that the next round takes. -/
def upcoming (p : Proposer) : ProposalId := ⟨p.nextRound, p.uuid⟩

/-- Going past refusals, the counter does not leave the rounds below it and after theirs unused. -/
lemma nextRound_fastForwardAll_le {p : Proposer} {seen : List ProposalId} {bound : Nat}
    (hp : p.nextRound.toNat ≤ bound) (hseen : ∀ id ∈ seen, id.round.toNat < bound) :
    (p.fastForwardAll seen).nextRound.toNat ≤ bound := by
  induction seen generalizing p with
  | nil => exact hp
  | cons id rest ih =>
    obtain ⟨hid, hrest⟩ := List.forall_mem_cons.mp hseen
    have hfirst := id.firstRound_le p.uuid
    refine ih ?_ hrest
    rw [toNat_nextRound_fastForward]
    omega

theorem fastForwardAll_append (p : Proposer) (seen seen' : List ProposalId) :
    p.fastForwardAll (seen ++ seen') = (p.fastForwardAll seen).fastForwardAll seen' :=
  List.foldl_append

variable {ω : Type}

/-- At most so many rounds for a slot fail before one succeeds, whatever each of them is to
propose. -/
def GetsThrough (t : Transport ω) (slot : Slot) : Nat → Proposer → ω → Prop
  | 0, p, w => ∀ own, ∃ v, (p.propose t slot own w).1 = .ok v
  | n + 1, p, w => ∀ own, (∃ v, (p.propose t slot own w).1 = .ok v) ∨
      (∃ phase accepted required,
        (p.propose t slot own w).1 = .error (.roundFailure slot phase accepted required)) ∧
      GetsThrough t slot n (p.propose t slot own w).2.1 (p.propose t slot own w).2.2

/-- A round as an attempt that can be made again. -/
def attempt (t : Transport ω) (slot : Slot) (own : Payload) (s : Proposer × ω) :
    Except Fault ProposalValue × Proposer × ω :=
  let (outcome, p, w) := s.1.propose t slot own s.2
  (Fault.ofFailure outcome, p, w)

/-- An attempt fails only if there is a failure to spare, and then its round has failed. -/
lemma GetsThrough.of_failed {t : Transport ω} {slot : Slot} {n : Nat} {p : Proposer} {w : ω}
    (h : GetsThrough t slot n p w) {own : Payload} {e : Failure} {s : Proposer × ω}
    (hfailed : attempt t slot own (p, w) = (.error (.failure e), s)) :
    ∃ m, n = m + 1 ∧ e.isRoundFailure = true ∧ GetsThrough t slot m s.1 s.2 := by
  unfold attempt at hfailed
  dsimp only at hfailed
  rcases hp : p.propose t slot own w with ⟨outcome, q, w'⟩
  rw [hp] at hfailed
  cases outcome with
  | ok v => cases hfailed
  | error cause =>
    cases hfailed
    cases n with
    | zero =>
      obtain ⟨v, hv⟩ := h own
      rw [hp] at hv
      cases hv
    | succ m =>
      rcases h own with ⟨v, hv⟩ | ⟨⟨phase, accepted, required, he⟩, hrest⟩
      · rw [hp] at hv
        cases hv
      · rw [hp] at he hrest
        cases he
        exact ⟨m, rfl, rfl, hrest⟩

/-- Attempts that get through within the budget are not given up. Induction on the attempts, each
of which leaves fewer failures to spare. -/
theorem GetsThrough.ends {t : Transport ω} {slot : Slot} {n : Nat} {p : Proposer} {w : ω}
    (h : GetsThrough t slot n p w) {policy : RetryPolicy} {jitter : Jitter} {own : Payload}
    {made : Nat} {outcome : Except Fault ProposalValue} {s' : Proposer × ω}
    (hends : policy.Ends jitter (attempt t slot own) made (p, w) outcome s')
    (hbudget : made + n ≤ policy.budget) :
    (∃ v, outcome = .ok v) ∨ ∃ o, outcome = .error (.overflow o) := by
  generalize hs : (p, w) = s at hends
  induction hends generalizing n p w with
  | answered => exact .inl ⟨_, rfl⟩
  | overflowed => exact .inr ⟨_, rfl⟩
  | failed attempted verdict =>
    subst hs
    obtain ⟨m, rfl, hround, _⟩ := h.of_failed attempted
    unfold RetryPolicy.verdict at verdict
    rw [if_pos hround, if_pos (by omega)] at verdict
    split at verdict
    · exact .inr ⟨_, congrArg Except.error (Option.some.inj verdict).symm⟩
    · cases verdict
  | retried attempted _ _ ih =>
    subst hs
    obtain ⟨m, rfl, _, hrest⟩ := h.of_failed attempted
    exact ih hrest (by omega) rfl

end Proposer

/-- A store in memory never fails, and nor does what an acceptor does over it. -/
lemma Acceptor.handle_memory {α : Type} (reply : Option AcceptorRecord → Reply α)
    (a : Acceptor MemoryStore) (slot : Slot) : ∃ x, (a.handle reply slot).1 = .ok x := by
  have hcommit : ∀ (b : Acceptor MemoryStore) (r : Reply α), (b.commit slot r).1 = .ok r.answer := by
    intro b r
    unfold commit
    cases r.write <;> rfl
  have hcurrent : ∃ r, (a.current slot).1 = .ok r := by
    unfold current
    cases a.known.get? slot <;> exact ⟨_, rfl⟩
  obtain ⟨r, hr⟩ := hcurrent
  unfold handle
  rcases hc : a.current slot with ⟨outcome, b⟩
  rw [hc] at hr
  cases hr
  exact ⟨_, hcommit b (reply r)⟩

namespace Assembly
open Proposer

/-- The acceptors whose initial promise stands against an id. -/
def opponents (initial : Nat → Option AcceptorRecord) (size : Nat) (id : ProposalId) : Finset Nat :=
  (Finset.range size).filter fun a => ∃ r ∈ initial a, id ≤ r.promised

lemma card_opponents_le (initial : Nat → Option AcceptorRecord) (size : Nat) (id : ProposalId) :
    (opponents initial size id).card ≤ size :=
  (Finset.card_filter_le _ _).trans_eq (Finset.card_range size)

/-- Beyond the promise of one of them there are fewer. -/
lemma card_opponents_lt {initial : Nat → Option AcceptorRecord} {size a : Nat} (ha : a < size)
    {r : AcceptorRecord} (hr : initial a = some r) {id id' : ProposalId} (hle : id ≤ r.promised)
    (hlt : r.promised < id') :
    (opponents initial size id').card < (opponents initial size id).card := by
  have hsubset : opponents initial size id' ⊆ opponents initial size id := by
    intro b hb
    obtain ⟨hsize, r', hr', hle'⟩ := Finset.mem_filter.mp hb
    have hids : id ≤ id' := Std.le_trans hle (Std.le_of_lt hlt)
    exact Finset.mem_filter.mpr ⟨hsize, r', hr', Std.le_trans hids hle'⟩
  refine Finset.card_lt_card ((Finset.ssubset_iff_of_subset hsubset).mpr ⟨a, ?_, ?_⟩)
  · exact Finset.mem_filter.mpr ⟨Finset.mem_range.mpr ha, r, hr, hle⟩
  · intro hmem
    obtain ⟨_, r', hr', hle'⟩ := Finset.mem_filter.mp hmem
    cases hr.symm.trans hr'
    exact absurd hlt (Std.not_lt.mpr hle')

variable {σ ω : Type} [RecordStore σ] {view : StoreView σ} {size : Nat} {slot : Slot}
  {initial : Nat → Option AcceptorRecord} {s s' : Assembly σ} {p p' : Proposer} {w : ω}

/-- A proposer that nobody else gets in the way of, and how much room its counter has left for the
opponents of its next id. -/
structure Contends (view : StoreView σ) (size : Nat) (slot : Slot)
    (initial : Nat → Option AcceptorRecord) (p : Proposer) (s : Assembly σ) : Prop where
  size_eq : p.quorum.acceptors.toNat = size
  tame : Tame view slot initial s
  past : ∀ q ∈ s.sent, p.Past q.id
  ceiling : ∀ a < size, ∀ r ∈ initial a, r.promised.round.toNat + size + 3 < UInt64.size
  room : p.nextRound.toNat + (opponents initial size p.upcoming).card + 3 < UInt64.size

namespace Contends

lemma ne_last (h : Contends view size slot initial p s) : p.nextRound ≠ Word.last := by
  intro hlast
  have hroom := h.room
  rw [Word.eq_last_iff] at hlast
  omega

/-- What was sent is below the next id. -/
lemma lt_upcoming (h : Contends view size slot initial p s) {q : Request} (hq : q ∈ s.sent) :
    q.id < p.upcoming :=
  (h.past q hq).resolve_left h.ne_last

/-- After refusals that name initial promises above the round's id, the proposer contends again,
with fewer opponents. -/
lemma again (h : Contends view size slot initial p s) {id : ProposalId}
    (hn : p.nextId = .ok (id, p')) {seen : List ProposalId} (hsome : seen ≠ [])
    (hseen : ∀ x ∈ seen, ∃ a < size, ∃ r, initial a = some r ∧ r.promised = x ∧ id ≤ x)
    (htame : Tame view slot initial s') (hsent : ∀ q ∈ s'.sent, q.id = id ∨ q ∈ s.sent) :
    Contends view size slot initial (p'.fastForwardAll seen) s' ∧
    (opponents initial size (p'.fastForwardAll seen).upcoming).card <
      (opponents initial size p.upcoming).card := by
  obtain ⟨rfl, _, hpast⟩ := past_of_nextId hn
  obtain ⟨_, hstarted, _⟩ := nextId_spec hn
  have hforward := follows_fastForwardAll p' seen
  have hsize : UInt64.size = 18446744073709551616 := rfl
  have hroom := h.room
  have hcard := card_opponents_le initial size p.upcoming
  -- the counter goes one round further, or to the round after an initial promise at most
  have hcounter : (p'.fastForwardAll seen).nextRound.toNat ≤
      UInt64.size - 3 - (opponents initial size p.upcoming).card := by
    refine nextRound_fastForwardAll_le ?_ fun x hx => ?_
    · rw [nextRound_of_nextId hn]
      omega
    · obtain ⟨a, ha, r, hr, rfl, _⟩ := hseen x hx
      have := h.ceiling a ha r hr
      omega
  have hfewer : (opponents initial size (p'.fastForwardAll seen).upcoming).card <
      (opponents initial size p.upcoming).card := by
    obtain ⟨x, hx⟩ := List.exists_mem_of_ne_nil seen hsome
    obtain ⟨a, ha, r, hr, rfl, hle⟩ := hseen x hx
    refine card_opponents_lt ha hr hle ((past_fastForwardAll hx p').resolve_left fun hlast => ?_)
    rw [Word.eq_last_iff] at hlast
    omega
  refine ⟨⟨?_, htame, fun q hq => ?_, h.ceiling, by omega⟩, hfewer⟩
  · rw [(hstarted.trans hforward).quorum]
    exact h.size_eq
  · rcases hsent q hq with hid | hq
    · rw [hid]
      exact hpast.follows hforward
    · exact (h.past q hq).follows (hstarted.trans hforward)

end Contends

variable {shows : ω → Assembly σ} {t : Transport ω}

/-- The second phase succeeds, or too few acceptors agreed and the proposer goes past the others. -/
lemma Attends.acceptPhase (ht : Attends view size shows t) (value : ProposalValue)
    (hsize : p.quorum.acceptors.toNat = size) (htame : Tame view slot initial (shows w))
    (hq : .accept slot value ∉ (shows w).sent) (hclear : ∀ q ∈ (shows w).sent, q.id ≤ value.id) :
    (∃ v, (p.acceptPhase t slot value w).1 = .ok v) ∨
    ∃ seen accepted required,
      (p.acceptPhase t slot value w).1 = .error (.roundFailure slot .accept accepted required) ∧
      (p.acceptPhase t slot value w).2.1 = p.fastForwardAll seen ∧
      Heard view size slot initial (.accept slot value) (shows w)
        (shows (p.acceptPhase t slot value w).2.2) seen False := by
  obtain ⟨hdrifts, order, horder, hcomes⟩ := ht.accept slot value w (htame.fresh hq)
  rcases ha : t.accept slot value w with ⟨answers, w₁⟩
  rw [ha] at hdrifts hcomes
  rcases hg : Tally.gather (·.accepted) size p.quorum.accept.toNat Tally.empty w₁ answers
    with ⟨tally, w₂⟩
  have hrequired : p.quorum.accept.toNat ≤ size :=
    hsize ▸ UInt64.le_iff_toNat_le.mp p.quorum.safe.accept_le
  have hheard := htame.heard (q := .accept slot value) rfl hq
    (fun other hother => Std.not_lt.mpr (hclear other hother)) hdrifts horder hcomes
    (·.promised) (fun _ => rfl) (fun x hx => by simp [Call.refusal?, hx]) hrequired hg
  unfold Proposer.acceptPhase
  simp only [ha, hsize, hg, Proposer.afterAccept]
  by_cases hreached : tally.Reached p.quorum.accept.toNat
  · exact .inl ⟨value, by simp only [hreached, if_true]⟩
  · simp only [hreached, if_false]
    exact .inr ⟨_, _, _, rfl, rfl, ⟨hheard.tame, hheard.sent, hheard.initial, fun _ =>
      hheard.refused hreached⟩⟩

/-- A round succeeds, or fails and leaves its proposer with fewer opponents. -/
theorem Contends.propose (h : Contends view size slot initial p (shows w))
    (ht : Attends view size shows t) (own : Payload) :
    (∃ v, (p.propose t slot own w).1 = .ok v) ∨
    (∃ phase accepted required,
      (p.propose t slot own w).1 = .error (.roundFailure slot phase accepted required)) ∧
    Contends view size slot initial (p.propose t slot own w).2.1
      (shows (p.propose t slot own w).2.2) ∧
    (opponents initial size (p.propose t slot own w).2.1.upcoming).card <
      (opponents initial size p.upcoming).card := by
  rcases hn : p.nextId with e | ⟨id, p₁⟩
  · exact absurd (nextId_error_iff.mp hn).1 h.ne_last
  obtain ⟨hid, hstarted, _⟩ := nextId_spec hn
  obtain rfl : id = p.upcoming := hid
  have hsize : p₁.quorum.acceptors.toNat = size := by rw [hstarted.quorum, h.size_eq]
  have hfresh : ∀ q ∈ (shows w).sent, q.id ≠ p.upcoming := fun q hq heq =>
    ProposalId.lt_irrefl p.upcoming (heq ▸ h.lt_upcoming hq)
  have hq : .prepare slot p.upcoming ∉ (shows w).sent := fun hmem => hfresh _ hmem rfl
  obtain ⟨hdrifts, order, horder, hcomes⟩ := ht.prepare slot p.upcoming w (h.tame.fresh hq)
  rcases ha : t.prepare slot p.upcoming w with ⟨answers, w₁⟩
  rw [ha] at hdrifts hcomes
  rcases hg : Tally.gather (·.accepted) size p₁.quorum.prepare.toNat Tally.empty w₁ answers
    with ⟨tally, w₂⟩
  have hrequired : p₁.quorum.prepare.toNat ≤ size :=
    hsize ▸ UInt64.le_iff_toNat_le.mp p₁.quorum.safe.prepare_le
  have hheard := h.tame.heard (q := .prepare slot p.upcoming) rfl hq
    (fun other hother => Std.not_le.mpr (h.lt_upcoming hother)) hdrifts horder hcomes
    (·.id) (fun _ => rfl) (fun x hx => by simp [Call.refusal?, hx]) hrequired hg
  unfold Proposer.propose
  simp only [hn, ha, hsize, hg, afterPrepare]
  by_cases hreached : tally.Reached p₁.quorum.prepare.toNat
  · simp only [hreached, if_true]
    -- the value goes under the id of the round, and no value has gone under it before
    have hforward := follows_fastForwardAll p₁ (tally.refused.map (·.id))
    have hnew : ∀ v : ProposalValue, v.id = p.upcoming → .accept slot v ∉ (shows w₂).sent := by
      intro v hv hmem
      rw [hheard.sent, List.mem_cons] at hmem
      rcases hmem with heq | hmem
      · cases heq
      · exact hfresh _ hmem hv
    have hclear : ∀ q ∈ (shows w₂).sent, q.id ≤ p.upcoming := by
      rw [hheard.sent, List.forall_mem_cons]
      exact ⟨Std.le_refl _, fun q hq => Std.le_of_lt (h.lt_upcoming hq)⟩
    rcases ht.acceptPhase ⟨p.upcoming, slot, resolvePayload tally.agreed own⟩
        (by rw [hforward.quorum, hsize]) hheard.tame (hnew _ rfl) hclear
      with hok | ⟨seen, accepted, required, hfailed, hafter, hheard'⟩
    · exact .inl hok
    · refine .inr ⟨⟨_, _, _, hfailed⟩, ?_⟩
      rw [hafter, ← fastForwardAll_append]
      refine h.again hn ?_ (fun x hx => ?_) hheard'.tame fun q hq => ?_
      · exact List.append_ne_nil_of_right_ne_nil _ (hheard'.refused not_false)
      · rcases List.mem_append.mp hx with hx | hx
        · exact hheard.initial x hx
        · exact hheard'.initial x hx
      · rw [hheard'.sent, hheard.sent, List.mem_cons, List.mem_cons] at hq
        rcases hq with rfl | rfl | hq
        · exact .inl rfl
        · exact .inl rfl
        · exact .inr hq
  · simp only [hreached, if_false]
    refine .inr ⟨⟨_, _, _, rfl⟩, ?_⟩
    refine h.again hn (hheard.refused hreached) hheard.initial hheard.tame fun q hq => ?_
    rw [hheard.sent, List.mem_cons] at hq
    rcases hq with rfl | hq
    · exact .inl rfl
    · exact .inr hq

/-- A proposer gets through before it has failed once for each of its opponents. Induction on their
number. -/
theorem Contends.getsThrough (ht : Attends view size shows t) {n : Nat}
    (h : Contends view size slot initial p (shows w))
    (hn : (opponents initial size p.upcoming).card ≤ n) : GetsThrough t slot n p w := by
  induction n generalizing p w with
  | zero =>
    intro own
    rcases h.propose ht own with hok | ⟨_, _, hfewer⟩
    · exact hok
    · omega
  | succ n ih =>
    intro own
    rcases h.propose ht own with hok | ⟨hfailed, hagain, hfewer⟩
    · exact .inl hok
    · exact .inr ⟨hfailed, ih hagain (by omega)⟩

/-- A proposer that nobody else gets in the way of, over acceptors that have promised anything to
anybody: no more rounds fail before one succeeds than there are acceptors whose promise is not below
its first id, and a retry loop with more attempts than there are acceptors does not give up. -/
theorem lone_proposer_gets_through (ht : Attends view size shows t)
    (hsize : p.quorum.acceptors.toNat = size) (hsent : (shows w).sent = [])
    (hcalls : ∀ a, (shows w).calls a = [])
    (hcounter : p.nextRound.toNat + size + 3 < UInt64.size)
    (hpromised : ∀ a < size, ∀ r ∈ (shows w).records view slot a,
      r.promised.round.toNat + size + 3 < UInt64.size) :
    let m := (opponents ((shows w).records view slot) size ⟨p.nextRound, p.uuid⟩).card
    m ≤ size ∧ GetsThrough t slot m p w ∧
    ∀ (policy : RetryPolicy) (jitter : Jitter) (own : Payload),
      size < policy.maxAttempts.toNat → ∀ cause,
        (policy.run jitter (attempt t slot own) (p, w)).outcome ≠
          .error (.failure (.serviceUnavailable cause)) := by
  intro m
  have hm : m ≤ size := card_opponents_le ..
  have htame : Tame view slot ((shows w).records view slot) (shows w) := by
    refine ⟨fun a c hc => ?_, fun a r hr => .inl ⟨r, hr, rfl⟩⟩
    rw [hcalls a] at hc
    cases hc
  have hpast : ∀ q ∈ (shows w).sent, p.Past q.id := by
    rw [hsent]
    exact nofun
  have hcontends : Contends view size slot ((shows w).records view slot) p (shows w) :=
    ⟨hsize, htame, hpast, hpromised, Nat.lt_of_le_of_lt (by unfold upcoming; omega) hcounter⟩
  have hthrough := hcontends.getsThrough ht (Nat.le_refl m)
  refine ⟨hm, hthrough, fun policy jitter own hattempts cause hgaveUp => ?_⟩
  have hbudget : 1 + m ≤ policy.budget := by
    have := Nat.le_max_left policy.maxAttempts.toNat 1
    unfold RetryPolicy.budget
    omega
  rcases hthrough.ends (RetryPolicy.run_ends (p, w)) hbudget with ⟨v, hv⟩ | ⟨o, ho⟩
  · rw [hv] at hgaveUp
    cases hgaveUp
  · rw [ho] at hgaveUp
    cases hgaveUp

/-- Every acceptor of a list handles a request when its answer is awaited. Induction on the list. -/
lemma comes_direct {α : Type} {call : α → Call} {q : Request} (answer : Acceptor σ → Option α)
    (hanswer : ∀ a, ∃ x, answer a = some x ∧ (a.serve q).1 = call x) {order : List Nat}
    (hnodup : order.Nodup) (hlt : ∀ a ∈ order, a < size) (hasked : q ∈ s.sent)
    (hfirst : ∀ a ∈ order, ∀ c ∈ s.calls a, c.request ≠ q) :
    Comes view size id call order
      (order.map fun a s => (answer (s.acceptors a), s.act a (.request q : Acceptor.Event view)))
      s := by
  induction order generalizing s with
  | nil => exact .done
  | cons a rest ih =>
    obtain ⟨hnew, hnodup⟩ := List.nodup_cons.mp hnodup
    obtain ⟨ha, hrest⟩ := List.forall_mem_cons.mp hlt
    obtain ⟨hfresh, hothers⟩ := List.forall_mem_cons.mp hfirst
    obtain ⟨x, hx, hserve⟩ := hanswer (s.acceptors a)
    have hstep : Drifts view size s (s.act a (.request q)) :=
      .single (.handle a q ha hasked hfresh)
    refine .come (Prod.ext hx rfl) hstep ?_ (ih hnodup hrest hasked fun b hb c hc => ?_)
    · simp [act, Acceptor.meet, hserve]
    · rcases mem_calls_act hc with hc | ⟨rfl, _⟩
      · exact hothers b hb c hc
      · exact absurd hb hnew

/-- Acceptors that keep their records in memory answer always. -/
theorem attends_direct (size : Nat) :
    Attends MemoryStore.view size id (direct MemoryStore.view size) where
  prepare slot id s hq := by
    have hanswer : ∀ a : Acceptor MemoryStore, ∃ x, (a.prepare slot id).1.toOption = some x ∧
        (a.serve (.prepare slot id)).1 = .prepare slot id (.ok x) := by
      intro a
      obtain ⟨x, hx⟩ := a.handle_memory (Reply.toPrepare · id) slot
      exact ⟨x, congrArg Except.toOption hx, congrArg (Call.prepare slot id) hx⟩
    exact ⟨.refl, List.range size, .refl _, comes_direct (fun a => (a.prepare slot id).1.toOption)
      hanswer List.nodup_range (fun _ => List.mem_range.mp) List.mem_cons_self
      fun a _ => hq.calls a⟩
  accept slot value s hq := by
    have hanswer : ∀ a : Acceptor MemoryStore, ∃ x, (a.accept slot value).1.toOption = some x ∧
        (a.serve (.accept slot value)).1 = .accept slot value (.ok x) := by
      intro a
      obtain ⟨x, hx⟩ := a.handle_memory (Reply.toAccept · value) slot
      exact ⟨x, congrArg Except.toOption hx, congrArg (Call.accept slot value) hx⟩
    exact ⟨.refl, List.range size, .refl _, comes_direct (fun a => (a.accept slot value).1.toOption)
      hanswer List.nodup_range (fun _ => List.mem_range.mp) List.mem_cons_self
      fun a _ => hq.calls a⟩
  notify _ _ _ := .refl

/-- Records of three acceptors: one that has promised a high id, one that is new to the slot, and
one that has accepted a value. -/
def contested (a : Nat) : MemoryStore :=
  match a with
  | 0 => ⟨(∅ : SlotMap AcceptorRecord).insert ⟨7⟩ ⟨⟨9, "z"⟩, none⟩⟩
  | 2 => ⟨(∅ : SlotMap AcceptorRecord).insert ⟨7⟩ ⟨⟨4, "b"⟩, some ⟨⟨4, "b"⟩, ⟨7⟩, [1]⟩⟩⟩
  | _ => MemoryStore.empty

theorem lone_proposer_gets_through_contested :
    let p : Proposer := ⟨"m", ⟨3, 2, 2, by decide, by decide, by decide, by decide⟩, 1⟩
    let t : Transport (Assembly MemoryStore) := direct MemoryStore.view 3
    opponents ((init contested).records MemoryStore.view ⟨7⟩) 3 ⟨1, "m"⟩ = {0, 2} ∧
    GetsThrough t ⟨7⟩ 2 p (init contested) ∧
    ∀ jitter own cause,
      (RetryPolicy.default.run jitter (attempt t ⟨7⟩ own) (p, init contested)).outcome ≠
        .error (.failure (.serviceUnavailable cause)) := by
  intro p t
  have hm : opponents ((init contested).records MemoryStore.view ⟨7⟩) 3 ⟨1, "m"⟩ = {0, 2} := by
    decide
  have hlow : ∀ a < 3, ∀ r ∈ (init contested).records MemoryStore.view ⟨7⟩ a,
      r.promised.round.toNat + 3 + 3 < UInt64.size := by decide
  obtain ⟨_, hthrough, hretried⟩ := lone_proposer_gets_through (p := p) (w := init contested)
    (attends_direct 3) rfl rfl (fun _ => rfl) (by decide) hlow
  refine ⟨hm, ?_, fun jitter own => hretried RetryPolicy.default jitter own (by decide)⟩
  have hcard : (opponents ((init contested).records MemoryStore.view ⟨7⟩) 3 ⟨1, "m"⟩).card = 2 := by
    rw [hm]
    rfl
  exact hcard ▸ hthrough

end Assembly
end Synod
