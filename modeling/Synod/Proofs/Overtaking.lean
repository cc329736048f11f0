import Mathlib.Tactic.Lemma
import Synod.Proofs.Assembly
import Synod.Proofs.Rounds
import Synod.Proofs.Successors

/-!
# Ids overtake refusals

All rounds of a proposer share one counter, and their steps come in any order. A round moves the
counter when it takes its id, and when it takes up the refusals of a phase, be it one at a time,
between the steps of other rounds. `Move` lists these steps. Whatever the moves, ids only go up, and
an id handed out after a refusal is above the id that the refusal names.
-/
namespace Synod

namespace Proposer

/-- What a round does with the counter of its proposer. -/
inductive Move
  /-- The round takes its id. -/
  | begin
  /-- One refusal is taken up. -/
  | overtake (seen : ProposalId)
  | closePrepare (slot : Slot) (id : ProposalId) (own : Payload) (tally : Tally Promise)
  | closeAccept (slot : Slot) (value : ProposalValue) (tally : Tally Acceptance)

/-- The ids that the refusals name which a move takes up. A phase takes up all that it has heard,
whether it has reached its quorum or not. -/
def Move.seen : Move → List ProposalId
  | begin => []
  | overtake seen => [seen]
  | closePrepare _ _ _ tally => tally.refused.map (·.id)
  | closeAccept _ _ tally => tally.refused.map (·.promised)

/-- The answer to a round that asks for its id, and the proposer after the move. -/
def move (p : Proposer) : Move → List (Except Failure ProposalId) × Proposer
  | .begin =>
    match p.nextId with
    | .ok (id, q) => ([.ok id], q)
    | .error e => ([.error e], p)
  | .overtake seen => ([], p.fastForward seen)
  | .closePrepare slot id own tally => ([], (p.afterPrepare slot id own tally).2)
  | .closeAccept slot value tally => ([], (p.afterAccept slot value tally).2)

def run (p : Proposer) : List Move → List (Except Failure ProposalId) × Proposer
  | [] => ([], p)
  | m :: rest => ((p.move m).1 ++ ((p.move m).2.run rest).1, ((p.move m).2.run rest).2)

/-- The ids that are handed out in the course of some moves, in this order. -/
def handedOut (p : Proposer) (moves : List Move) : List ProposalId :=
  (p.run moves).1.filterMap Except.toOption

theorem run_append (p : Proposer) (before after : List Move) :
    p.run (before ++ after) =
      ((p.run before).1 ++ ((p.run before).2.run after).1, ((p.run before).2.run after).2) := by
  induction before generalizing p with
  | nil => rfl
  | cons m rest ih => simp [run, ih]

/-- A move takes an id, finds that there is none left, or goes past refusals. -/
theorem move_cases (p : Proposer) (m : Move) :
    (∃ id q, p.nextId = .ok (id, q) ∧ m.seen = [] ∧ p.move m = ([.ok id], q)) ∨
    (∃ e, p.nextId = .error e ∧ m.seen = [] ∧ p.move m = ([.error e], p)) ∨
    p.move m = ([], p.fastForwardAll m.seen) := by
  cases m with
  | begin =>
    rcases hn : p.nextId with e | ⟨id, q⟩
    · exact .inr (.inl ⟨e, rfl, rfl, by simp [move, hn]⟩)
    · exact .inl ⟨id, q, rfl, rfl, by simp [move, hn]⟩
  | overtake seen => exact .inr (.inr rfl)
  | closePrepare slot id own tally =>
    right; right
    unfold move afterPrepare
    dsimp only
    split <;> rfl
  | closeAccept slot value tally =>
    right; right
    unfold move afterAccept
    dsimp only
    split <;> rfl

lemma follows_move (p : Proposer) (m : Move) : Follows p (p.move m).2 := by
  rcases move_cases p m with ⟨id, q, hn, _, hmove⟩ | ⟨e, _, _, hmove⟩ | hmove
  · rw [hmove]
    exact (nextId_spec hn).2.1
  · rw [hmove]
    exact Follows.refl p
  · rw [hmove]
    exact follows_fastForwardAll p m.seen

theorem follows_run (p : Proposer) (moves : List Move) : Follows p (p.run moves).2 := by
  induction moves generalizing p with
  | nil => exact Follows.refl p
  | cons m rest ih => exact (follows_move p m).trans (ih (p.move m).2)

/-- What the counter of the proposer has left behind: the id itself is below the next one, unless
no id is left to hand out. -/
def Past (p : Proposer) (seen : ProposalId) : Prop :=
  p.nextRound = Word.last ∨ seen < ⟨p.nextRound, p.uuid⟩

lemma nextRound_eq_last_of_le {p q : Proposer} (hp : p.nextRound = Word.last)
    (hle : p.nextRound ≤ q.nextRound) : q.nextRound = Word.last := by
  rw [hp, UInt64.le_iff_toNat_le, Word.toNat_last] at hle
  have hq := q.nextRound.toNat_lt
  have hsize : UInt64.size = 18446744073709551616 := rfl
  rw [Word.eq_last_iff]
  omega

lemma Past.follows {p q : Proposer} {seen : ProposalId} (h : p.Past seen) (hf : Follows p q) :
    q.Past seen := by
  rcases h with hlast | hlt
  · exact .inl (nextRound_eq_last_of_le hlast hf.nextRound)
  · right
    rw [hf.uuid]
    rcases UInt64.lt_or_eq_of_le hf.nextRound with hround | hround
    · exact ProposalId.lt_trans hlt (.inl hround)
    · rwa [← hround]

lemma past_fastForward (p : Proposer) (seen : ProposalId) : (p.fastForward seen).Past seen := by
  have hround := toNat_nextRound_fastForward p seen
  by_cases hlast : (p.fastForward seen).nextRound = Word.last
  · exact .inl hlast
  · refine .inr (ProposalId.lt_iff_firstRound_le.mpr ?_)
    have hword := (p.fastForward seen).nextRound.toNat_lt
    have hsize : UInt64.size = 18446744073709551616 := rfl
    rw [Word.eq_last_iff] at hlast
    dsimp only [uuid_fastForward]
    omega

lemma past_fastForwardAll {ids : List ProposalId} {seen : ProposalId} (h : seen ∈ ids)
    (p : Proposer) : (p.fastForwardAll ids).Past seen := by
  induction ids generalizing p with
  | nil => cases h
  | cons id rest ih =>
    rcases List.mem_cons.mp h with rfl | h
    · exact (past_fastForward p seen).follows (follows_fastForwardAll _ rest)
    · exact ih h (p.fastForward id)

/-- A move goes past every refusal that it takes up. -/
lemma past_move {m : Move} {seen : ProposalId} (h : seen ∈ m.seen) (p : Proposer) :
    (p.move m).2.Past seen := by
  rcases move_cases p m with ⟨_, _, _, hnone, _⟩ | ⟨_, _, hnone, _⟩ | hmove
  · rw [hnone] at h
    cases h
  · rw [hnone] at h
    cases h
  · rw [hmove]
    exact past_fastForwardAll h p

theorem past_run {moves : List Move} {m : Move} (hm : m ∈ moves) {seen : ProposalId}
    (h : seen ∈ m.seen) (p : Proposer) : (p.run moves).2.Past seen := by
  induction moves generalizing p with
  | nil => cases hm
  | cons first rest ih =>
    rcases List.mem_cons.mp hm with rfl | hm
    · exact (past_move h p).follows (follows_run _ rest)
    · exact ih hm (p.move first).2

/-- A proposer hands out the id that its counter stands for, and is past it then. The counter does
not stand at the last round. -/
lemma past_of_nextId {p q : Proposer} {id : ProposalId} (h : p.nextId = .ok (id, q)) :
    id = ⟨p.nextRound, p.uuid⟩ ∧ p.nextRound ≠ Word.last ∧ q.Past id := by
  obtain ⟨rfl, hfollows, hlt⟩ := nextId_spec h
  refine ⟨rfl, fun hlast => ?_, ?_⟩
  · have hq := nextRound_eq_last_of_le hlast hfollows.nextRound
    rw [hq, hlast] at hlt
    exact UInt64.lt_irrefl _ hlt
  · right
    rw [hfollows.uuid]
    exact .inl hlt

theorem nextId_error_iff {p : Proposer} {e : Failure} :
    p.nextId = .error e ↔ p.nextRound = Word.last ∧ e = .roundsExhausted p.uuid := by
  unfold nextId Word.next?
  by_cases hlast : p.nextRound = Word.last
  · simp [hlast, eq_comm]
  · simp [hlast]

/-- Every answer is one of the proposer as it is at some point in the course of the moves. -/
theorem exists_of_mem_run {p : Proposer} {moves : List Move} {answer : Except Failure ProposalId}
    (h : answer ∈ (p.run moves).1) :
    ∃ q, Follows p q ∧ Follows q (p.run moves).2 ∧ answer = q.nextId.map (·.1) := by
  induction moves generalizing p with
  | nil => cases h
  | cons m rest ih =>
    have hmoved := follows_move p m
    rcases List.mem_append.mp h with h | h
    · refine ⟨p, Follows.refl p, hmoved.trans (follows_run _ rest), ?_⟩
      rcases move_cases p m with ⟨id, q, hn, _, hmove⟩ | ⟨e, hn, _, hmove⟩ | hmove
      · rw [hmove] at h
        rw [hn, List.mem_singleton.mp h]
        rfl
      · rw [hmove] at h
        rw [hn, List.mem_singleton.mp h]
        rfl
      · rw [hmove] at h
        cases h
    · obtain ⟨q, hbefore, hafter, hanswer⟩ := ih h
      exact ⟨q, hmoved.trans hbefore, hafter, hanswer⟩

/-- Ids handed out are the proposer's own, not of the last round, and above all that the proposer
was past to begin with. -/
theorem of_mem_handedOut {p : Proposer} {moves : List Move} {id : ProposalId}
    (h : id ∈ p.handedOut moves) :
    id.tiebreaker = p.uuid ∧ id.round ≠ Word.last ∧ ∀ seen, p.Past seen → seen < id := by
  obtain ⟨answer, hanswer, hid⟩ := List.mem_filterMap.mp h
  obtain ⟨q, hfollows, _, rfl⟩ := exists_of_mem_run hanswer
  rcases hn : q.nextId with e | ⟨id', q'⟩
  · rw [hn] at hid
    cases hid
  · rw [hn] at hid
    cases hid
    obtain ⟨rfl, hne, _⟩ := past_of_nextId hn
    exact ⟨hfollows.uuid, hne, fun seen hseen => (hseen.follows hfollows).resolve_left hne⟩

theorem pairwise_handedOut (p : Proposer) (moves : List Move) :
    (p.handedOut moves).Pairwise (· < ·) := by
  induction moves generalizing p with
  | nil => exact .nil
  | cons m rest ih =>
    have hrest := ih (p.move m).2
    rcases move_cases p m with ⟨id, q, hn, _, hmove⟩ | ⟨e, _, _, hmove⟩ | hmove
    · obtain ⟨_, _, hpast⟩ := past_of_nextId hn
      have hsplit : p.handedOut (m :: rest) = id :: (p.move m).2.handedOut rest := by
        simp [handedOut, run, hmove, Except.toOption]
      rw [hsplit, List.pairwise_cons]
      refine ⟨fun later hlater => ?_, hrest⟩
      rw [hmove] at hlater
      exact (of_mem_handedOut hlater).2.2 id hpast
    · simpa [handedOut, run, hmove, List.filterMap_cons, Except.toOption] using hrest
    · simpa [handedOut, run, hmove] using hrest

/-- Once a proposer has no id left, it never has one again. -/
theorem exhausted_of_mem_run {p : Proposer} {before after : List Move} {e : Failure}
    (h : .error e ∈ (p.run before).1) {answer : Except Failure ProposalId}
    (ha : answer ∈ ((p.run before).2.run after).1) : answer = .error (.roundsExhausted p.uuid) := by
  obtain ⟨q, hpq, hq, hspent⟩ := exists_of_mem_run h
  obtain ⟨r, hr, _, rfl⟩ := exists_of_mem_run ha
  have hqr := hq.trans hr
  rcases hn : q.nextId with e' | next
  · have hlast := nextRound_eq_last_of_le (nextId_error_iff.mp hn).1 hqr.nextRound
    have hnone : r.nextId = .error (.roundsExhausted r.uuid) := nextId_error_iff.mpr ⟨hlast, rfl⟩
    rw [hnone, (hpq.trans hqr).uuid]
    rfl
  · rw [hn] at hspent
    cases hspent

/-- However the rounds of a proposer interleave, the ids that it hands out go up, and overtake every
refusal that any of them has taken up by then. The last round is not handed out, the counter never
goes back, and it stays exhausted once it is. -/
theorem ids_overtake_refusals (p : Proposer) (before after : List Move) :
    (p.handedOut (before ++ after)).Pairwise (· < ·) ∧
    (∀ id ∈ p.handedOut (before ++ after), id.tiebreaker = p.uuid ∧ id.round ≠ Word.last) ∧
    (∀ m ∈ before, ∀ seen ∈ m.seen, ∀ id ∈ (p.run before).2.handedOut after, seen < id) ∧
    (p.run before).2.nextRound ≤ (p.run (before ++ after)).2.nextRound ∧
    ∀ e, .error e ∈ (p.run before).1 →
      ∀ answer ∈ ((p.run before).2.run after).1, answer = .error (.roundsExhausted p.uuid) := by
  refine ⟨pairwise_handedOut p _, fun id hid => ?_, fun m hm seen hseen id hid => ?_, ?_, ?_⟩
  · obtain ⟨htie, hround, _⟩ := of_mem_handedOut hid
    exact ⟨htie, hround⟩
  · exact (of_mem_handedOut hid).2.2 seen (past_run hm hseen p)
  · rw [run_append]
    exact (follows_run _ after).nextRound
  · intro e he answer hanswer
    exact exhausted_of_mem_run he hanswer

/-- A proposer whose name decides a tie: refused for a name below its own, it goes on in the very
round of the refusal. Refused in the last round, it hands out nothing any more. -/
theorem ids_overtake_refusals_at_ties :
    let p : Proposer := ⟨"m", .single, 5⟩
    let before : List Move :=
      [.begin, .closePrepare ⟨1⟩ ⟨5, "m"⟩ [] ⟨[], [Promise.refuse ⟨7, "a"⟩], 0⟩]
    let after : List Move := [.begin, .overtake ⟨Word.last, "a"⟩, .begin]
    (p.run (before ++ after)).1 =
        [.ok ⟨5, "m"⟩, .ok ⟨7, "m"⟩, .error (.roundsExhausted "m")] ∧
      (⟨7, "a"⟩ : ProposalId) < ⟨7, "m"⟩ := by
  intro p before after
  refine ⟨by decide, ?_⟩
  have hseen : (⟨7, "a"⟩ : ProposalId) ∈ Move.seen (.closePrepare ⟨1⟩ ⟨5, "m"⟩ []
      ⟨[], [Promise.refuse ⟨7, "a"⟩], 0⟩) := by decide
  exact (ids_overtake_refusals p before after).2.2.1 _ (by simp [before]) _ hseen _ (by decide)

end Proposer
end Synod
