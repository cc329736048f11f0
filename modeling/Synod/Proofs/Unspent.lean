import Synod.Proofs.Overtaking

/-!
# No id is passed over

The ids that a proposer may still hand out are its own from its counter on, but for those of the last
round. A move of the counter takes away from them only what is not above the id that it hands out or
the refusals that it takes up, and so does any run of moves. What is handed out next is the least id
that is left. So refusals cost a proposer no id that it could have used.
-/
namespace Synod.Proposer
variable {p q : Proposer} {id seen : ProposalId}

/-- The ids that a proposer may still hand out. -/
def unspent (p : Proposer) : Set ProposalId :=
  {id | id.tiebreaker = p.uuid ∧ p.nextRound ≤ id.round ∧ id.round < Word.last}

lemma mem_unspent : id ∈ p.unspent ↔ id.tiebreaker = p.uuid ∧
    p.nextRound.toNat ≤ id.round.toNat ∧ id.round.toNat < UInt64.size - 1 := by
  rw [← UInt64.le_iff_toNat_le, ← Word.toNat_last, ← UInt64.lt_iff_toNat_lt]
  exact Iff.rfl

/-- Going past a refusal leaves just those ids that are above it. -/
lemma mem_unspent_fastForward :
    id ∈ (p.fastForward seen).unspent ↔ id ∈ p.unspent ∧ seen < id := by
  rw [mem_unspent, mem_unspent, uuid_fastForward, toNat_nextRound_fastForward,
    ProposalId.lt_iff_firstRound_le]
  constructor
  · rintro ⟨htie, hle, hlast⟩
    refine ⟨⟨htie, by omega, hlast⟩, ?_⟩
    rw [htie]
    omega
  · rintro ⟨⟨htie, hle, hlast⟩, hfirst⟩
    rw [htie] at hfirst
    exact ⟨htie, by omega, hlast⟩

lemma mem_unspent_fastForwardAll {ids : List ProposalId} :
    id ∈ (p.fastForwardAll ids).unspent ↔ id ∈ p.unspent ∧ ∀ seen ∈ ids, seen < id := by
  induction ids generalizing p with
  | nil => simp [fastForwardAll]
  | cons seen rest ih =>
    have hfold : p.fastForwardAll (seen :: rest) = (p.fastForward seen).fastForwardAll rest := rfl
    rw [hfold, ih, mem_unspent_fastForward, List.forall_mem_cons, and_assoc]

/-- Handing out an id leaves just those that are above it. -/
lemma mem_unspent_of_nextId {fresh : ProposalId} (h : p.nextId = .ok (fresh, q)) :
    id ∈ q.unspent ↔ id ∈ p.unspent ∧ fresh < id := by
  obtain ⟨rfl, hfollows, _⟩ := nextId_spec h
  rw [mem_unspent, mem_unspent, hfollows.uuid, nextRound_of_nextId h]
  constructor
  · rintro ⟨htie, hle, hlast⟩
    exact ⟨⟨htie, by omega, hlast⟩, (ProposalId.lt_iff_round_lt htie.symm).mpr hle⟩
  · rintro ⟨⟨htie, _, hlast⟩, hlt⟩
    exact ⟨htie, (ProposalId.lt_iff_round_lt htie.symm).mp hlt, hlast⟩

/-- A move leaves the ids that are above those it hands out and the refusals it takes up. -/
lemma mem_unspent_move {m : Move} : id ∈ (p.move m).2.unspent ↔
    id ∈ p.unspent ∧ (∀ fresh ∈ p.handedOut [m], fresh < id) ∧ ∀ seen ∈ m.seen, seen < id := by
  rcases move_cases p m with ⟨fresh, q, hn, hseen, hmove⟩ | ⟨e, _, hseen, hmove⟩ | hmove
  · simp [handedOut, run, hmove, hseen, mem_unspent_of_nextId hn, Except.toOption]
  · simp [handedOut, run, hmove, hseen, Except.toOption]
  · simp [handedOut, run, hmove, mem_unspent_fastForwardAll]

lemma handedOut_cons (p : Proposer) (m : Move) (rest : List Move) :
    p.handedOut (m :: rest) = p.handedOut [m] ++ (p.move m).2.handedOut rest := by
  simp [handedOut, run]

/-- Moves take away no id that is above all that they hand out and take up. -/
theorem mem_unspent_run {moves : List Move} : id ∈ (p.run moves).2.unspent ↔
    id ∈ p.unspent ∧ (∀ fresh ∈ p.handedOut moves, fresh < id) ∧
      ∀ m ∈ moves, ∀ seen ∈ m.seen, seen < id := by
  induction moves generalizing p with
  | nil => simp [run, handedOut]
  | cons m rest ih =>
    have hrun : (p.run (m :: rest)).2 = ((p.move m).2.run rest).2 := rfl
    rw [hrun, ih, mem_unspent_move, handedOut_cons p m rest, List.forall_mem_append,
      List.forall_mem_cons]
    tauto

lemma isLeast_of_nextId (h : p.nextId = .ok (id, q)) : IsLeast p.unspent id := by
  obtain ⟨rfl, hne, _⟩ := past_of_nextId h
  have hword := p.nextRound.toNat_lt
  have hsize : UInt64.size = 18446744073709551616 := rfl
  rw [ne_eq, Word.eq_last_iff] at hne
  refine ⟨mem_unspent.mpr ⟨rfl, Nat.le_refl _, by dsimp only; omega⟩, fun m hm => ?_⟩
  obtain ⟨htie, hle, _⟩ := mem_unspent.mp hm
  exact (ProposalId.le_iff_round_le htie.symm).mpr hle

lemma unspent_of_last (h : p.nextRound = Word.last) : id ∉ p.unspent := by
  intro hid
  obtain ⟨_, hle, hlt⟩ := mem_unspent.mp hid
  rw [h, Word.toNat_last] at hle
  omega

/-- What is handed out next is the least of the ids that are left. -/
theorem nextId_eq_ok_iff : (∃ q, p.nextId = .ok (id, q)) ↔ IsLeast p.unspent id := by
  refine ⟨fun ⟨q, h⟩ => isLeast_of_nextId h, fun h => ?_⟩
  rcases hn : p.nextId with e | ⟨m, q⟩
  · exact absurd h.1 (unspent_of_last (nextId_error_iff.mp hn).1)
  · rw [ProposalId.eq_of_isLeast h (isLeast_of_nextId hn)]
    exact ⟨q, rfl⟩

theorem nextId_eq_error_iff {e : Failure} :
    p.nextId = .error e ↔ e = .roundsExhausted p.uuid ∧ ¬∃ id, id ∈ p.unspent := by
  constructor
  · intro h
    obtain ⟨hlast, rfl⟩ := nextId_error_iff.mp h
    exact ⟨rfl, fun ⟨_, hid⟩ => unspent_of_last hlast hid⟩
  · rintro ⟨rfl, hnone⟩
    rcases hn : p.nextId with e | ⟨id, q⟩
    · rw [(nextId_error_iff.mp hn).2]
    · exact absurd ⟨id, (isLeast_of_nextId hn).1⟩ hnone

/-- A proposer's own ids that are not below its counter at first, and above all that it hands out and
all refusals that it takes up in the course of some moves. -/
def beyond (p : Proposer) (moves : List Move) : Set ProposalId :=
  {id | id.tiebreaker = p.uuid ∧ p.nextRound ≤ id.round ∧
    (∀ fresh ∈ p.handedOut moves, fresh < id) ∧ ∀ m ∈ moves, ∀ seen ∈ m.seen, seen < id}

lemma mem_unspent_run_iff_beyond {moves : List Move} :
    id ∈ (p.run moves).2.unspent ↔ id ∈ p.beyond moves ∧ id.round < Word.last := by
  rw [mem_unspent_run]
  constructor
  · rintro ⟨⟨htie, hle, hlt⟩, hfresh, hseen⟩
    exact ⟨⟨htie, hle, hfresh, hseen⟩, hlt⟩
  · rintro ⟨⟨htie, hle, hfresh, hseen⟩, hlt⟩
    exact ⟨⟨htie, hle, hlt⟩, hfresh, hseen⟩

/-- After any moves a proposer hands out the least id beyond them, if not of the last round. -/
theorem nextId_run_eq_ok_iff (p : Proposer) (moves : List Move) :
    (∃ q, (p.run moves).2.nextId = .ok (id, q)) ↔
      IsLeast (p.beyond moves) id ∧ id.round < Word.last := by
  rw [nextId_eq_ok_iff]
  constructor
  · rintro ⟨hid, hlower⟩
    obtain ⟨hbeyond, hlt⟩ := mem_unspent_run_iff_beyond.mp hid
    refine ⟨⟨hbeyond, fun m hm => ?_⟩, hlt⟩
    by_cases hm' : m.round < Word.last
    · exact hlower (mem_unspent_run_iff_beyond.mpr ⟨hm, hm'⟩)
    · -- no id of the last round is below another one of its proposer
      have hround := UInt64.le_trans (UInt64.le_of_lt hlt) (UInt64.not_lt.mp hm')
      exact (ProposalId.le_iff_round_le (hbeyond.1.trans hm.1.symm)).mpr
        (UInt64.le_iff_toNat_le.mp hround)
  · rintro ⟨⟨hid, hlower⟩, hlt⟩
    exact ⟨mem_unspent_run_iff_beyond.mpr ⟨hid, hlt⟩,
      fun m hm => hlower (mem_unspent_run_iff_beyond.mp hm).1⟩

/-- It is exhausted just if there is no other id beyond them. -/
theorem nextId_run_eq_error_iff (p : Proposer) (moves : List Move) {e : Failure} :
    (p.run moves).2.nextId = .error e ↔
      e = .roundsExhausted p.uuid ∧ ¬∃ id ∈ p.beyond moves, id.round < Word.last := by
  simp only [nextId_eq_error_iff, (follows_run p moves).uuid, mem_unspent_run_iff_beyond]

lemma beyond_overtake (p : Proposer) (seen : ProposalId) : p.beyond [.overtake seen] =
    {id | id.tiebreaker = p.uuid ∧ p.nextRound ≤ id.round ∧ seen < id} := by
  simp [beyond, handedOut, run, move, Move.seen]

/-- Ids are ordered by their rounds, and within a round by the bytes of their tiebreakers. The next id
of a proposer after another one is the least of its own ids above that one, and absent if there is
none. So having gone past a refusal, a proposer hands out the least of its own ids that is not below
its counter and is above the refusal, and is exhausted if there is none but in the last round. -/
theorem no_id_passed_over :
    (∀ a b : ProposalId, a < b ↔ a.round < b.round ∨
      (a.round = b.round ∧ Text.toBytes a.tiebreaker < Text.toBytes b.tiebreaker)) ∧
    (∀ (after : ProposalId) (tiebreaker : String),
      (∀ n, ProposalId.next after tiebreaker = some n ↔
        IsLeast {id | id.tiebreaker = tiebreaker ∧ after < id} n) ∧
      (ProposalId.next after tiebreaker = none ↔
        ¬∃ id : ProposalId, id.tiebreaker = tiebreaker ∧ after < id)) ∧
    ∀ (p : Proposer) (seen : ProposalId),
      (∀ id, (∃ q, (p.fastForward seen).nextId = .ok (id, q)) ↔
        IsLeast {id | id.tiebreaker = p.uuid ∧ p.nextRound ≤ id.round ∧ seen < id} id ∧
          id.round < Word.last) ∧
      ∀ e, (p.fastForward seen).nextId = .error e ↔ e = .roundsExhausted p.uuid ∧
        ¬∃ id : ProposalId, (id.tiebreaker = p.uuid ∧ p.nextRound ≤ id.round ∧ seen < id) ∧
          id.round < Word.last := by
  refine ⟨fun a b => ProposalId.lt_iff_toBytes_lt, fun after tiebreaker =>
    ⟨fun n => ProposalId.next_eq_some_iff, ProposalId.next_eq_none_iff⟩, fun p seen => ?_⟩
  -- going past one refusal is a run of one move
  rw [← beyond_overtake p seen]
  refine ⟨fun id => nextId_run_eq_ok_iff p [.overtake seen], fun e => ?_⟩
  have herror := nextId_run_eq_error_iff p [.overtake seen] (e := e)
  rwa [beyond_overtake] at herror

/-- A proposer refused for an id of the last round has an id above it, but hands out none. -/
example : ProposalId.next ⟨Word.last, "m"⟩ "z" = some ⟨Word.last, "z"⟩ ∧
    (Proposer.fastForward ⟨"z", .single, 5⟩ ⟨Word.last, "m"⟩).nextId =
      .error (.roundsExhausted "z") := by
  decide

end Synod.Proposer
