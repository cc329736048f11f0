import Mathlib.Data.List.ReduceOption
import Mathlib.Order.Bounds.Basic
import Mathlib.Tactic.Lemma
import Synod.Tally

/-!
# Tallies are decided as early as can be

Counting stops after the first answers that leave no doubt: whatever the others are, the verdict is
the same. So it is the verdict on all the answers, in whatever order they come. A tally that is not
decided yet can still be turned either way by the answers to come, and no other tally can.
-/
namespace Synod.Tally
variable {α : Type} {agrees : α → Bool} {total required : Nat}

/-- How many answers agree. -/
def agreements (agrees : α → Bool) (answers : List (Option α)) : Nat :=
  answers.countP (·.any agrees)

@[simp] theorem agreements_append (agrees : α → Bool) (first rest : List (Option α)) :
    agreements agrees (first ++ rest) = agreements agrees first + agreements agrees rest :=
  List.countP_append

theorem agreements_le (agrees : α → Bool) (answers : List (Option α)) :
    agreements agrees answers ≤ answers.length :=
  List.countP_le_length

theorem agreements_perm {answers other : List (Option α)} (h : answers.Perm other) :
    agreements agrees answers = agreements agrees other :=
  h.countP_eq _

/-- Nothing but the kind of an answer counts. -/
theorem agreements_map (answers : List (Option α)) :
    agreements id (answers.map (Option.map agrees)) = agreements agrees answers := by
  rw [agreements, List.countP_map]
  refine List.countP_congr fun answer _ => ?_
  cases answer <;> simp

/-! ### All answers taken -/

/-- Takes all the answers, decided or not. -/
def addAll (agrees : α → Bool) (t : Tally α) (answers : List (Option α)) : Tally α :=
  answers.foldl (add agrees) t

@[simp] theorem addAll_nil (t : Tally α) : t.addAll agrees [] = t := rfl

@[simp] theorem addAll_cons (t : Tally α) (answer : Option α) (rest : List (Option α)) :
    t.addAll agrees (answer :: rest) = (t.add agrees answer).addAll agrees rest := rfl

theorem agreed_addAll (t : Tally α) (answers : List (Option α)) :
    (t.addAll agrees answers).agreed = t.agreed ++ answers.reduceOption.filter agrees := by
  induction answers generalizing t with
  | nil => simp
  | cons answer rest ih => cases answer <;> simp [ih, ← List.filter_append]

theorem refused_addAll (t : Tally α) (answers : List (Option α)) :
    (t.addAll agrees answers).refused =
      t.refused ++ answers.reduceOption.filter fun a => !agrees a := by
  induction answers generalizing t with
  | nil => simp
  | cons answer rest ih => cases answer <;> simp [ih, ← List.filter_append]

theorem unreachable_addAll (t : Tally α) (answers : List (Option α)) :
    (t.addAll agrees answers).unreachable = t.unreachable + answers.countP Option.isNone := by
  induction answers generalizing t with
  | nil => simp
  | cons answer rest ih =>
    cases answer with
    | none =>
      simp only [addAll_cons, ih, unreachable_add, Option.isNone_none, List.countP_cons, if_true]
      omega
    | some a => simp [ih]

@[simp] theorem count_addAll (agrees : α → Bool) (t : Tally α) (answers : List (Option α)) :
    (t.addAll agrees answers).count = t.count + answers.length := by
  induction answers generalizing t with
  | nil => rfl
  | cons answer rest ih =>
    rw [addAll_cons, ih, count_add, List.length_cons]
    omega

theorem length_agreed_addAll (agrees : α → Bool) (t : Tally α) (answers : List (Option α)) :
    (t.addAll agrees answers).agreed.length = t.agreed.length + agreements agrees answers := by
  induction answers generalizing t with
  | nil => rfl
  | cons answer rest ih =>
    rw [addAll_cons, ih, agreed_add, List.length_append, agreements, agreements, List.countP_cons]
    cases answer with
    | none => simp
    | some a =>
      by_cases h : agrees a
      · simp only [h, Option.toList_some, List.filter_cons_of_pos, List.filter_nil,
          List.length_singleton, Option.any_some, if_true]
        omega
      · simp [h]

/-- What is undecided after some answers, in numbers. -/
theorem undecided_addAll (answers : List (Option α)) :
    ((empty : Tally α).addAll agrees answers).Undecided total required ↔
      agreements agrees answers < required ∧
        answers.length - agreements agrees answers ≤ total - required := by
  have hagreed := length_agreed_addAll agrees empty answers
  have hcount := count_addAll agrees empty answers
  simp only [empty, List.length_nil, count, against] at hagreed hcount
  simp only [Undecided, against, empty]
  omega

/-! ### Where the loop stops -/

/-- The tally stays undecided before `k` answers, and `k` answers decide it or are all there are. -/
structure Stops (agrees : α → Bool) (total required : Nat) (t : Tally α)
    (answers : List (Option α)) (k : Nat) : Prop where
  le : k ≤ answers.length
  undecided : ∀ j < k, (t.addAll agrees (answers.take j)).Undecided total required
  decided : k < answers.length → ¬(t.addAll agrees (answers.take k)).Undecided total required

/-- Answers that are noted when they are awaited. -/
def noting (answers : List (Option α)) : List (List (Option α) → Option α × List (Option α)) :=
  answers.map fun answer noted => (answer, noted ++ [answer])

/-- Induction on the answers. -/
lemma exists_stop (agrees : α → Bool) (total required : Nat) (t : Tally α)
    (answers noted : List (Option α)) : ∃ k, Stops agrees total required t answers k ∧
      take agrees total required t answers = t.addAll agrees (answers.take k) ∧
      gather agrees total required t noted (noting answers) =
        (t.addAll agrees (answers.take k), noted ++ answers.take k) := by
  induction answers generalizing t noted with
  | nil => exact ⟨0, ⟨Nat.le_refl 0, by simp, by simp⟩, rfl, by simp [noting, gather]⟩
  | cons answer rest ih =>
    by_cases h : t.Undecided total required
    · obtain ⟨k, hstops, htake, hgather⟩ := ih (t.add agrees answer) (noted ++ [answer])
      refine ⟨k + 1, ⟨Nat.succ_le_succ hstops.le, fun j hj => ?_, fun hk => ?_⟩, ?_, ?_⟩
      · cases j with
        | zero => exact h
        | succ j => exact hstops.undecided j (Nat.lt_of_succ_lt_succ hj)
      · exact hstops.decided (Nat.lt_of_succ_lt_succ hk)
      · rw [take, if_pos h, htake, List.take_succ_cons, addAll_cons]
      · rw [noting, List.map_cons, gather, if_pos h, List.take_succ_cons, addAll_cons]
        simpa [noting] using hgather
    · refine ⟨0, ⟨Nat.zero_le _, by simp, fun _ => h⟩, ?_, ?_⟩
      · rw [take, if_neg h, List.take_zero, addAll_nil]
      · rw [noting, List.map_cons, gather, if_neg h]
        simp

/-- The number of answers taken is where the loop stops. -/
theorem collect_stops (agrees : α → Bool) (total required : Nat) (answers : List (Option α)) :
    let t := collect agrees total required answers
    Stops agrees total required empty answers t.count ∧
      t = empty.addAll agrees (answers.take t.count) ∧
      gather agrees total required empty [] (noting answers) = (t, answers.take t.count) := by
  obtain ⟨k, hstops, htake, hgather⟩ := exists_stop agrees total required empty answers []
  have hcount : (collect agrees total required answers).count = k := by
    rw [collect, htake, count_addAll, count_empty, List.length_take, Nat.zero_add]
    exact Nat.min_eq_left hstops.le
  dsimp only
  rw [hcount]
  exact ⟨hstops, htake, by rw [hgather, collect, htake, List.nil_append]⟩

theorem length_agreed_collect (agrees : α → Bool) (total required : Nat)
    (answers : List (Option α)) :
    (collect agrees total required answers).agreed.length =
      agreements agrees (answers.take (collect agrees total required answers).count) := by
  obtain ⟨-, htally, -⟩ := collect_stops agrees total required answers
  conv_lhs => rw [htally]
  rw [length_agreed_addAll, empty, List.length_nil, Nat.zero_add]

variable {answers : List (Option α)}

/-- The verdict on the answers taken is the verdict on all of them. -/
theorem reached_collect (h : required ≤ total) (hlen : answers.length ≤ total) :
    (collect agrees total required answers).Reached required ↔
      required ≤ agreements agrees answers := by
  have hstops := (collect_stops agrees total required answers).1
  rw [Reached, length_agreed_collect]
  generalize (collect agrees total required answers).count = k at hstops ⊢
  have hsplit := agreements_append agrees (answers.take k) (answers.drop k)
  have htake := agreements_le agrees (answers.take k)
  have hdrop := agreements_le agrees (answers.drop k)
  have hdecided := hstops.decided
  rw [List.take_append_drop] at hsplit
  rw [undecided_addAll] at hdecided
  rw [List.length_take, Nat.min_eq_left hstops.le] at htake hdecided
  rw [List.length_drop] at hdrop
  omega

/-- Agreement is taken only while it is missing. -/
theorem length_agreed_collect_le (answers : List (Option α)) :
    (collect agrees total required answers).agreed.length ≤ required := by
  have hstops := (collect_stops agrees total required answers).1
  rw [length_agreed_collect]
  generalize (collect agrees total required answers).count = k at hstops ⊢
  cases k with
  | zero => simp [agreements]
  | succ k =>
    have hbefore := (undecided_addAll _).mp (hstops.undecided k (Nat.lt_succ_self k))
    have hone := agreements_le agrees answers[k]?.toList
    have hlength : answers[k]?.toList.length ≤ 1 := by cases answers[k]? <;> simp
    rw [List.take_add_one, agreements_append]
    omega

/-! ### What the answers taken settle -/

/-- Whatever the answers to come are, the verdict on all `total` of them is the same. Only the kind of
an answer counts, so the answers are given by their kinds: agreement, refusal, no completion. -/
def Settled (total required : Nat) (first : List (Option Bool)) : Prop :=
  ∀ rest rest', first.length + rest.length = total → first.length + rest'.length = total →
    ((collect id total required (first ++ rest)).Reached required ↔
      (collect id total required (first ++ rest')).Reached required)

theorem settled_iff (h : required ≤ total) (hlen : answers.length ≤ total) :
    Settled total required (answers.map (Option.map agrees)) ↔
      ¬((empty : Tally α).addAll agrees answers).Undecided total required := by
  have hle := agreements_le agrees answers
  rw [undecided_addAll]
  constructor
  · rintro hsettled ⟨hfew, hslack⟩
    -- If the rest agreed there would be enough agreement, if it refused there would be too little.
    let left := total - answers.length
    have hall : agreements id (List.replicate left (some true)) = left := by
      simp [agreements, List.countP_replicate]
    have hnone : agreements id (List.replicate left (some false)) = 0 := by
      simp [agreements, List.countP_replicate]
    have hsame := hsettled (List.replicate left (some true)) (List.replicate left (some false))
      (by simp [left]; omega) (by simp [left]; omega)
    rw [reached_collect h (by simp [left]; omega), reached_collect h (by simp [left]; omega),
      agreements_append, agreements_append, agreements_map, hall, hnone] at hsame
    omega
  · -- Enough agreement stays enough, and what is missing after too many refusals stays missing.
    intro hdecided rest rest' hrest hrest'
    have hall := agreements_le id rest
    have hall' := agreements_le id rest'
    rw [List.length_map] at hrest hrest'
    rw [reached_collect h (by simp; omega), reached_collect h (by simp; omega),
      agreements_append, agreements_append, agreements_map]
    omega

/-- The answers taken are the first that settle the verdict. -/
lemma isLeast_count (h : required ≤ total) (hlen : answers.length = total) :
    IsLeast {k | Settled total required ((answers.take k).map (Option.map agrees))}
      (collect agrees total required answers).count := by
  have hstops := (collect_stops agrees total required answers).1
  generalize (collect agrees total required answers).count = k at hstops
  have hshort : ∀ j, (answers.take j).length ≤ total := fun j => by
    rw [List.length_take]
    omega
  constructor
  · refine (settled_iff h (hshort k)).mpr ?_
    rcases Nat.lt_or_eq_of_le hstops.le with hk | hk
    · exact hstops.decided hk
    · have hle := agreements_le agrees answers
      rw [hk, List.take_length, undecided_addAll]
      omega
  · intro j hj
    by_contra hlt
    exact (settled_iff h (hshort j)).mp hj (hstops.undecided j (Nat.lt_of_not_le hlt))

/-- The verdict on at most `total` answers is that of all of them, in whatever order they come. With
exactly `total` of them, as many are taken as it takes to settle the verdict, and no answer after
that is awaited. What is counted are the answers taken, in order, with no more agreement than
required. -/
theorem collect_decides (agrees : α → Bool) (h : required ≤ total)
    (hlen : answers.length ≤ total) :
    let t := collect agrees total required answers
    let taken := answers.take t.count
    (t.Reached required ↔ required ≤ agreements agrees answers) ∧
    (∀ other, other.Perm answers →
      ((collect agrees total required other).Reached required ↔ t.Reached required)) ∧
    (t.count ≤ answers.length ∧
      gather agrees total required empty [] (noting answers) = (t, taken)) ∧
    (answers.length = total →
      IsLeast {k | Settled total required ((answers.take k).map (Option.map agrees))} t.count) ∧
    t.agreed = taken.reduceOption.filter agrees ∧
    t.refused = taken.reduceOption.filter (fun a => !agrees a) ∧
    t.unreachable = taken.countP Option.isNone ∧ t.agreed.length ≤ required := by
  intro t taken
  obtain ⟨hstops, htally, hgather⟩ := collect_stops agrees total required answers
  have htaken : t = empty.addAll agrees taken := htally
  refine ⟨reached_collect h hlen, fun other hother => ?_, ⟨hstops.le, hgather⟩,
    fun htotal => isLeast_count h htotal, ?_, ?_, ?_, length_agreed_collect_le answers⟩
  · rw [reached_collect h hlen, reached_collect h (hother.length_eq ▸ hlen),
      agreements_perm hother]
  · rw [htaken, agreed_addAll, empty, List.nil_append]
  · rw [htaken, refused_addAll, empty, List.nil_append]
  · rw [htaken, unreachable_addAll, empty, Nat.zero_add]

/-- Three of four have to agree. A refusal and a call that did not complete settle that they do not,
though all the others agree. -/
theorem collect_decides_impossible :
    let answers := [some false, none, some true, some true]
    3 ≤ 4 ∧ answers.length = 4 ∧ ¬(collect id 4 3 answers).Reached 3 ∧
      IsLeast {k | Settled 4 3 ((answers.take k).map (Option.map id))} 2 ∧
      gather id 4 3 empty [] (noting answers) = (⟨[], [false], 1⟩, [some false, none]) := by
  intro answers
  obtain ⟨hverdict, -, ⟨-, hgather⟩, hleast, -⟩ :=
    collect_decides id (by decide : 3 ≤ 4) (by decide : answers.length ≤ 4)
  exact ⟨by decide, rfl, by rw [hverdict]; decide, hleast rfl, hgather⟩

end Synod.Tally
