import Synod.Proofs.Attempts
import Synod.Proofs.Commits
import Synod.Proofs.Rounds

/-!
# What a node has seen

A node sees the commit timestamp of a transaction when a get finds it out, or when a put learns
what was agreed, be it its own commit or another one. The first one seen goes into the node's table
and stands there: whatever the acceptors and the learner say later, gets answer with it, and ask
nobody. Every call is taken apart into reports here, the gets of a `getMany` one by one, so that
"first" has a meaning inside of a call as well.
-/
namespace Synod.CommitService

variable {ω : Type}

/-- How a learner is asked. -/
abbrev Lookup (ω : Type) := Slot → ω → Except Failure (Option ProposalValue) × ω

/-- A call, and what it goes to. -/
inductive Errand (ω : Type)
  | get (lookup : Lookup ω) (start : UInt64)
  | getMany (lookup : Lookup ω) (starts : List UInt64)
  | put (transport : Transport ω) (jitter : Jitter) (start commit : UInt64)

/-- What became of a get or of a put. -/
inductive Report
  | get (start : UInt64) (answer : Except Failure (Option UInt64))
  | put (start commit : UInt64) (outcome : Except Fault Unit)

namespace Report

def start : Report → UInt64
  | get start _ => start
  | put start _ _ => start

/-- The commit timestamp that a report tells of. -/
def seen? : Report → Option UInt64
  | get _ (.ok found) => found
  | put _ commit (.ok ()) => some commit
  | put _ _ (.error (.failure (.keyAlreadyExists _ agreed))) => some agreed
  | _ => none

end Report

/-- The commit timestamp that was seen first for a start timestamp. -/
def firstSeen (start : UInt64) (reports : List Report) : Option UInt64 :=
  (reports.filter (·.start = start)).findSome? Report.seen?

/-- The gets that a `getMany` makes, one after another until one fails. -/
def gets (lookup : Lookup ω) : (starts : List UInt64) → CommitService → ω →
    List (UInt64 × Except Failure (Option UInt64)) × CommitService × ω
  | [], s, w => ([], s, w)
  | start :: rest, s, w =>
    match s.get lookup start w with
    | (.error e, s, w) => ([(start, .error e)], s, w)
    | (.ok found, s, w) =>
      ((start, .ok found) :: (gets lookup rest s w).1, (gets lookup rest s w).2)

/-- What the answers to several gets come to, added to what was found before. -/
def collect : (found : SlotMap UInt64) → List (UInt64 × Except Failure (Option UInt64)) →
    Except Failure (SlotMap UInt64)
  | found, [] => .ok found
  | _, (_, .error e) :: _ => .error e
  | found, (_, .ok none) :: rest => collect found rest
  | found, (start, .ok (some commit)) :: rest => collect (found.insert ⟨start⟩ commit) rest

/-- One call: what is reported, and the node after it. -/
def run (s : CommitService) (w : ω) : Errand ω → List Report × CommitService
  | .get lookup start => ([.get start (s.get lookup start w).1], (s.get lookup start w).2.1)
  | .getMany lookup starts =>
    ((s.gets lookup starts w).1.map fun (start, answer) => .get start answer,
      (s.getMany lookup starts w).2.1)
  | .put transport jitter start commit =>
    ([.put start commit (s.put transport jitter start commit w).1],
      (s.put transport jitter start commit w).2.1)

/-- Calls one after another, each in the world as it finds it. -/
def runAll (s : CommitService) : List (Errand ω × ω) → List Report × CommitService
  | [] => ([], s)
  | (e, w) :: rest => ((s.run w e).1 ++ ((s.run w e).2.runAll rest).1, ((s.run w e).2.runAll rest).2)

/-- The table after a report. -/
def note (s : CommitService) (r : Report) : SlotMap UInt64 :=
  match r.seen? with
  | none => s.commits
  | some commit => (s.remember r.start commit).commits

lemma note_of_unseen {s : CommitService} {r : Report} (h : r.seen? = none) :
    s.note r = s.commits := by
  simp [note, h]

lemma get?_note (s : CommitService) (r : Report) (start : UInt64) :
    (s.note r).get? ⟨start⟩ =
      (s.commits.get? ⟨start⟩).or (if r.start = start then r.seen? else none) := by
  unfold note
  cases hseen : r.seen? with
  | none => simp
  | some commit =>
    rw [get?_remember]
    simp only [Slot.mk.injEq]

lemma get?_note_of_ne {s : CommitService} {r : Report} {start : UInt64} (h : r.start ≠ start) :
    (s.note r).get? ⟨start⟩ = s.commits.get? ⟨start⟩ := by
  rw [get?_note, if_neg h, Option.or_none]

/-- A commit timestamp that is remembered already is not written again. -/
lemma remember_of_held {s : CommitService} {start held : UInt64}
    (h : s.commits.get? ⟨start⟩ = some held) (commit : UInt64) : s.remember start commit = s := by
  simp [remember, h]

/-- What is remembered is answered, and nobody is asked. -/
lemma get_of_held {s : CommitService} {start commit : UInt64}
    (h : s.commits.get? ⟨start⟩ = some commit) (lookup : Lookup ω) (w : ω) :
    s.get lookup start w = (.ok (some commit), s, w) := by
  simp [get, h]

section Calls
variable {s s' : CommitService} {w w' : ω} {start commit : UInt64}

lemma commits_get {lookup : Lookup ω} {answer : Except Failure (Option UInt64)}
    (h : s.get lookup start w = (answer, s', w')) : s'.commits = s.note (.get start answer) := by
  cases hheld : s.commits.get? ⟨start⟩ with
  | some commit =>
    rw [get_of_held hheld, Prod.mk.injEq, Prod.mk.injEq] at h
    obtain ⟨rfl, rfl, rfl⟩ := h
    exact (congrArg commits (remember_of_held hheld commit)).symm
  | none =>
    unfold get at h
    simp only [hheld] at h
    split at h
    · cases h
      rfl
    · cases h
      rfl
    · split at h <;> cases h <;> rfl

/-- Rounds for a put do not touch the table. -/
lemma commits_agree {t : Transport ω} {jitter : Jitter} {outcome : Except Fault Payload}
    (h : s.agree t jitter start commit w = (outcome, s', w')) : s'.commits = s.commits := by
  cases h
  rfl

lemma error_of_map {α β : Type} {f : α → β} {outcome : Except Fault α} {e : Fault}
    (h : outcome.map f = .error e) : outcome = .error e := by
  cases outcome with
  | error e' => exact congrArg Except.error (Except.error.inj h)
  | ok a => cases h

/-- A failure that rounds end with is one of giving up, or the failure of one round. -/
lemma agree_failure {t : Transport ω} {jitter : Jitter} {e : Failure}
    (h : s.agree t jitter start commit w = (.error (.failure e), s', w')) :
    (∃ cause, e = .serviceUnavailable cause) ∨ ∃ uuid, e = .roundsExhausted uuid := by
  let attempt : Proposer × ω → Except Fault ProposalValue × Proposer × ω := fun x =>
    (Fault.ofFailure (x.1.propose t ⟨start⟩ (encode commit) x.2).1,
      (x.1.propose t ⟨start⟩ (encode commit) x.2).2)
  have hends : RetryPolicy.Ends s.retry jitter attempt 1 (s.proposer, w)
      (s.retry.run jitter attempt (s.proposer, w)).outcome
      (s.retry.run jitter attempt (s.proposer, w)).state := RetryPolicy.run_ends (s.proposer, w)
  rcases hends.failure (error_of_map (congrArg Prod.fst h)) with
    hgaveUp | ⟨hround, ⟨p, w₁⟩, t', hattempt⟩
  · exact .inl hgaveUp
  · right
    rcases hpropose : p.propose t ⟨start⟩ (encode commit) w₁ with ⟨e | v, q, w₂⟩
    · simp only [attempt, hpropose] at hattempt
      cases hattempt
      exact (Proposer.propose_error hpropose).resolve_left (by simp [hround])
    · simp only [attempt, hpropose] at hattempt
      cases hattempt

lemma commits_put {t : Transport ω} {jitter : Jitter} {outcome : Except Fault Unit}
    (h : s.put t jitter start commit w = (outcome, s', w')) :
    s'.commits = s.note (.put start commit outcome) := by
  unfold put at h
  rcases hagree : s.agree t jitter start commit w with ⟨f | payload, s₁, w₁⟩
  · have hunseen : (Report.put start commit (.error f)).seen? = none := by
      rcases f with e | o
      · rcases agree_failure hagree with ⟨cause, rfl⟩ | ⟨uuid, rfl⟩ <;> rfl
      · rfl
    simp only [hagree] at h
    cases h
    rw [commits_agree hagree, note_of_unseen hunseen]
  · have hsame := commits_agree hagree
    simp only [hagree, settle] at h
    split at h
    · rename_i e hdecode
      cases h
      rw [hsame, note_of_unseen]
      unfold decode at hdecode
      split at hdecode <;> cases hdecode
      rfl
    · rename_i agreed hdecode
      have hremember : (s₁.remember start agreed).commits = (s.remember start agreed).commits := by
        simp only [remember, hsame]
        cases s.commits.get? ⟨start⟩ <;> simp [hsame]
      split at h
      · rename_i heq
        cases h
        rw [hremember, heq]
        rfl
      · cases h
        exact hremember

end Calls

section Gets
variable {s s' : CommitService} {w w' : ω} {lookup : Lookup ω}

/-- What is remembered stays remembered through a get. -/
lemma held_get {start other commit : UInt64} {answer : Except Failure (Option UInt64)}
    (h : s.get lookup start w = (answer, s', w')) (hheld : s.commits.get? ⟨other⟩ = some commit) :
    s'.commits.get? ⟨other⟩ = some commit := by
  rw [commits_get h, get?_note, hheld, Option.some_or]

/-- What a get answers is remembered from then on. -/
lemma held_of_get {start commit : UInt64} (h : s.get lookup start w = (.ok (some commit), s', w')) :
    s'.commits.get? ⟨start⟩ = some commit := by
  cases hheld : s.commits.get? ⟨start⟩ with
  | some held =>
    rw [get_of_held hheld] at h
    cases h
    exact hheld
  | none =>
    rw [commits_get h, get?_note, hheld]
    simp [Report.start, Report.seen?]

/-- A `getMany` is its gets, and its answer is what they come to. -/
lemma getManyInto_eq (starts : List UInt64) (found : SlotMap UInt64) (s : CommitService) (w : ω) :
    s.getManyInto lookup starts found w =
      (collect found (s.gets lookup starts w).1, (s.gets lookup starts w).2) := by
  induction starts generalizing found s w with
  | nil => rfl
  | cons start rest ih =>
    unfold getManyInto gets
    rcases s.get lookup start w with ⟨e | _ | commit, s', w'⟩
    · rfl
    · exact ih found s' w'
    · exact ih (found.insert ⟨start⟩ commit) s' w'

lemma getMany_eq (starts : List UInt64) (s : CommitService) (w : ω) :
    s.getMany lookup starts w =
      (collect ∅ (s.gets lookup starts w).1, (s.gets lookup starts w).2) :=
  getManyInto_eq starts ∅ s w

/-- A transaction that is not asked for keeps its entry. -/
lemma commits_gets_of_notMem {starts : List UInt64} {other : UInt64} (h : other ∉ starts)
    (s : CommitService) (w : ω) :
    (s.gets lookup starts w).2.1.commits.get? ⟨other⟩ = s.commits.get? ⟨other⟩ := by
  induction starts generalizing s w with
  | nil => rfl
  | cons start rest ih =>
    rw [List.mem_cons, not_or] at h
    unfold gets
    rcases hget : s.get lookup start w with ⟨e | found, s', w'⟩
    · dsimp only
      rw [commits_get hget, get?_note_of_ne (Ne.symm h.1)]
    · dsimp only
      rw [ih h.2, commits_get hget, get?_note_of_ne (Ne.symm h.1)]

/-- Induction on the gets, the table holding all that was found before. -/
lemma get?_collect_gets {starts : List UInt64} {found found' : SlotMap UInt64}
    (hfound : ∀ start commit, found.get? ⟨start⟩ = some commit →
      s.commits.get? ⟨start⟩ = some commit)
    (h : collect found (s.gets lookup starts w).1 = .ok found') :
    (s.gets lookup starts w).1.map (·.1) = starts ∧
    ∀ start commit, found'.get? ⟨start⟩ = some commit ↔
      found.get? ⟨start⟩ = some commit ∨
        (start, .ok (some commit)) ∈ (s.gets lookup starts w).1 := by
  induction starts generalizing found s w with
  | nil =>
    cases h
    simp [gets]
  | cons start rest ih =>
    unfold gets at h ⊢
    rcases hget : s.get lookup start w with ⟨e | _ | commit, s', w'⟩
    · simp only [hget, collect] at h
      cases h
    · simp only [hget, collect] at h
      obtain ⟨hstarts, hiff⟩ := ih (fun k c hc => held_get hget (hfound k c hc)) h
      simp [hstarts, hiff]
    · simp only [hget, collect] at h
      have hentry : ∀ k c, (found.insert ⟨start⟩ commit).get? ⟨k⟩ = some c ↔
          found.get? ⟨k⟩ = some c ∨ (k = start ∧ c = commit) := by
        intro k c
        rw [SlotMap.get?_insert]
        by_cases hk : start = k
        · subst hk
          rw [if_pos rfl]
          constructor
          · intro hc
            exact .inr ⟨rfl, (Option.some.inj hc).symm⟩
          · rintro (hc | ⟨-, rfl⟩)
            · rw [get_of_held (hfound start c hc)] at hget
              cases hget
              rfl
            · rfl
        · rw [if_neg (by simpa using hk)]
          simp [Ne.symm hk]
      obtain ⟨hstarts, hiff⟩ := ih (s := s') (fun k c hc => by
        rcases (hentry k c).mp hc with hc | ⟨rfl, rfl⟩
        · exact held_get hget (hfound k c hc)
        · exact held_of_get hget) h
      refine ⟨by simp [hstarts], fun k c => ?_⟩
      rw [hiff, hentry]
      simp [or_assoc]

end Gets

/-- What the calls do to the table of a node, one at a time. -/
structure Steady (ω : Type) (s : CommitService) : Prop where
  /-- A get that finds nothing out leaves the table alone. -/
  get : ∀ {lookup : Lookup ω} {start w answer s' w'},
    s.get lookup start w = (answer, s', w') → (∀ commit, answer ≠ .ok (some commit)) →
    s'.commits = s.commits
  get_other : ∀ {lookup : Lookup ω} {start w answer s' w'},
    s.get lookup start w = (answer, s', w') → ∀ other ≠ start,
    s'.commits.get? ⟨other⟩ = s.commits.get? ⟨other⟩
  /-- A put that fails leaves the table alone, unless it fails because the key exists. -/
  put : ∀ {t : Transport ω} {jitter start commit w f s' w'},
    s.put t jitter start commit w = (.error f, s', w') →
    (∀ key agreed, f ≠ .failure (.keyAlreadyExists key agreed)) → s'.commits = s.commits
  put_other : ∀ {t : Transport ω} {jitter start commit w outcome s' w'},
    s.put t jitter start commit w = (outcome, s', w') → ∀ other ≠ start,
    s'.commits.get? ⟨other⟩ = s.commits.get? ⟨other⟩
  /-- The gets that a `getMany` is made of leave behind what it leaves behind. -/
  gets : ∀ (lookup : Lookup ω) starts w,
    (s.getMany lookup starts w).2 = (s.gets lookup starts w).2
  /-- A `getMany` that succeeds has got all that it was asked for, and tells what it got. -/
  getMany : ∀ {lookup : Lookup ω} {starts w found s' w'},
    s.getMany lookup starts w = (.ok found, s', w') →
    (s.gets lookup starts w).1.map (·.1) = starts ∧
    ∀ start commit, found.get? ⟨start⟩ = some commit ↔
      (start, .ok (some commit)) ∈ (s.gets lookup starts w).1
  getMany_other : ∀ {lookup : Lookup ω} {starts w}, ∀ other ∉ starts,
    (s.getMany lookup starts w).2.1.commits.get? ⟨other⟩ = s.commits.get? ⟨other⟩

theorem steady (s : CommitService) : s.Steady ω where
  get {lookup start w answer s' w'} h hanswer := by
    rw [commits_get h, note_of_unseen]
    rcases answer with e | _ | commit
    · rfl
    · rfl
    · exact absurd rfl (hanswer commit)
  get_other h other hother := by rw [commits_get h, get?_note_of_ne (Ne.symm hother)]
  put {t jitter start commit w f s' w'} h hf := by
    rw [commits_put h, note_of_unseen]
    rcases f with e | o
    · cases e with
      | keyAlreadyExists key agreed => exact absurd rfl (hf key agreed)
      | _ => rfl
    · rfl
  put_other h other hother := by rw [commits_put h, get?_note_of_ne (Ne.symm hother)]
  gets lookup starts w := congrArg Prod.snd (getMany_eq starts s w)
  getMany h := by
    rw [getMany_eq, Prod.mk.injEq] at h
    have hnone : ∀ start commit, (∅ : SlotMap UInt64).get? ⟨start⟩ = some commit →
        s.commits.get? ⟨start⟩ = some commit := by simp
    obtain ⟨hstarts, hiff⟩ := get?_collect_gets hnone h.1
    exact ⟨hstarts, fun start commit => by simp [hiff]⟩
  getMany_other other h := by rw [getMany_eq, commits_gets_of_notMem h]

section Reports
variable {reports : List Report} {s s' : CommitService}

lemma firstSeen_append (start : UInt64) (reports reports' : List Report) :
    firstSeen start (reports ++ reports') =
      (firstSeen start reports).or (firstSeen start reports') := by
  simp [firstSeen, List.findSome?_append]

lemma firstSeen_singleton (start : UInt64) (r : Report) :
    firstSeen start [r] = if r.start = start then r.seen? else none := by
  by_cases h : r.start = start <;> simp [firstSeen, h]

/-- Every get tells what was seen first, once something was seen. -/
def Unanimous (reports : List Report) : Prop :=
  ∀ before start answer after commit, reports = before ++ .get start answer :: after →
    firstSeen start before = some commit → answer = .ok (some commit)

/-- The invariant: what was seen first is in the table, and gets have told it since. -/
structure Stands (reports : List Report) (s : CommitService) : Prop where
  held : ∀ start, s.commits.get? ⟨start⟩ = firstSeen start reports
  unanimous : Unanimous reports

lemma stands_new (proposer : Proposer) (retry : RetryPolicy) : Stands [] (new proposer retry) where
  held _ := rfl
  unanimous before start answer after commit h := by simp at h

lemma Stands.append (h : Stands reports s) {r : Report} (hs : s'.commits = s.note r)
    (hr : ∀ start answer commit, r = .get start answer → firstSeen start reports = some commit →
      answer = .ok (some commit)) : Stands (reports ++ [r]) s' where
  held start := by rw [hs, get?_note, h.held, firstSeen_append, firstSeen_singleton]
  unanimous before start answer after commit hsplit hfirst := by
    rcases List.eq_nil_or_concat after with rfl | ⟨after, last, rfl⟩
    · obtain ⟨rfl, rfl⟩ := List.append_singleton_inj.mp hsplit
      exact hr start answer commit rfl hfirst
    · rw [List.concat_eq_append, ← List.cons_append, ← List.append_assoc] at hsplit
      obtain ⟨rfl, -⟩ := List.append_singleton_inj.mp hsplit
      exact h.unanimous before start answer after commit rfl hfirst

lemma Stands.get (h : Stands reports s) (lookup : Lookup ω) (start : UInt64) (w : ω) :
    Stands (reports ++ [.get start (s.get lookup start w).1]) (s.get lookup start w).2.1 := by
  refine h.append (commits_get rfl) fun start' answer commit hr hfirst => ?_
  cases hr
  rw [get_of_held ((h.held start).trans hfirst)]

lemma Stands.gets (h : Stands reports s) (lookup : Lookup ω) (starts : List UInt64) (w : ω) :
    Stands (reports ++ (s.gets lookup starts w).1.map fun (start, answer) => .get start answer)
      (s.gets lookup starts w).2.1 := by
  induction starts generalizing reports s w with
  | nil => simpa [CommitService.gets] using h
  | cons start rest ih =>
    have hget := h.get lookup start w
    unfold CommitService.gets
    rcases hs : s.get lookup start w with ⟨e | found, s', w'⟩
    · rwa [hs] at hget
    · rw [hs] at hget
      simpa using ih hget w'

lemma Stands.put (h : Stands reports s) (t : Transport ω) (jitter : Jitter) (start commit : UInt64)
    (w : ω) : Stands (reports ++ [.put start commit (s.put t jitter start commit w).1])
      (s.put t jitter start commit w).2.1 :=
  h.append (commits_put rfl) nofun

/-- One call. -/
lemma Stands.run (h : Stands reports s) (w : ω) (e : Errand ω) :
    Stands (reports ++ (s.run w e).1) (s.run w e).2 := by
  cases e with
  | get lookup start => exact h.get lookup start w
  | getMany lookup starts =>
    have hgets := h.gets lookup starts w
    rwa [← (steady s).gets lookup starts w] at hgets
  | put t jitter start commit => exact h.put t jitter start commit w

/-- All calls: induction on them. -/
theorem Stands.runAll (h : Stands reports s) (errands : List (Errand ω × ω)) :
    Stands (reports ++ (s.runAll errands).1) (s.runAll errands).2 := by
  induction errands generalizing reports s with
  | nil => simpa [CommitService.runAll] using h
  | cons head rest ih =>
    obtain ⟨e, w⟩ := head
    simpa [CommitService.runAll] using ih (h.run w e)

end Reports

/-- The commit timestamp that a node has seen first stands, whatever acceptors and learner say:
every later get answers with it and asks nobody. What is no sighting, and what is one of another
transaction, changes nothing. -/
theorem first_seen_stands (proposer : Proposer) (retry : RetryPolicy)
    (errands : List (Errand ω × ω)) :
    Unanimous ((new proposer retry).runAll errands).1 ∧
    (∀ start commit, firstSeen start ((new proposer retry).runAll errands).1 = some commit →
      ∀ (lookup : Lookup ω) w, ((new proposer retry).runAll errands).2.get lookup start w =
        (.ok (some commit), ((new proposer retry).runAll errands).2, w)) ∧
    ((new proposer retry).runAll errands).2.Steady ω := by
  have hstands := (stands_new proposer retry).runAll errands
  refine ⟨hstands.unanimous, fun start commit hfirst lookup w => ?_, steady _⟩
  exact get_of_held ((hstands.held start).trans hfirst) lookup w

/-- One acceptor, which promises whatever it is asked to and tells of this payload. -/
def telling (payload : Option Payload) : Transport Unit where
  prepare slot id w :=
    ([fun w => (some (.give id (payload.map fun payload => ⟨⟨0, "z"⟩, slot, payload⟩)), w)], w)
  accept _ value w := ([fun w => (some ⟨true, value.id⟩, w)], w)
  notify _ _ w := w

/-- A node commits, is told of another commit later, and does not change its mind, although its
learner cannot be reached any more. -/
theorem first_seen_stands_contradicted :
    let down : Lookup Unit := fun _ w => (.error (.transport .unreachable), w)
    let service := (new ⟨"a", Quorum.single, 0⟩ .default).runAll
      [(.put (telling none) .none 10 11, ()), (.put (telling (some (encode 13))) .none 10 12, ()),
        (.getMany down [10, 20], ())]
    service.1.map Report.seen? = [some 11, some 13, some 11, none] ∧
      (service.2.get down 10 ()).1 = .ok (some 11) := by
  intro down service
  have hseen : service.1.map Report.seen? = [some 11, some 13, some 11, none] := by decide
  have hfirst : firstSeen 10 service.1 = some 11 := by decide
  exact ⟨hseen, congrArg Prod.fst ((first_seen_stands _ _ _).2.1 10 11 hfirst down ())⟩

end Synod.CommitService
