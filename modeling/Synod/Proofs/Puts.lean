import Synod.Proofs.Seats

/-!
# Puts as services run them

`CommitService.put` runs rounds until the retry policy lets it answer, given a transport. If all that
the transport does on the way are steps of a ledger, then so is the put as a whole: it is called, it
attempts a round and waits for it, tries again or gives up, and settles what was agreed. Its answer is
the one that the ledger gives.
-/
namespace Synod

namespace CommitService
variable {ω : Type} (s : CommitService) (p : Proposer)

lemma remember_withProposer (start commit : UInt64) :
    (s.withProposer p).remember start commit = (s.remember start commit).withProposer p := by
  unfold remember withProposer
  cases s.commits.get? ⟨start⟩ <;> rfl

lemma proposer_remember (start commit : UInt64) : (s.remember start commit).proposer = s.proposer := by
  unfold remember
  cases s.commits.get? ⟨start⟩ <;> rfl

lemma settle_withProposer (start commit : UInt64) (payload : Payload) :
    (s.withProposer p).settle start commit payload =
      ((s.settle start commit payload).1, (s.settle start commit payload).2.withProposer p) := by
  unfold settle
  cases decode ⟨start⟩ payload with
  | error e => rfl
  | ok agreed =>
    simp only [remember_withProposer]
    split <;> rfl

lemma proposer_settle (start commit : UInt64) (payload : Payload) :
    (s.settle start commit payload).2.proposer = s.proposer := by
  unfold settle
  cases decode ⟨start⟩ payload with
  | error e => rfl
  | ok agreed =>
    dsimp only
    split <;> exact proposer_remember ..

/-- How a put ends once its rounds have. -/
def conclude (start commit : UInt64) (s : CommitService) :
    Except Fault ProposalValue → Except Fault Unit × CommitService
  | .error f => (.error f, s)
  | .ok v => s.settle start commit v.payload

/-- One attempt of a put. -/
def attempt (t : Transport ω) (start commit : UInt64) (st : Proposer × ω) :
    Except Fault ProposalValue × Proposer × ω :=
  let (outcome, p, w) := st.1.propose t ⟨start⟩ (encode commit) st.2
  (Fault.ofFailure outcome, p, w)

/-- A put is attempts, and then its end. -/
lemma put_eq (t : Transport ω) (jitter : Jitter) (start commit : UInt64) (w : ω) :
    s.put t jitter start commit w =
      let run := s.retry.run jitter (attempt t start commit) (s.proposer, w)
      let concluded := (s.withProposer run.state.1).conclude start commit run.outcome
      (concluded.1, concluded.2, run.state.2) := by
  have hagree : s.agree t jitter start commit w =
      let run := s.retry.run jitter (attempt t start commit) (s.proposer, w)
      (run.outcome.map (·.payload), s.withProposer run.state.1, run.state.2) := rfl
  rw [put, hagree]
  generalize s.retry.run jitter (attempt t start commit) (s.proposer, w) = run
  obtain ⟨outcome, state, attempts, pauses⟩ := run
  cases outcome <;> rfl

variable {t : Transport ω} {start commit : UInt64} {st st' : Proposer × ω}

lemma propose_of_attempt_ok {v : ProposalValue} (h : attempt t start commit st = (.ok v, st')) :
    st.1.propose t ⟨start⟩ (encode commit) st.2 = (.ok v, st') := by
  unfold attempt at h
  rcases hp : st.1.propose t ⟨start⟩ (encode commit) st.2 with ⟨_ | _, p, w⟩ <;> rw [hp] at h <;>
    cases h
  rfl

lemma propose_of_attempt_failed {e : Failure}
    (h : attempt t start commit st = (.error (.failure e), st')) :
    st.1.propose t ⟨start⟩ (encode commit) st.2 = (.error e, st') := by
  unfold attempt at h
  rcases hp : st.1.propose t ⟨start⟩ (encode commit) st.2 with ⟨_ | _, p, w⟩ <;> rw [hp] at h <;>
    cases h
  rfl

lemma attempt_ne_overflow {o : Overflow} : attempt t start commit st ≠ (.error (.overflow o), st') := by
  unfold attempt
  rcases st.1.propose t ⟨start⟩ (encode commit) st.2 with ⟨_ | _, p, w⟩ <;> intro h <;> cases h

end CommitService

namespace Ledger.Seat
variable {σ ω : Type} [RecordStore σ] {view : StoreView σ} {quorum : Quorum} {size : Nat} {x : Seat}
  {rounds : Nat → Option Round} {service service' : CommitService} {start commit : UInt64}
  {made k : Nat} {jitter : Jitter}

/-- A put of the seat that has come so far. -/
def trying (x : Seat) (start commit : UInt64) (made : Nat) (round : Option Nat) : Task :=
  .put ⟨x.node, start, commit, made, round⟩

/-! ### The steps of a put -/

section Steps
variable {e : Ledger σ}

lemma reaches_call (start commit : UInt64) :
    Reaches view quorum size (x.present e rounds service .idle)
      (x.present e rounds service (x.trying start commit 0 none)) := by
  have hstep : Step view quorum size (x.present e rounds service .idle) _ :=
    .callPut x.call x.node start commit (x.puts_present ..) (x.nodes_present ..)
  rw [← x.setPut_present e rounds service .idle (x.trying start commit 0 none) rfl]
  exact .single hstep

/-- A round is begun. -/
lemma reaches_begin {id : ProposalId} {after : Proposer}
    (hunused : (e.assembly.withRounds rounds).rounds k = none)
    (hfresh : service.proposer.nextId = .ok (id, after)) :
    Reaches view quorum size (x.present e rounds service (x.trying start commit made none))
      (x.host (e.setAssembly (((e.assembly.withRounds rounds).setProposer x.proposer.uuid
        service.proposer).begin size k x.proposer.uuid after id ⟨start⟩
          (CommitService.encode commit))) service (x.trying start commit (made + 1) (some k))) := by
  have hstep : Step view quorum size (x.present e rounds service (x.trying start commit made none)) _ :=
    .attempt x.call k (x.puts_present ..) rfl (x.nodes_present ..) hunused (x.proposers_present ..)
      hfresh
  rw [← x.setPut_host _ service (x.trying start commit made none)
    (x.trying start commit (made + 1) (some k)) rfl]
  exact .single hstep

omit [RecordStore σ] in
/-- A put that is over. -/
lemma setPut_idle (round : Option Nat) :
    (x.present e rounds service (x.trying start commit made round)).setPut x.call none =
      x.present e rounds service .idle :=
  x.setPut_present e rounds service (x.trying start commit made round) .idle rfl

/-- No round is left. -/
lemma reaches_exhaust {failure : Failure} {f : Fault}
    (hspent : service.proposer.nextId = .error failure)
    (hverdict : service.retry.verdict jitter (made + 1) failure = some f) :
    Reaches view quorum size (x.present e rounds service (x.trying start commit made none))
      ((x.present e rounds service .idle).answer (.put start commit (.error f))) := by
  have hstep : Step view quorum size (x.present e rounds service (x.trying start commit made none)) _ :=
    .exhaust x.call jitter (x.puts_present ..) rfl (x.nodes_present ..) (x.proposers_present ..) hspent
      hverdict
  rw [setPut_idle] at hstep
  exact .single hstep

variable {r : Round} (hround : rounds k = some r)
include hround

/-- The round failed, and another one will be run. -/
lemma reaches_retry {failure : Failure} (hended : r.stage = .ended (.error failure))
    (hverdict : service.retry.verdict jitter made failure = none) :
    Reaches view quorum size (x.present e rounds service (x.trying start commit made (some k)))
      (x.present e rounds service (x.trying start commit made none)) := by
  have hstep : Step view quorum size
      (x.present e rounds service (x.trying start commit made (some k))) _ :=
    .retry x.call jitter (x.puts_present ..) rfl (x.nodes_present ..)
      (x.rounds_present e rounds service _ hround) hended hverdict
  rw [← x.setPut_present e rounds service (x.trying start commit made (some k))
    (x.trying start commit made none) rfl]
  exact .single hstep

/-- The round failed, and that was the last one. -/
lemma reaches_fail {failure : Failure} {f : Fault} (hended : r.stage = .ended (.error failure))
    (hverdict : service.retry.verdict jitter made failure = some f) :
    Reaches view quorum size (x.present e rounds service (x.trying start commit made (some k)))
      ((x.present e rounds service .idle).answer (.put start commit (.error f))) := by
  have hstep : Step view quorum size
      (x.present e rounds service (x.trying start commit made (some k))) _ :=
    .fail x.call jitter (x.puts_present ..) rfl (x.nodes_present ..)
      (x.rounds_present e rounds service _ hround) hended hverdict
  rw [setPut_idle] at hstep
  exact .single hstep

/-- The round succeeded, and the node remembers what was agreed. -/
lemma reaches_settle {v : ProposalValue} (hended : r.stage = .ended (.ok v)) :
    Reaches view quorum size (x.present e rounds service (x.trying start commit made (some k)))
      ((x.present e rounds (service.settle start commit v.payload).2 .idle).answer
        (.put start commit (service.settle start commit v.payload).1)) := by
  have hstep : Step view quorum size
      (x.present e rounds service (x.trying start commit made (some k))) _ :=
    .settle x.call (x.puts_present ..) rfl (x.nodes_present ..)
      (x.rounds_present e rounds service _ hround) hended
      (service.settle_withProposer x.proposer start commit v.payload)
  dsimp only at hstep
  rw [x.setNode_present e rounds service _ (service.proposer_settle start commit v.payload),
    setPut_idle] at hstep
  exact .single hstep

end Steps

/-! ### From the first attempt to the answer -/

variable {shows : ω → Ledger σ} {t : Transport ω}

/-- An attempt that has a round left. The rounds of later attempts are still to come. -/
lemma reaches_attempt (service : CommitService) (hc : x.Conveys view quorum size shows t)
    (hown : x.Own rounds) {p p' q : Proposer} {w w' : ω}
    (hunused : ∀ n, made ≤ n → ((shows w).assembly.withRounds rounds).rounds (x.number n) = none)
    {id : ProposalId} (hfresh : p.nextId = .ok (id, q)) {outcome : Except Failure ProposalValue}
    (h : p.propose t ⟨start⟩ (CommitService.encode commit) w = (outcome, p', w')) :
    ∃ r, r.stage = .ended outcome ∧
      Reaches view quorum size
        (x.present (shows w) rounds (service.withProposer p) (x.trying start commit made none))
        (x.present (shows w') (Function.update rounds (x.number made) (some r))
          (service.withProposer p') (x.trying start commit (made + 1) (some (x.number made)))) ∧
      ∀ n, made + 1 ≤ n → ((shows w').assembly.withRounds
        (Function.update rounds (x.number made) (some r))).rounds (x.number n) = none := by
  have hcarries := hc rounds (service.withProposer p)
    (x.trying start commit (made + 1) (some (x.number made))) made hown
  obtain ⟨r, _, _, hstage, hround, hkept⟩ := Assembly.Arena.propose_reaches hcarries hfresh h
  have hbegin : Reaches view quorum size
      (x.present (shows w) rounds (service.withProposer p) (x.trying start commit made none)) _ :=
    reaches_begin (hunused made le_rfl) hfresh
  have hlast := hbegin.trans hround
  dsimp only [arena, Assembly.Arena.during] at hlast hkept
  rw [host_running] at hlast
  refine ⟨r, hstage, hlast, fun n hn => ?_⟩
  have hne : x.number n ≠ x.number made := fun heq => by
    have := x.distinct heq
    omega
  have hbefore := hunused n (by omega)
  have hafter := hkept n ((Function.update_of_ne hne ..).trans hbefore)
  rw [← Assembly.setRound_withRounds]
  exact hafter

/-- All attempts, and what the put makes of the last one: induction on the attempts. -/
lemma reaches_conclude (service : CommitService) (hc : x.Conveys view quorum size shows t)
    {st st' : Proposer × ω} {n : Nat} {outcome : Except Fault ProposalValue}
    (h : RetryPolicy.Ends service.retry jitter (CommitService.attempt t start commit) n st outcome st')
    (hn : n = made + 1) (hown : x.Own rounds)
    (hunused : ∀ n, made ≤ n → ((shows st.2).assembly.withRounds rounds).rounds (x.number n) = none) :
    ∃ rounds', Reaches view quorum size
      (x.present (shows st.2) rounds (service.withProposer st.1) (x.trying start commit made none))
      ((x.present (shows st'.2) rounds'
          ((service.withProposer st'.1).conclude start commit outcome).2 .idle).answer
        (.put start commit ((service.withProposer st'.1).conclude start commit outcome).1)) := by
  induction h generalizing made rounds with
  | @answered n st v st' attempted =>
    subst hn
    have hpropose := CommitService.propose_of_attempt_ok attempted
    rcases hfresh : st.1.nextId with e | ⟨id, q⟩
    · rw [Proposer.propose_of_spent hfresh] at hpropose
      cases hpropose
    · obtain ⟨r, hended, hround, _⟩ := reaches_attempt service hc hown hunused hfresh hpropose
      exact ⟨_, hround.trans (reaches_settle (Function.update_self ..) hended)⟩
  | overflowed attempted => exact absurd attempted CommitService.attempt_ne_overflow
  | @failed n st e f st' attempted verdict =>
    subst hn
    have hpropose := CommitService.propose_of_attempt_failed attempted
    rcases hfresh : st.1.nextId with e' | ⟨id, q⟩
    · rw [Proposer.propose_of_spent hfresh] at hpropose
      cases hpropose
      exact ⟨rounds, reaches_exhaust hfresh verdict⟩
    · obtain ⟨r, hended, hround, _⟩ := reaches_attempt service hc hown hunused hfresh hpropose
      exact ⟨_, hround.trans (reaches_fail (Function.update_self ..) hended verdict)⟩
  | @retried n st e st₁ outcome st' attempted verdict rest ih =>
    subst hn
    have hpropose := CommitService.propose_of_attempt_failed attempted
    rcases hfresh : st.1.nextId with e' | ⟨id, q⟩
    · -- no other attempt follows when the rounds are exhausted
      rw [Proposer.propose_of_spent hfresh] at hpropose
      cases hpropose
      rw [Proposer.nextId_error hfresh] at verdict
      cases verdict
    · obtain ⟨r, hended, hround, hlater⟩ := reaches_attempt service hc hown hunused hfresh hpropose
      obtain ⟨rounds', hrest⟩ := ih rfl (hown.update made r) hlater
      have hagain := hround.trans (reaches_retry (Function.update_self ..) hended verdict)
      exact ⟨rounds', hagain.trans hrest⟩

/-- A put that a service runs is a put of the ledger, and its answer is an answer there. -/
theorem put_reaches (hc : x.Conveys view quorum size shows t) {w w' : ω}
    (hunused : ∀ n, (shows w).assembly.rounds (x.number n) = none) {outcome : Except Fault Unit}
    (h : service.put t jitter start commit w = (outcome, service', w')) :
    ∃ rounds, Reaches view quorum size (x.present (shows w) (fun _ => none) service .idle)
      ((x.present (shows w') rounds service' .idle).answer (.put start commit outcome)) := by
  rw [CommitService.put_eq, Prod.mk.injEq, Prod.mk.injEq] at h
  obtain ⟨rfl, rfl, rfl⟩ := h
  have hends : RetryPolicy.Ends service.retry jitter (CommitService.attempt t start commit) 1
      (service.proposer, w) _ _ := RetryPolicy.run_ends _
  obtain ⟨rounds, hrun⟩ := reaches_conclude service hc hends rfl x.own_none fun n _ => hunused n
  exact ⟨rounds, (reaches_call start commit).trans hrun⟩

end Ledger.Seat
end Synod
