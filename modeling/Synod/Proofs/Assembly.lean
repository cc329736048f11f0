import Mathlib.Data.Finset.Card
import Mathlib.Data.Finset.Range
import Mathlib.Logic.Relation
import Synod.Proofs.History
import Synod.Proposer

/-!
# Proposers among acceptors

Any number of proposers run any number of rounds against a fixed number of acceptors, and every
step of any of them may come at any time: a round is begun, an acceptor handles a request, a
round hears one more answer or draws its conclusions. A request once sent may be handled at any
later time, more than once or never, and an answer may be heard or not. Acceptors are restarted,
and their stores fail, as in a history of one acceptor alone.
-/
namespace Synod

/-- How far a round has come: it waits for some of the acceptors, or is over. -/
inductive Stage
  | preparing (awaited : Finset Nat) (tally : Tally Promise)
  | accepting (value : ProposalValue) (awaited : Finset Nat) (tally : Tally Acceptance)
  | ended (outcome : Except Failure ProposalValue)

/-- One round of a proposer for a slot, with a payload of its own to propose. -/
structure Round where
  proposer : String
  id : ProposalId
  slot : Slot
  own : Payload
  stage : Stage

/-- A later state of the same round. -/
structure Round.Continues (r r' : Round) : Prop where
  proposer : r'.proposer = r.proposer
  id : r'.id = r.id
  slot : r'.slot = r.slot
  own : r'.own = r.own

theorem Round.Continues.refl (r : Round) : r.Continues r := ⟨rfl, rfl, rfl, rfl⟩

theorem Round.Continues.trans {r r' r'' : Round} (h : r.Continues r') (k : r'.Continues r'') :
    r.Continues r'' :=
  ⟨k.proposer.trans h.proposer, k.id.trans h.id, k.slot.trans h.slot, k.own.trans h.own⟩

/-- Acceptors by number, each with the calls that it has handled; proposers by name; rounds in no
particular order; and all that was ever sent. -/
structure Assembly (σ : Type) where
  acceptors : Nat → Acceptor σ
  calls : Nat → List Call
  proposers : String → Option Proposer
  rounds : Nat → Option Round
  sent : List Request

namespace Assembly
open RecordStore

variable {σ : Type}

/-- Acceptors that have just been started, and no proposers yet. -/
def init (stores : Nat → σ) : Assembly σ :=
  ⟨fun a => .start (stores a), fun _ => [], fun _ => none, fun _ => none, []⟩

def setProposer (s : Assembly σ) (uuid : String) (p : Proposer) : Assembly σ :=
  { s with proposers := Function.update s.proposers uuid (some p) }

def setRound (s : Assembly σ) (k : Nat) (r : Round) : Assembly σ :=
  { s with rounds := Function.update s.rounds k (some r) }

def send (s : Assembly σ) (r : Request) : Assembly σ := { s with sent := r :: s.sent }

/-- The rounds after one of them has changed. -/
theorem rounds_setRound {s : Assembly σ} {k l : Nat} {r r' : Round}
    (h : (s.setRound k r).rounds l = some r') :
    (l = k ∧ r' = r) ∨ (l ≠ k ∧ s.rounds l = some r') := by
  by_cases hl : l = k
  · subst hl
    simp only [setRound, Function.update_self, Option.some.injEq] at h
    exact .inl ⟨rfl, h.symm⟩
  · simp only [setRound, Function.update_of_ne hl] at h
    exact .inr ⟨hl, h⟩

/-- The proposers after one of them has changed. -/
theorem proposers_setProposer {s : Assembly σ} {u v : String} {p q : Proposer}
    (h : (s.setProposer u p).proposers v = some q) :
    (v = u ∧ q = p) ∨ (v ≠ u ∧ s.proposers v = some q) := by
  by_cases hv : v = u
  · subst hv
    simp only [setProposer, Function.update_self, Option.some.injEq] at h
    exact .inl ⟨rfl, h.symm⟩
  · simp only [setProposer, Function.update_of_ne hv] at h
    exact .inr ⟨hv, h⟩

/-- A number without a round stays without one when another round changes. -/
theorem quiet_setRound {s : Assembly σ} {l : Nat} {r r' : Round}
    (hr : s.rounds l = some r) : ∀ k, s.rounds k = none → (s.setRound l r').rounds k = none := by
  intro k hk
  have hne : k ≠ l := by
    rintro rfl
    rw [hr] at hk
    cases hk
  simp only [setRound, Function.update_of_ne hne, hk]

theorem setRound_self (s : Assembly σ) (k : Nat) (r : Round) : (s.setRound k r).rounds k = some r :=
  Function.update_self ..

theorem setRound_of_ne (s : Assembly σ) {k l : Nat} (h : l ≠ k) (r : Round) :
    (s.setRound k r).rounds l = s.rounds l :=
  Function.update_of_ne h ..

/-- A proposer, its counter past the id, sends out the requests of a new round. -/
def begin (s : Assembly σ) (size k : Nat) (uuid : String) (after : Proposer) (id : ProposalId)
    (slot : Slot) (own : Payload) : Assembly σ :=
  ((s.setProposer uuid after).setRound k
    ⟨uuid, id, slot, own, .preparing (Finset.range size) Tally.empty⟩).send (.prepare slot id)

/-- An acceptor has given a promise for an id. -/
def Promised (s : Assembly σ) (slot : Slot) (id : ProposalId) (a : Nat) (p : Promise) : Prop :=
  .prepare slot id (.ok p) ∈ s.calls a ∧ p.accepted = true

/-- An acceptor has acknowledged a value. -/
def Accepted (s : Assembly σ) (slot : Slot) (value : ProposalValue) (a : Nat) (x : Acceptance) :
    Prop :=
  .accept slot value (.ok x) ∈ s.calls a ∧ x.accepted = true

/-- As many acceptors have acknowledged a value as the second phase needs. -/
def Chosen (quorum : Quorum) (size : Nat) (s : Assembly σ) (slot : Slot) (v : ProposalValue) :
    Prop :=
  ∃ voters : Finset Nat, quorum.accept.toNat ≤ voters.card ∧
    ∀ a ∈ voters, a < size ∧ ∃ x, s.Accepted slot v a x

/-- Calls and requests are never undone. -/
structure Grows (s t : Assembly σ) : Prop where
  calls : ∀ a, s.calls a ⊆ t.calls a
  sent : s.sent ⊆ t.sent

theorem Grows.refl (s : Assembly σ) : Grows s s := ⟨fun _ _ h => h, fun _ h => h⟩

theorem Grows.trans {s t u : Assembly σ} (h : Grows s t) (k : Grows t u) : Grows s u :=
  ⟨fun a _ hc => k.calls a (h.calls a hc), fun _ hr => k.sent (h.sent hr)⟩

theorem grows_setProposer (s : Assembly σ) (uuid : String) (p : Proposer) :
    Grows s (s.setProposer uuid p) :=
  ⟨fun _ _ h => h, fun _ h => h⟩

theorem grows_setRound (s : Assembly σ) (k : Nat) (r : Round) : Grows s (s.setRound k r) :=
  ⟨fun _ _ h => h, fun _ h => h⟩

theorem grows_send (s : Assembly σ) (r : Request) : Grows s (s.send r) :=
  ⟨fun _ _ h => h, fun _ h => List.mem_cons_of_mem _ h⟩

/-- Nothing is undone, and every round is still there, for what it was for. -/
structure Extends (s t : Assembly σ) : Prop where
  grows : Grows s t
  continues : ∀ {k r}, s.rounds k = some r → ∃ r', t.rounds k = some r' ∧ r.Continues r'

theorem Extends.of_rounds_eq {s t : Assembly σ} (hg : Grows s t) (h : t.rounds = s.rounds) :
    Extends s t :=
  ⟨hg, fun {_ r} hr => ⟨r, by rw [h, hr], Round.Continues.refl r⟩⟩

theorem Extends.refl (s : Assembly σ) : Extends s s := .of_rounds_eq (.refl s) rfl

theorem Extends.trans {s t u : Assembly σ} (h : Extends s t) (k : Extends t u) : Extends s u := by
  refine ⟨h.grows.trans k.grows, fun {l r} hr => ?_⟩
  obtain ⟨r', hr', hc⟩ := h.continues hr
  obtain ⟨r'', hr'', hc'⟩ := k.continues hr'
  exact ⟨r'', hr'', hc.trans hc'⟩

namespace Extends
variable {s t : Assembly σ}

theorem setProposer (h : Extends s t) (uuid : String) (p : Proposer) :
    Extends s (t.setProposer uuid p) :=
  h.trans (.of_rounds_eq (grows_setProposer t uuid p) rfl)

theorem send (h : Extends s t) (r : Request) : Extends s (t.send r) :=
  h.trans (.of_rounds_eq (grows_send t r) rfl)

theorem setRound (h : Extends s t) {k : Nat} {r : Round}
    (hr : ∀ old, t.rounds k = some old → old.Continues r) : Extends s (t.setRound k r) := by
  refine h.trans ⟨grows_setRound t k r, fun {l old} hold => ?_⟩
  by_cases hl : l = k
  · subst hl
    exact ⟨r, setRound_self .., hr old hold⟩
  · exact ⟨old, by rw [setRound_of_ne t hl, hold], Round.Continues.refl old⟩

theorem addRound (h : Extends s t) {k : Nat} (hk : t.rounds k = none) (r : Round) :
    Extends s (t.setRound k r) :=
  h.setRound fun old hold => by
    rw [hk] at hold
    cases hold

theorem setStage (h : Extends s t) {k : Nat} {r : Round} (hr : t.rounds k = some r)
    (stage : Stage) : Extends s (t.setRound k { r with stage }) :=
  h.setRound fun old hold => by
    rw [hr] at hold
    cases hold
    exact ⟨rfl, rfl, rfl, rfl⟩

end Extends

theorem Promised.mono {s t : Assembly σ} (hg : Grows s t) {slot : Slot} {id : ProposalId} {a : Nat}
    {p : Promise} (h : s.Promised slot id a p) : t.Promised slot id a p :=
  ⟨hg.calls a h.1, h.2⟩

theorem Accepted.mono {s t : Assembly σ} (hg : Grows s t) {slot : Slot} {v : ProposalValue}
    {a : Nat} {x : Acceptance} (h : s.Accepted slot v a x) : t.Accepted slot v a x :=
  ⟨hg.calls a h.1, h.2⟩

/-- A choice is final. -/
theorem Chosen.mono {quorum : Quorum} {size : Nat} {s t : Assembly σ} (hg : Grows s t) {slot : Slot}
    {v : ProposalValue} (h : s.Chosen quorum size slot v) : t.Chosen quorum size slot v := by
  obtain ⟨voters, hcard, hvoters⟩ := h
  refine ⟨voters, hcard, fun a ha => ?_⟩
  obtain ⟨hlt, x, hx⟩ := hvoters a ha
  exact ⟨hlt, x, hx.mono hg⟩

section Steps
variable [RecordStore σ] {view : StoreView σ}

/-- Something happens to an acceptor. -/
def act (s : Assembly σ) (a : Nat) (e : Acceptor.Event view) : Assembly σ :=
  { s with
    acceptors := Function.update s.acceptors a ((s.acceptors a).meet e).2
    calls := Function.update s.calls a (s.calls a ++ ((s.acceptors a).meet e).1) }

/-- The request that was sent last may be handled. -/
theorem asked_request {r : Request} {rest : List Request} :
    ∀ q, (Acceptor.Event.request r : Acceptor.Event view).request? = some q → q ∈ r :: rest := by
  intro q h
  cases h
  exact List.mem_cons_self

/-- One step of the assembly, its acceptors being those below `size`. -/
inductive Step (view : StoreView σ) (quorum : Quorum) (size : Nat) :
    Assembly σ → Assembly σ → Prop
  | join {s p} (uuid : String) (floor : UInt64) (unused : s.proposers uuid = none)
      (made : Proposer.make uuid quorum size floor = .ok p) :
      Step view quorum size s (s.setProposer uuid p)
  | start {s p id after} (k : Nat) (uuid : String) (slot : Slot) (own : Payload)
      (unused : s.rounds k = none) (known : s.proposers uuid = some p)
      (fresh : p.nextId = .ok (id, after)) :
      Step view quorum size s (s.begin size k uuid after id slot own)
  /-- Refusals move the counter of a proposer while its rounds go on. -/
  | overtake {s p} (uuid : String) (seen : ProposalId) (known : s.proposers uuid = some p) :
      Step view quorum size s (s.setProposer uuid (p.fastForward seen))
  | act {s} (a : Nat) (e : Acceptor.Event view) (present : a < size)
      (asked : ∀ r, e.request? = some r → r ∈ s.sent) : Step view quorum size s (s.act a e)
  /-- An answer arrives, or it is noticed that none will. -/
  | hearPromise {s r p awaited tally} (k a : Nat) (answer : Option Promise)
      (round : s.rounds k = some r) (stage : r.stage = .preparing awaited tally)
      (known : s.proposers r.proposer = some p)
      (undecided : tally.Undecided p.quorum.acceptors.toNat p.quorum.prepare.toNat)
      (awaits : a ∈ awaited)
      (heard : ∀ promise, answer = some promise →
        .prepare r.slot r.id (.ok promise) ∈ s.calls a) :
      Step view quorum size s (s.setRound k { r with
        stage := .preparing (awaited.erase a) (tally.add (·.accepted) answer) })
  | hearAcceptance {s r p value awaited tally} (k a : Nat) (answer : Option Acceptance)
      (round : s.rounds k = some r) (stage : r.stage = .accepting value awaited tally)
      (known : s.proposers r.proposer = some p)
      (undecided : tally.Undecided p.quorum.acceptors.toNat p.quorum.accept.toNat)
      (awaits : a ∈ awaited)
      (heard : ∀ acceptance, answer = some acceptance →
        .accept r.slot value (.ok acceptance) ∈ s.calls a) :
      Step view quorum size s (s.setRound k { r with
        stage := .accepting value (awaited.erase a) (tally.add (·.accepted) answer) })
  /-- Enough promises: a value is sent to all acceptors. -/
  | offer {s r p awaited tally value after} (k : Nat) (round : s.rounds k = some r)
      (stage : r.stage = .preparing awaited tally) (known : s.proposers r.proposer = some p)
      (decided : ¬tally.Undecided p.quorum.acceptors.toNat p.quorum.prepare.toNat ∨ awaited = ∅)
      (closed : p.afterPrepare r.slot r.id r.own tally = (.ok value, after)) :
      Step view quorum size s
        (((s.setProposer r.proposer after).setRound k { r with
          stage := .accepting value (Finset.range size) Tally.empty }).send
          (.accept r.slot value))
  | giveUp {s r p awaited tally e after} (k : Nat) (round : s.rounds k = some r)
      (stage : r.stage = .preparing awaited tally) (known : s.proposers r.proposer = some p)
      (decided : ¬tally.Undecided p.quorum.acceptors.toNat p.quorum.prepare.toNat ∨ awaited = ∅)
      (closed : p.afterPrepare r.slot r.id r.own tally = (.error e, after)) :
      Step view quorum size s ((s.setProposer r.proposer after).setRound k { r with
        stage := .ended (.error e) })
  | finish {s r p value awaited tally outcome after} (k : Nat) (round : s.rounds k = some r)
      (stage : r.stage = .accepting value awaited tally) (known : s.proposers r.proposer = some p)
      (decided : ¬tally.Undecided p.quorum.acceptors.toNat p.quorum.accept.toNat ∨ awaited = ∅)
      (closed : p.afterAccept r.slot value tally = (outcome, after)) :
      Step view quorum size s ((s.setProposer r.proposer after).setRound k { r with
        stage := .ended outcome })

/-- What can come of an assembly in any number of steps. -/
def Reaches (view : StoreView σ) (quorum : Quorum) (size : Nat) :
    Assembly σ → Assembly σ → Prop :=
  Relation.ReflTransGen (Step view quorum size)

/-- Every acceptor has a store of its own, which is empty at first. -/
def Reachable (view : StoreView σ) (quorum : Quorum) (size : Nat) (s : Assembly σ) : Prop :=
  ∃ stores : Nat → σ, (∀ a, view.held (stores a) = fun _ => none) ∧
    Reaches view quorum size (init stores) s

theorem grows_act (s : Assembly σ) (a : Nat) (e : Acceptor.Event view) :
    Grows s (s.act a e) := by
  refine ⟨fun b c hc => ?_, fun _ h => h⟩
  by_cases hb : b = a
  · subst hb
    simp [act, hc]
  · simpa [act, hb] using hc

theorem Extends.act {s t : Assembly σ} (h : Extends s t) (a : Nat) (e : Acceptor.Event view) :
    Extends s (t.act a e) :=
  h.trans (.of_rounds_eq (grows_act t a e) rfl)

/-- A step changes one round at most, and what that round is for stays as it is. -/
theorem Step.extends {quorum : Quorum} {size : Nat} {s t : Assembly σ}
    (h : Step view quorum size s t) : Extends s t := by
  have hs := Extends.refl s
  cases h with
  | join | overtake => exact hs.setProposer ..
  | act a e => exact hs.act a e
  | start k uuid slot own unused => exact ((hs.setProposer ..).addRound unused _).send _
  | hearPromise k a answer round => exact hs.setStage round _
  | hearAcceptance k a answer round => exact hs.setStage round _
  | offer k round => exact ((hs.setProposer ..).setStage round _).send _
  | giveUp k round => exact (hs.setProposer ..).setStage round _
  | finish k round => exact (hs.setProposer ..).setStage round _

theorem Step.grows {quorum : Quorum} {size : Nat} {s t : Assembly σ}
    (h : Step view quorum size s t) : Grows s t :=
  h.extends.grows

theorem Step.continues {quorum : Quorum} {size : Nat} {s t : Assembly σ}
    (h : Step view quorum size s t) {k : Nat} {r : Round} (hr : s.rounds k = some r) :
    ∃ r', t.rounds k = some r' ∧ r.Continues r' :=
  h.extends.continues hr

theorem Reaches.extends {quorum : Quorum} {size : Nat} {s t : Assembly σ}
    (h : Reaches view quorum size s t) : Extends s t := by
  induction h with
  | refl => exact Extends.refl s
  | tail _ hstep ih => exact ih.trans hstep.extends

theorem Reaches.grows {quorum : Quorum} {size : Nat} {s t : Assembly σ}
    (h : Reaches view quorum size s t) : Grows s t :=
  h.extends.grows

end Steps
end Assembly
end Synod
