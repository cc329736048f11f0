import Mathlib.Data.List.Forall2
import Synod.Proofs.Agreement

/-!
# Rounds as proposers run them

`Proposer.propose` runs a round from its start to its end, given a transport. If all that the
transport does on the way are steps of an assembly, then so is the round as a whole. The world
beside the round may go on in the meantime: it only must leave the round and its proposer alone.
So what holds of the rounds of an assembly holds of the outcomes that `propose` returns. The
assembly may be part of something larger, an `Arena`, which goes on as well.
-/
namespace Synod
namespace Assembly
open RecordStore

variable {σ ω α : Type}

/-- A world in which a proposer and a round of it are in a given state. -/
def running (e : Assembly σ) (u : String) (k : Nat) (p : Proposer) (r : Round) : Assembly σ :=
  (e.setProposer u p).setRound k r

@[simp] theorem rounds_running (e : Assembly σ) (u : String) (k : Nat) (p : Proposer) (r : Round) :
    (e.running u k p r).rounds k = some r := setRound_self ..

@[simp] theorem proposers_running (e : Assembly σ) (u : String) (k : Nat) (p : Proposer)
    (r : Round) : (e.running u k p r).proposers u = some p := Function.update_self ..

theorem setRound_running (e : Assembly σ) (u : String) (k : Nat) (p : Proposer) (r r' : Round) :
    (e.running u k p r).setRound k r' = e.running u k p r' := by
  simp only [running, setRound, Function.update_idem]

theorem setProposer_running (e : Assembly σ) (u : String) (k : Nat) (p p' : Proposer)
    (r : Round) : (e.running u k p r).setProposer u p' = e.running u k p' r := by
  simp only [running, setRound, setProposer, Function.update_idem]

/-- No other round is there after a proposer and its round have changed. -/
lemma quiet_running {e : Assembly σ} {u : String} {k l : Nat} {p p' : Proposer} {r r' : Round}
    (h : (e.running u k p r).rounds l = none) : (e.running u k p' r').rounds l = none := by
  have hne : l ≠ k := by
    rintro rfl
    rw [rounds_running] at h
    cases h
  simp only [running, setRound_of_ne _ hne] at h ⊢
  exact h

variable [RecordStore σ] {view : StoreView σ} {quorum : Quorum} {size : Nat} {u : String} {k : Nat}

/-- A system that an assembly takes part in. Its states are those of a world together with an
assembly, which is the one that the world shows but for rounds that go on meanwhile. Steps of the
assembly that begin no round are steps of the system. -/
structure Arena (view : StoreView σ) (quorum : Quorum) (size : Nat) (ω : Type) where
  shows : ω → Assembly σ
  Reaches : ω × Assembly σ → ω × Assembly σ → Prop
  refl : ∀ x, Reaches x x
  trans : ∀ {x y z}, Reaches x y → Reaches y z → Reaches x z
  lift : ∀ w {a b}, Step view quorum size a b → (∀ l, a.rounds l = none → b.rounds l = none) →
    Reaches (w, a) (w, b)
  grows : ∀ {x y}, Reaches x y → x.2.Grows y.2

namespace Arena

/-- An assembly that is all there is. -/
def alone (view : StoreView σ) (quorum : Quorum) (size : Nat) (shows : ω → Assembly σ) :
    Arena view quorum size ω where
  shows := shows
  Reaches x y := Assembly.Reaches view quorum size x.2 y.2
  refl _ := .refl
  trans h h' := h.trans h'
  lift _ _ _ h _ := .single h
  grows h := h.grows

variable (A : Arena view quorum size ω)

/-- A proposer of this name, in this state, is running a round. -/
def during (u : String) (k : Nat) (p : Proposer) (r : Round) (w : ω) : ω × Assembly σ :=
  (w, (A.shows w).running u k p r)

/-- The world goes on, whatever the round and its proposer have come to. -/
def Drifts (u : String) (k : Nat) (w w' : ω) : Prop :=
  ∀ p r, A.Reaches (A.during u k p r w) (A.during u k p r w')

/-- To wait for an answer is to let the world go on. An answer that comes was given by then. -/
structure Awaits (u : String) (k : Nat) (e : Assembly σ) (said : α → Assembly σ → Prop)
    (await : ω → Option α × ω) : Prop where
  drifts : ∀ w, e.Grows (A.shows w) → A.Drifts u k w (await w).2
  said : ∀ w x, e.Grows (A.shows w) → (await w).1 = some x → said x (A.shows (await w).2)

/-- A transport that works by steps of the system. Every request goes to each of the acceptors
once, and learners are told of a round that has ended. -/
structure Carries (u : String) (k : Nat) (t : Transport ω) : Prop where
  prepare : ∀ slot id w,
    (∀ p r, A.Reaches (w, ((A.shows w).running u k p r).send (.prepare slot id))
      (A.during u k p r (t.prepare slot id w).2)) ∧
    ∃ asked : List Nat, asked.Nodup ∧ asked.toFinset = Finset.range size ∧
      List.Forall₂ (fun a => A.Awaits u k (A.shows (t.prepare slot id w).2)
        fun x s => .prepare slot id (.ok x) ∈ s.calls a) asked (t.prepare slot id w).1
  accept : ∀ slot value w,
    (∀ p r, A.Reaches (w, ((A.shows w).running u k p r).send (.accept slot value))
      (A.during u k p r (t.accept slot value w).2)) ∧
    ∃ asked : List Nat, asked.Nodup ∧ asked.toFinset = Finset.range size ∧
      List.Forall₂ (fun a => A.Awaits u k (A.shows (t.accept slot value w).2)
        fun x s => .accept slot value (.ok x) ∈ s.calls a) asked (t.accept slot value w).1
  notify : ∀ slot value w p r, r.slot = slot → r.stage = .ended (.ok value) →
    A.Reaches (A.during u k p r w) (A.during u k p r (t.notify slot value w))

variable {A}

lemma Drifts.grows {w w' : ω} (h : A.Drifts u k w w') : (A.shows w).Grows (A.shows w') := by
  have hg := A.grows (h ⟨u, quorum, 0⟩ ⟨u, ⟨0, u⟩, ⟨0⟩, [], .ended (.error .malformedText)⟩)
  exact ⟨hg.calls, hg.sent⟩

/-- A step from one state of the round and its proposer to another. -/
lemma reaches_during {w : ω} {p p' : Proposer} {r r' : Round}
    (h : Step view quorum size ((A.shows w).running u k p r) ((A.shows w).running u k p' r')) :
    A.Reaches (A.during u k p r w) (A.during u k p' r' w) :=
  A.lift w h fun _ => quiet_running

/-- Gathering answers is to hear one after the other, in either phase: induction on the answers
still to come. `stage` is what the round is like while it waits. -/
lemma gather_reaches {said : Nat → α → Assembly σ → Prop}
    (agrees : α → Bool) (total required : Nat) (p : Proposer) (r : Round)
    (stage : Finset Nat → Tally α → Stage)
    (hear : ∀ e awaited tally a answer, Tally.Undecided total required tally → a ∈ awaited →
      (∀ x, answer = some x → said a x e) →
      Step view quorum size (e.running u k p { r with stage := stage awaited tally })
        (e.running u k p { r with
          stage := stage (awaited.erase a) (tally.add agrees answer) }))
    {e : Assembly σ} {asked : List Nat} {answers : List (ω → Option α × ω)}
    (hawaits : List.Forall₂ (fun a => A.Awaits u k e (said a)) asked answers)
    (hnodup : asked.Nodup) {w : ω} (hw : e.Grows (A.shows w)) (tally : Tally α) :
    ∃ awaited, A.Reaches
        (A.during u k p { r with stage := stage asked.toFinset tally } w)
        (A.during u k p { r with
          stage := stage awaited (Tally.gather agrees total required tally w answers).1 }
          (Tally.gather agrees total required tally w answers).2) ∧
      e.Grows (A.shows (Tally.gather agrees total required tally w answers).2) ∧
      (¬(Tally.gather agrees total required tally w answers).1.Undecided total required ∨
        awaited = ∅) := by
  induction hawaits generalizing w tally with
  | nil => exact ⟨∅, A.refl _, hw, .inr rfl⟩
  | @cons a await asked answers hawait _ ih =>
    obtain ⟨hfresh, hnodup⟩ := List.nodup_cons.mp hnodup
    unfold Tally.gather
    split
    · rename_i hundecided
      have hdrifts := hawait.drifts w hw
      have hnext := hw.trans hdrifts.grows
      obtain ⟨awaited, hrest, hlast, hclosed⟩ := ih hnodup hnext (tally.add agrees (await w).1)
      have hheard := hear (A.shows (await w).2) (a :: asked).toFinset tally a (await w).1 hundecided
        (by simp) (hawait.said w · hw)
      have herase : (a :: asked).toFinset.erase a = asked.toFinset := by
        rw [List.toFinset_cons, Finset.erase_insert (by simpa using hfresh)]
      rw [herase] at hheard
      exact ⟨awaited, A.trans (A.trans (hdrifts p _) (reaches_during hheard)) hrest, hlast, hclosed⟩
    · rename_i hdecided
      exact ⟨_, A.refl _, hw, .inl hdecided⟩

variable {t : Transport ω}

/-- The second phase, from the sending of the value to the telling of the learners. -/
lemma acceptPhase_reaches (hc : A.Carries u k t) {p p' : Proposer} {r : Round}
    (hr : u = r.proposer) {value : ProposalValue} {outcome : Except Failure ProposalValue}
    {w w' : ω} (h : p.acceptPhase t r.slot value w = (outcome, p', w')) :
    A.Reaches
      (w, ((A.shows w).running u k p { r with
        stage := .accepting value (Finset.range size) Tally.empty }).send (.accept r.slot value))
      (A.during u k p' { r with stage := .ended outcome } w') := by
  subst hr
  obtain ⟨hsent, asked, hnodup, hasked, hawaits⟩ := hc.accept r.slot value w
  unfold Proposer.acceptPhase at h
  rcases ha : t.accept r.slot value w with ⟨answers, w₁⟩
  rw [ha] at hsent hawaits h
  obtain ⟨awaited, hgathered, _, hclosed⟩ := gather_reaches (·.accepted)
    p.quorum.acceptors.toNat p.quorum.accept.toNat p r (.accepting value)
    (fun e awaited tally a answer hundecided hmem hheard => by
      have hstep : Step view quorum size _ _ := .hearAcceptance k a answer
        (rounds_running e _ k p { r with stage := .accepting value awaited tally }) rfl
        (proposers_running ..) hundecided hmem hheard
      rwa [setRound_running] at hstep)
    hawaits hnodup (Grows.refl _) Tally.empty
  rw [hasked] at hgathered
  dsimp only at h hgathered hclosed
  rcases hg : Tally.gather (·.accepted) p.quorum.acceptors.toNat p.quorum.accept.toNat Tally.empty
    w₁ answers with ⟨tally, w₂⟩
  rw [hg] at hgathered hclosed h
  dsimp only at h hgathered hclosed
  rcases hp : p.afterAccept r.slot value tally with ⟨result, after⟩
  have hfinish : Step view quorum size _ _ := .finish k
    (rounds_running (A.shows w₂) _ k p { r with stage := .accepting value awaited tally }) rfl
    (proposers_running ..) hclosed hp
  dsimp only at hfinish
  rw [setProposer_running, setRound_running] at hfinish
  have hended := A.trans (A.trans (hsent p _) hgathered) (reaches_during hfinish)
  rw [hp] at h
  cases result with
  | error e =>
    cases h
    exact hended
  | ok v =>
    cases h
    exact A.trans hended (hc.notify r.slot v w₂ _ _ rfl rfl)

/-- A round that a proposer runs is a round of the system, with the same outcome. -/
theorem propose_reaches (hc : A.Carries u k t) {p q p' : Proposer} {id : ProposalId}
    (hn : p.nextId = .ok (id, q)) {slot : Slot} {own : Payload}
    {outcome : Except Failure ProposalValue} {w w' : ω}
    (h : p.propose t slot own w = (outcome, p', w')) :
    ∃ r : Round, r.slot = slot ∧ r.own = own ∧ r.stage = .ended outcome ∧
      A.Reaches (w, ((A.shows w).setProposer u p).begin size k u q id slot own)
        (A.during u k p' r w') := by
  let r : Round := ⟨u, id, slot, own, .preparing (Finset.range size) Tally.empty⟩
  have hbegun : ((A.shows w).setProposer u p).begin size k u q id slot own =
      ((A.shows w).running u k q r).send (.prepare slot id) := by
    simp only [begin, running, setProposer, Function.update_idem, r]
  rw [hbegun]
  obtain ⟨hsent, asked, hnodup, hasked, hawaits⟩ := hc.prepare slot id w
  unfold Proposer.propose at h
  rcases ha : t.prepare slot id w with ⟨answers, w₁⟩
  simp only [hn, ha] at h
  rw [ha] at hsent hawaits
  obtain ⟨awaited, hgathered, _, hclosed⟩ := gather_reaches (·.accepted)
    q.quorum.acceptors.toNat q.quorum.prepare.toNat q r .preparing
    (fun e awaited tally a answer hundecided hmem hheard => by
      have hstep : Step view quorum size _ _ := .hearPromise k a answer
        (rounds_running e u k q { r with stage := .preparing awaited tally }) rfl
        (proposers_running ..) hundecided hmem hheard
      rwa [setRound_running] at hstep)
    hawaits hnodup (Grows.refl _) Tally.empty
  rw [hasked] at hgathered
  dsimp only at h hgathered hclosed
  rcases hg : Tally.gather (·.accepted) q.quorum.acceptors.toNat q.quorum.prepare.toNat Tally.empty
    w₁ answers with ⟨tally, w₂⟩
  rw [hg] at hgathered hclosed h
  dsimp only at h hgathered hclosed
  have hprepared := A.trans (hsent q r) hgathered
  rcases hp : q.afterPrepare slot id own tally with ⟨e | value, after⟩
  · have hgiveUp : Step view quorum size _ _ := .giveUp k
      (rounds_running (A.shows w₂) u k q { r with stage := .preparing awaited tally }) rfl
      (proposers_running ..) hclosed hp
    dsimp only at hgiveUp
    rw [setProposer_running, setRound_running] at hgiveUp
    rw [hp] at h
    cases h
    exact ⟨_, rfl, rfl, rfl, A.trans hprepared (reaches_during hgiveUp)⟩
  · have hoffer : Step view quorum size _ _ := .offer k
      (rounds_running (A.shows w₂) u k q { r with stage := .preparing awaited tally }) rfl
      (proposers_running ..) hclosed hp
    dsimp only at hoffer
    rw [setProposer_running, setRound_running] at hoffer
    rw [hp] at h
    have hoffered := A.lift w₂ hoffer fun _ hl =>
      quiet_running (p := q) (r := { r with stage := .preparing awaited tally }) hl
    have haccept := acceptPhase_reaches hc (p := after) (r := r) rfl h
    exact ⟨_, rfl, rfl, rfl, A.trans (A.trans hprepared hoffered) haccept⟩

end Arena

open Arena

/-- What a proposer returns has been chosen. -/
theorem chosen_of_propose {shows : ω → Assembly σ} {t : Transport ω}
    (hc : (alone view quorum size shows).Carries u k t) {p p' : Proposer} {slot : Slot}
    {own : Payload} {v : ProposalValue} {w w' : ω}
    (hw : Reachable view quorum size ((shows w).setProposer u p))
    (hunused : (shows w).rounds k = none) (h : p.propose t slot own w = (.ok v, p', w')) :
    ∃ r, Reachable view quorum size ((shows w').running u k p' r) ∧
      .accept slot v ∈ (shows w').sent ∧ (shows w').Chosen quorum size slot v := by
  obtain ⟨stores, hstores, hinit⟩ := hw
  rcases hn : p.nextId with e | ⟨id, q⟩
  · rw [Proposer.propose_of_spent hn] at h
    cases h
  obtain ⟨r, hslot, _, hstage, hreaches⟩ := propose_reaches hc hn h
  have hstart : Step view quorum size ((shows w).setProposer u p) _ :=
    .start k u slot own hunused (Function.update_self ..) hn
  have hlater : Reachable view quorum size ((shows w').running u k p' r) :=
    ⟨stores, hstores, (hinit.tail hstart).trans hreaches⟩
  have hchosen := hlater.lawful.chosen_of_ended (rounds_running ..) hstage
  rw [hslot] at hchosen
  exact ⟨r, hlater, hchosen⟩

/-- Two proposers that succeed for one slot return the same payload. The first to return has done
so in the past of the other one's world; otherwise they may have run at the same time. -/
theorem propose_agree {ω' : Type} {t : Transport ω} {t' : Transport ω'}
    {shows : ω → Assembly σ} {shows' : ω' → Assembly σ} {u' : String} {k' : Nat}
    (hc : (alone view quorum size shows).Carries u k t)
    (hc' : (alone view quorum size shows').Carries u' k' t')
    {p q p' q' : Proposer} {slot : Slot} {own own' : Payload} {v v' : ProposalValue}
    {w x : ω} {w' x' : ω'}
    (hw : Reachable view quorum size ((shows w).setProposer u p))
    (hw' : Reachable view quorum size ((shows' w').setProposer u' p'))
    (hunused : (shows w).rounds k = none) (hunused' : (shows' w').rounds k' = none)
    (h : p.propose t slot own w = (.ok v, q, x))
    (h' : p'.propose t' slot own' w' = (.ok v', q', x'))
    (hpast : (shows x).Grows (shows' x')) : v.payload = v'.payload := by
  obtain ⟨_, _, hsent, hchosen⟩ := chosen_of_propose hc hw hunused h
  obtain ⟨r, hlater, hsent', hchosen'⟩ := chosen_of_propose hc' hw' hunused' h'
  exact hlater.lawful.chosen_payload_eq ⟨hpast.sent hsent, hchosen.mono hpast⟩ ⟨hsent', hchosen'⟩

/-- A transport without delays or losses: an acceptor handles its request when the answer is
awaited. -/
def direct (view : StoreView σ) (size : Nat) : Transport (Assembly σ) where
  prepare slot id s :=
    ((List.range size).map fun a s =>
      (((s.acceptors a).prepare slot id).1.toOption,
        s.act a (.request (.prepare slot id) : Acceptor.Event view)),
      s.send (.prepare slot id))
  accept slot value s :=
    ((List.range size).map fun a s =>
      (((s.acceptors a).accept slot value).1.toOption,
        s.act a (.request (.accept slot value) : Acceptor.Event view)),
      s.send (.accept slot value))
  notify _ _ s := s

lemma eq_ok_of_toOption {e : Except Failure α} {x : α} (h : e.toOption = some x) : e = .ok x := by
  cases e <;> cases h
  rfl

namespace Arena

/-- A world with a part that is an assembly and can be exchanged, to let it send a request or let an
acceptor act beside the round. What has been sent and answered is the same in what the world shows. -/
structure Moves (A : Arena view quorum size ω) (u : String) (k : Nat)
    (part : ω → Assembly σ) (put : ω → Assembly σ → ω) : Prop where
  part_put : ∀ w a, part (put w a) = a
  put_part : ∀ w, put w (part w) = w
  calls : ∀ w, (A.shows w).calls = (part w).calls
  sent : ∀ w, (A.shows w).sent = (part w).sent
  send : ∀ w q p r, A.Reaches (w, ((A.shows w).running u k p r).send q)
    (A.during u k p r (put w ((part w).send q)))
  act : ∀ w a (e : Acceptor.Event view), a < size →
    (∀ q, e.request? = some q → q ∈ (A.shows w).sent) → A.Drifts u k w (put w ((part w).act a e))

variable {A : Arena view quorum size ω} {part : ω → Assembly σ} {put : ω → Assembly σ → ω}

/-- An acceptor answers by handling its request. -/
lemma Moves.awaits (h : A.Moves u k part put) {a : Nat} (ha : a < size) {q : Request}
    {e : Assembly σ} (hq : q ∈ e.sent) {answer : ω → Option α} {said : α → Assembly σ → Prop}
    (hsaid : ∀ w x, answer w = some x →
      said x (A.shows (put w ((part w).act a (.request q : Acceptor.Event view))))) :
    A.Awaits u k e said fun w =>
      (answer w, put w ((part w).act a (.request q : Acceptor.Event view))) where
  drifts w hw := by
    refine h.act w a _ ha fun q' hq' => ?_
    cases hq'
    exact hw.sent hq
  said w x _ hx := hsaid w x hx

theorem Moves.carries_direct (h : A.Moves u k part put) :
    A.Carries u k ((direct view size).within part put) where
  prepare slot id w := by
    refine ⟨h.send w _, List.range size, List.nodup_range, ?_, ?_⟩
    · ext a
      simp
    · simp only [direct, Transport.within, List.map_map, List.forall₂_map_right_iff,
        List.forall₂_same, List.mem_range, Function.comp_apply]
      intro a ha
      have hsent : .prepare slot id ∈ (A.shows (put w ((part w).send (.prepare slot id)))).sent := by
        rw [h.sent, h.part_put]
        exact List.mem_cons_self
      refine h.awaits ha hsent fun w' x hx => ?_
      simp [h.calls, h.part_put, Assembly.act, Acceptor.meet, Acceptor.serve, eq_ok_of_toOption hx]
  accept slot value w := by
    refine ⟨h.send w _, List.range size, List.nodup_range, ?_, ?_⟩
    · ext a
      simp
    · simp only [direct, Transport.within, List.map_map, List.forall₂_map_right_iff,
        List.forall₂_same, List.mem_range, Function.comp_apply]
      intro a ha
      have hsent : .accept slot value ∈ (A.shows (put w ((part w).send (.accept slot value)))).sent := by
        rw [h.sent, h.part_put]
        exact List.mem_cons_self
      refine h.awaits ha hsent fun w' x hx => ?_
      simp [h.calls, h.part_put, Assembly.act, Acceptor.meet, Acceptor.serve, eq_ok_of_toOption hx]
  notify slot value w p r _ _ := by
    simp only [direct, Transport.within, h.put_part]
    exact A.refl _

theorem moves_alone : (alone view quorum size id).Moves u k id fun _ a => a where
  part_put _ _ := rfl
  put_part _ := rfl
  calls _ := rfl
  sent _ := rfl
  send _ _ _ _ := .refl
  act w a e ha hasked p r := by
    have hstep : Step view quorum size (w.running u k p r) ((w.running u k p r).act a e) :=
      .act a e ha hasked
    exact .single hstep

end Arena
end Assembly
end Synod
