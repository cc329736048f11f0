import Synod.Proofs.Account
import Synod.Proofs.Assembly
import Synod.Proofs.Rounds

/-!
# What holds in every assembly

Ids are never used twice, every value offered has a quorum of promises for its id behind it, and
every acceptor accounts for its calls. All of this holds at the start, and every step keeps it.
-/
namespace Synod
variable {σ : Type}

/-- A quorum of promises stands behind a value: its payload is what they resolve to. -/
def Assembly.Supported (quorum : Quorum) (size : Nat) (s : Assembly σ) (slot : Slot)
    (v : ProposalValue) (own : Payload) : Prop :=
  ∃ promises, v.payload = resolvePayload promises own ∧
    (∀ p ∈ promises, ∃ a, s.Promised slot v.id a p) ∧
    ∃ voters : Finset Nat, quorum.prepare.toNat ≤ voters.card ∧
      ∀ a ∈ voters, a < size ∧ ∃ p ∈ promises, s.Promised slot v.id a p

namespace Stage

/-- A round in its first phase has not offered a value. -/
def Silent : Stage → Prop
  | preparing _ _ => True
  | _ => False

/-- The tally of a round consists of answers to that round. A round that succeeded has had its
value chosen; one that did not has missed a quorum. -/
def Sound (quorum : Quorum) (size : Nat) (s : Assembly σ) (slot : Slot) (id : ProposalId) :
    Stage → Prop
  | preparing awaited tally => Gathered size (s.Promised slot id) awaited tally.agreed
  | accepting value awaited tally =>
    value.id = id ∧ .accept slot value ∈ s.sent ∧
      Gathered size (s.Accepted slot value) awaited tally.agreed
  | ended (.ok value) => .accept slot value ∈ s.sent ∧ s.Chosen quorum size slot value
  | ended (.error e) => e.isRoundFailure = true

end Stage

variable {quorum : Quorum} {size : Nat} {s t : Assembly σ}

lemma Assembly.Supported.mono (hg : s.Grows t) {slot : Slot} {v : ProposalValue} {own : Payload}
    (h : s.Supported quorum size slot v own) : t.Supported quorum size slot v own := by
  obtain ⟨promises, hpayload, hsource, voters, hcard, hvoters⟩ := h
  refine ⟨promises, hpayload, fun p hp => ?_, voters, hcard, fun a ha => ?_⟩
  · obtain ⟨a, ha⟩ := hsource p hp
    exact ⟨a, ha.mono hg⟩
  · obtain ⟨hlt, p, hp, hpromised⟩ := hvoters a ha
    exact ⟨hlt, p, hp, hpromised.mono hg⟩

lemma Stage.Sound.mono (hg : s.Grows t) {slot : Slot} {id : ProposalId}
    {stage : Stage} (h : stage.Sound quorum size s slot id) : stage.Sound quorum size t slot id := by
  rcases stage with ⟨awaited, tally⟩ | ⟨value, awaited, tally⟩ | ⟨e | value⟩
  · exact Gathered.mono h fun _ _ hp => hp.mono hg
  · exact ⟨h.1, hg.sent h.2.1, h.2.2.mono fun _ _ hx => hx.mono hg⟩
  · exact h
  · exact ⟨hg.sent h.1, h.2.mono hg⟩

namespace Assembly
open RecordStore

/-- When a round changes its stage, every round is one that was there before, but for its stage. -/
lemma rounds_restage {k l : Nat} {r r' : Round} {stage : Stage} (hr : s.rounds k = some r)
    (h : (s.setRound k { r with stage }).rounds l = some r') :
    ∃ old, s.rounds l = some old ∧ r'.id = old.id ∧ r'.proposer = old.proposer := by
  rcases rounds_setRound h with ⟨rfl, rfl⟩ | ⟨_, h⟩
  · exact ⟨r, hr, rfl, rfl⟩
  · exact ⟨r', h, rfl, rfl⟩

/-- Rounds that had different ids still have when one of them changes its stage. -/
lemma distinct_restage (h : ∀ l₁ l₂ r₁ r₂, s.rounds l₁ = some r₁ → s.rounds l₂ = some r₂ →
      r₁.id = r₂.id → l₁ = l₂) {k l₁ l₂ : Nat} {r r₁ r₂ : Round} {stage : Stage}
    (hr : s.rounds k = some r) (hr₁ : (s.setRound k { r with stage }).rounds l₁ = some r₁)
    (hr₂ : (s.setRound k { r with stage }).rounds l₂ = some r₂) (hid : r₁.id = r₂.id) :
    l₁ = l₂ := by
  obtain ⟨old₁, hold₁, hid₁, _⟩ := rounds_restage hr hr₁
  obtain ⟨old₂, hold₂, hid₂, _⟩ := rounds_restage hr hr₂
  exact h l₁ l₂ old₁ old₂ hold₁ hold₂ (by rw [← hid₁, ← hid₂, hid])

/-- Neither does a new round share its id, if that is new. -/
lemma distinct_addRound (h : ∀ l₁ l₂ r₁ r₂, s.rounds l₁ = some r₁ → s.rounds l₂ = some r₂ →
      r₁.id = r₂.id → l₁ = l₂) {k l₁ l₂ : Nat} {r r₁ r₂ : Round}
    (hnew : ∀ l r', s.rounds l = some r' → r'.id ≠ r.id)
    (hr₁ : (s.setRound k r).rounds l₁ = some r₁) (hr₂ : (s.setRound k r).rounds l₂ = some r₂)
    (hid : r₁.id = r₂.id) : l₁ = l₂ := by
  rcases rounds_setRound hr₁ with ⟨rfl, rfl⟩ | ⟨_, hold₁⟩ <;>
    rcases rounds_setRound hr₂ with ⟨rfl, rfl⟩ | ⟨_, hold₂⟩
  · rfl
  · exact absurd hid.symm (hnew _ _ hold₂)
  · exact absurd hid (hnew _ _ hold₁)
  · exact h _ _ _ _ hold₁ hold₂ hid

/-- A proposer is still past an id when a counter has moved on. -/
lemma past_setProposer {u v : String} {p : Proposer} {round : UInt64}
    (hnext : ∀ old, s.proposers u = some old → old.nextRound ≤ p.nextRound)
    (h : ∃ q, s.proposers v = some q ∧ round < q.nextRound) :
    ∃ q, (s.setProposer u p).proposers v = some q ∧ round < q.nextRound := by
  obtain ⟨q, hq, hlt⟩ := h
  by_cases hv : v = u
  · subst hv
    exact ⟨p, Function.update_self .., UInt64.lt_of_lt_of_le hlt (hnext q hq)⟩
  · exact ⟨q, (Function.update_of_ne hv ..).trans hq, hlt⟩

/-- An id that is handed out has not been in use: its proposer is past all its ids in use. -/
lemma id_ne_of_nextId {r : Round} {p after : Proposer} {id : ProposalId}
    (hused : r.id.tiebreaker = r.proposer ∧
      ∃ p, s.proposers r.proposer = some p ∧ r.id.round < p.nextRound)
    (hknown : s.proposers p.uuid = some p) (hfresh : p.nextId = .ok (id, after)) : r.id ≠ id := by
  rintro rfl
  obtain ⟨htie, q, hq, hlt⟩ := hused
  obtain ⟨hid, _⟩ := Proposer.nextId_spec hfresh
  rw [hid] at htie hlt
  rw [← htie, hknown] at hq
  cases hq
  exact UInt64.lt_irrefl _ hlt

lemma Accepted.acknowledged {slot : Slot} {v : ProposalValue} {a : Nat} {x : Acceptance}
    (hx : s.Accepted slot v a x) : Call.Acknowledged slot v (s.calls a) :=
  ⟨_, hx.1, rfl, by simp [Call.acknowledged?, hx.2]⟩

variable [RecordStore σ] {view : StoreView σ}

/-- Whatever an acceptor is asked to do has been sent, and it accounts for that. -/
lemma accounts_act {a : Nat} {e : Acceptor.Event view}
    (h : ∀ b, (s.acceptors b).Accounts view s.sent (s.calls b))
    (he : ∀ r, e.request? = some r → r ∈ s.sent) (b : Nat) :
    ((s.act a e).acceptors b).Accounts view s.sent ((s.act a e).calls b) := by
  by_cases hb : b = a
  · subst hb
    simp only [Assembly.act, Function.update_self]
    exact Acceptor.accounts_meet (h b) he
  · simp only [Assembly.act, Function.update_of_ne hb]
    exact h b

/-- The invariant of all assemblies. -/
structure Lawful (view : StoreView σ) (quorum : Quorum) (size : Nat) (s : Assembly σ) : Prop where
  accounts : ∀ a, (s.acceptors a).Accounts view s.sent (s.calls a)
  named : ∀ {u p}, s.proposers u = some p →
    quorum.acceptors.toNat = size ∧ p.uuid = u ∧ p.quorum = quorum
  /-- Every id in use is its proposer's own, and its proposer is past it. -/
  used : ∀ {k r}, s.rounds k = some r → r.id.tiebreaker = r.proposer ∧
    ∃ p, s.proposers r.proposer = some p ∧ r.id.round < p.nextRound
  distinct : ∀ {k l r r'}, s.rounds k = some r → s.rounds l = some r' → r.id = r'.id → k = l
  staged : ∀ {k r}, s.rounds k = some r → r.stage.Sound quorum size s r.slot r.id
  offers : ∀ {slot v}, .accept slot v ∈ s.sent → v.slot = slot ∧
    ∃ k r, s.rounds k = some r ∧ r.id = v.id ∧ r.slot = slot ∧ ¬r.stage.Silent ∧
      s.Supported quorum size slot v r.own
  unique : ∀ {slot slot' v v'}, .accept slot v ∈ s.sent → .accept slot' v' ∈ s.sent →
    v.id = v'.id → v = v'

theorem lawful_init {stores : Nat → σ} (h : ∀ a, view.held (stores a) = fun _ => none) :
    Lawful view quorum size (init stores) where
  accounts a := Acceptor.accounts_start (h a)
  named h := by cases h
  used h := by cases h
  distinct h := by cases h
  staged h := by cases h
  offers h := by cases h
  unique h := by cases h

namespace Lawful

/-- A proposer joins, or its counter moves on. -/
lemma setProposer (h : Lawful view quorum size s) {u : String} {p : Proposer}
    (hp : quorum.acceptors.toNat = size ∧ p.uuid = u ∧ p.quorum = quorum)
    (hnext : ∀ old, s.proposers u = some old → old.nextRound ≤ p.nextRound) :
    Lawful view quorum size (s.setProposer u p) := by
  have hg := grows_setProposer s u p
  constructor
  case accounts => exact h.accounts
  case named =>
    intro v q hq
    rcases proposers_setProposer hq with ⟨rfl, rfl⟩ | ⟨_, hq⟩
    · exact hp
    · exact h.named hq
  case used =>
    intro k r hr
    obtain ⟨htie, hpast⟩ := h.used hr
    exact ⟨htie, past_setProposer hnext hpast⟩
  case distinct => exact h.distinct
  case staged =>
    intro k r hr
    exact (h.staged hr).mono hg
  case offers =>
    intro slot v hv
    obtain ⟨hslot, k, r, hr, hid, hs, hloud, hsup⟩ := h.offers hv
    exact ⟨hslot, k, r, hr, hid, hs, hloud, hsup.mono hg⟩
  case unique => exact h.unique

/-- A proposer that is there already moves its counter on. -/
lemma follow (h : Lawful view quorum size s) {u : String} {p q : Proposer}
    (hp : s.proposers u = some p) (hq : p.Follows q) :
    Lawful view quorum size (s.setProposer u q) := by
  obtain ⟨hsize, huuid, hquorum⟩ := h.named hp
  refine h.setProposer ⟨hsize, hq.uuid.trans huuid, hq.quorum.trans hquorum⟩ fun old hold => ?_
  rw [hp] at hold
  cases hold
  exact hq.nextRound

/-- A round gets further, without offering anything. -/
lemma setStage (h : Lawful view quorum size s) {k : Nat} {r : Round} (hr : s.rounds k = some r)
    {stage : Stage} (hsound : stage.Sound quorum size s r.slot r.id)
    (hsilent : stage.Silent → r.stage.Silent) :
    Lawful view quorum size (s.setRound k { r with stage }) := by
  have hg := grows_setRound s k { r with stage }
  constructor
  case accounts => exact h.accounts
  case named => exact h.named
  case used =>
    intro l r' hr'
    obtain ⟨old, hold, hid, hproposer⟩ := rounds_restage hr hr'
    rw [hid, hproposer]
    exact h.used hold
  case distinct =>
    intro l₁ l₂ r₁ r₂ hr₁ hr₂ hid
    exact distinct_restage (fun _ _ _ _ => h.distinct) hr hr₁ hr₂ hid
  case staged =>
    intro l r' hr'
    rcases rounds_setRound hr' with ⟨rfl, rfl⟩ | ⟨_, hr'⟩
    · exact hsound.mono hg
    · exact (h.staged hr').mono hg
  case offers =>
    intro slot v hv
    obtain ⟨hslot, l, r', hr', hid, hs, hloud, hsup⟩ := h.offers hv
    by_cases hl : l = k
    · subst hl
      rw [hr] at hr'
      cases hr'
      exact ⟨hslot, l, _, setRound_self s l _, hid, hs, fun hs => hloud (hsilent hs), hsup.mono hg⟩
    · exact ⟨hslot, l, r', (setRound_of_ne s hl _).trans hr', hid, hs, hloud, hsup.mono hg⟩
  case unique => exact h.unique

lemma act (h : Lawful view quorum size s) {a : Nat} {e : Acceptor.Event view}
    (he : ∀ r, e.request? = some r → r ∈ s.sent) : Lawful view quorum size (s.act a e) := by
  have hg := grows_act s a e
  constructor
  case accounts => exact accounts_act h.accounts he
  case named => exact h.named
  case used => exact h.used
  case distinct => exact h.distinct
  case staged =>
    intro k r hr
    exact (h.staged hr).mono hg
  case offers =>
    intro slot v hv
    obtain ⟨hslot, k, r, hr, hid, hs, hloud, hsup⟩ := h.offers hv
    exact ⟨hslot, k, r, hr, hid, hs, hloud, hsup.mono hg⟩
  case unique => exact h.unique

/-- A round begins under an id that no other round has. -/
lemma start (h : Lawful view quorum size s) {k : Nat} {r : Round} {p : Proposer}
    (hunused : s.rounds k = none) (hknown : s.proposers r.proposer = some p)
    (htie : r.id.tiebreaker = r.proposer) (hlt : r.id.round < p.nextRound)
    (hnew : ∀ l r', s.rounds l = some r' → r'.id ≠ r.id)
    (hstage : r.stage = .preparing (Finset.range size) Tally.empty) :
    Lawful view quorum size ((s.setRound k r).send (.prepare r.slot r.id)) := by
  have hg := (grows_setRound s k r).trans (grows_send _ (.prepare r.slot r.id))
  have hcarry : ∀ {slot v}, .accept slot v ∈ ((s.setRound k r).send (.prepare r.slot r.id)).sent →
      .accept slot v ∈ s.sent := by
    intro slot v hv
    rcases List.mem_cons.mp hv with hv | hv
    · cases hv
    · exact hv
  constructor
  case accounts =>
    intro a
    exact (h.accounts a).mono hg.sent
  case named => exact h.named
  case used =>
    intro l r' hr'
    rcases rounds_setRound hr' with ⟨rfl, rfl⟩ | ⟨_, hr'⟩
    · exact ⟨htie, p, hknown, hlt⟩
    · exact h.used hr'
  case distinct =>
    intro l₁ l₂ r₁ r₂ hr₁ hr₂ hid
    exact distinct_addRound (fun _ _ _ _ => h.distinct) hnew hr₁ hr₂ hid
  case staged =>
    intro l r' hr'
    rcases rounds_setRound hr' with ⟨rfl, rfl⟩ | ⟨_, hr'⟩
    · rw [hstage]
      exact Gathered.empty
    · exact (h.staged hr').mono hg
  case offers =>
    intro slot v hv
    obtain ⟨hslot, l, r', hr', hid, hs, hloud, hsup⟩ := h.offers (hcarry hv)
    have hl : l ≠ k := by
      rintro rfl
      rw [hunused] at hr'
      cases hr'
    exact ⟨hslot, l, r', (setRound_of_ne s hl r).trans hr', hid, hs, hloud, hsup.mono hg⟩
  case unique =>
    intro slot slot' v v' hv hv' hid
    exact h.unique (hcarry hv) (hcarry hv') hid

/-- A round that was silent so far offers the value that its promises allow. -/
lemma offer (h : Lawful view quorum size s) {k : Nat} {r : Round} (hr : s.rounds k = some r)
    (hsilent : r.stage.Silent) {v : ProposalValue} (hid : v.id = r.id) (hslot : v.slot = r.slot)
    (hsup : s.Supported quorum size r.slot v r.own) :
    Lawful view quorum size ((s.setRound k { r with
      stage := .accepting v (Finset.range size) Tally.empty }).send (.accept r.slot v)) := by
  set r₁ : Round := { r with stage := .accepting v (Finset.range size) Tally.empty } with hr₁
  set t := (s.setRound k r₁).send (.accept r.slot v) with ht
  have hg : Grows s t := (grows_setRound s k r₁).trans (grows_send _ _)
  have hsent : .accept r.slot v ∈ t.sent := List.mem_cons_self
  -- an older offer under the same id would have come from this very round, which was silent
  have hfirst : ∀ {slot v'}, .accept slot v' ∈ s.sent → v'.id ≠ v.id := by
    intro slot v' hv' hsame
    obtain ⟨_, l, r', hr', hid', _, hloud, _⟩ := h.offers hv'
    have hl := h.distinct hr' hr (by rw [hid', hsame, hid])
    subst hl
    rw [hr] at hr'
    cases hr'
    exact hloud hsilent
  constructor
  case accounts =>
    intro a
    exact (h.accounts a).mono hg.sent
  case named => exact h.named
  case used =>
    intro l r' hr'
    obtain ⟨old, hold, hid, hproposer⟩ := rounds_restage hr hr'
    rw [hid, hproposer]
    exact h.used hold
  case distinct =>
    intro l₁ l₂ r₁ r₂ hr₁ hr₂ hid
    exact distinct_restage (fun _ _ _ _ => h.distinct) hr hr₁ hr₂ hid
  case staged =>
    intro l r' hr'
    rcases rounds_setRound hr' with ⟨rfl, rfl⟩ | ⟨_, hr'⟩
    · exact ⟨hid, hsent, Gathered.empty⟩
    · exact (h.staged hr').mono hg
  case offers =>
    intro slot w hw
    rcases List.mem_cons.mp hw with hw | hw
    · cases hw
      exact ⟨hslot, k, r₁, setRound_self s k r₁, hid.symm, rfl, id, hsup.mono hg⟩
    · obtain ⟨hslot', l, r', hr', hid', hs, hloud, hsup'⟩ := h.offers hw
      have hl : l ≠ k := by
        rintro rfl
        rw [hr] at hr'
        cases hr'
        exact hloud hsilent
      exact ⟨hslot', l, r', (setRound_of_ne s hl _).trans hr', hid', hs, hloud, hsup'.mono hg⟩
  case unique =>
    intro slot slot' w w' hw hw' hsame
    rcases List.mem_cons.mp hw with hw | hw <;> rcases List.mem_cons.mp hw' with hw' | hw'
    · cases hw
      cases hw'
      rfl
    · cases hw
      exact absurd hsame.symm (hfirst hw')
    · cases hw'
      exact absurd hsame (hfirst hw)
    · exact h.unique hw hw' hsame

/-- Every step keeps the invariant. -/
theorem step (h : Lawful view quorum size s) (hstep : Step view quorum size s t) :
    Lawful view quorum size t := by
  cases hstep with
  | join uuid floor unused made =>
    refine h.setProposer (Proposer.make_spec made) fun old hold => ?_
    rw [unused] at hold
    cases hold
  | start k uuid slot own unused known fresh =>
    obtain ⟨rfl, hfollows, hlt⟩ := Proposer.nextId_spec fresh
    obtain ⟨_, rfl, _⟩ := h.named known
    exact (h.follow known hfollows).start (r := ⟨_, _, slot, own, _⟩) unused
      (Function.update_self ..) rfl hlt (fun l r' hr' => id_ne_of_nextId (h.used hr') known fresh) rfl
  | overtake uuid seen known => exact h.follow known (Proposer.follows_fastForward _ seen)
  | act a e _ asked => exact h.act asked
  | hearPromise k a answer round stage known undecided awaits heard =>
    have hsound := h.staged round
    rw [stage] at hsound
    refine h.setStage round ?_ fun _ => by rw [stage]; trivial
    exact Gathered.hear hsound awaits fun x hx hagrees => ⟨heard x hx, hagrees⟩
  | hearAcceptance k a answer round stage known undecided awaits heard =>
    have hsound := h.staged round
    rw [stage] at hsound
    refine h.setStage round ⟨hsound.1, hsound.2.1, ?_⟩ fun hs => hs.elim
    exact hsound.2.2.hear awaits fun x hx hagrees => ⟨heard x hx, hagrees⟩
  | offer k round stage known decided closed =>
    obtain ⟨hfollows, hok, _⟩ := Proposer.afterPrepare_spec closed
    obtain ⟨hreached, rfl⟩ := hok _ rfl
    obtain ⟨_, _, hquorum⟩ := h.named known
    have hsound := h.staged round
    rw [stage] at hsound
    obtain ⟨voters, hcard, hvoters⟩ := hsound.voters
    refine (h.follow known hfollows).offer round (by rw [stage]; trivial) rfl rfl ?_
    refine ⟨_, rfl, hsound.source, voters, ?_, fun a ha => ?_⟩
    · rw [hcard, ← hquorum]
      exact hreached
    · obtain ⟨hlt, _, hpromise⟩ := hvoters a ha
      exact ⟨hlt, hpromise⟩
  | giveUp k round stage known decided closed =>
    obtain ⟨hfollows, _, herror⟩ := Proposer.afterPrepare_spec closed
    exact (h.follow known hfollows).setStage round (herror _ rfl) fun hs => hs.elim
  | @finish r p value awaited tally outcome after k round stage known decided closed =>
    obtain ⟨hfollows, hok, herror⟩ := Proposer.afterAccept_spec closed
    have hsound := h.staged round
    rw [stage] at hsound
    refine (h.follow known hfollows).setStage round ?_ fun hs => hs.elim
    cases outcome with
    | error e => exact herror e rfl
    | ok v =>
      obtain ⟨hreached, rfl⟩ := hok v rfl
      obtain ⟨_, _, hquorum⟩ := h.named known
      obtain ⟨voters, hcard, hvoters⟩ := hsound.2.2.voters
      refine ⟨hsound.2.1, voters, ?_, fun a ha => ?_⟩
      · rw [hcard, ← hquorum]
        exact hreached
      · obtain ⟨hlt, _, x, _, hx⟩ := hvoters a ha
        exact ⟨hlt, x, hx⟩

theorem reaches (h : Lawful view quorum size s) (hreaches : Reaches view quorum size s t) :
    Lawful view quorum size t := by
  induction hreaches with
  | refl => exact h
  | tail _ hstep ih => exact ih.step hstep

end Lawful

theorem Reachable.lawful (h : Reachable view quorum size s) : Lawful view quorum size s := by
  obtain ⟨stores, hstores, hreaches⟩ := h
  exact (lawful_init hstores).reaches hreaches

end Assembly
end Synod
