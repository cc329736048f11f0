import Synod.Proofs.Ledger
import Synod.Proofs.Validity

/-!
# The first commit wins

For every start timestamp there is one commit timestamp that all answers of all nodes go by, ever.
It is the one chosen in the slot of the start timestamp: what is chosen there is the payload of
some put, and whatever a node remembers, hears or answers has been chosen.
-/
namespace Synod
open RecordStore

variable {σ : Type}

theorem CommitService.encode_injective {c c' : UInt64} (h : encode c = encode c') : c = c' := by
  have hc := decode_encode ⟨0⟩ c
  rw [h, decode_encode] at hc
  exact (Except.ok.inj hc).symm

namespace Assembly
variable {quorum : Quorum} {size : Nat} {s t : Assembly σ}

/-- A commit timestamp has been chosen for a start timestamp. -/
def Decided (quorum : Quorum) (size : Nat) (s : Assembly σ) (start commit : UInt64) : Prop :=
  ∃ v, (.accept ⟨start⟩ v ∈ s.sent ∧ s.Chosen quorum size ⟨start⟩ v) ∧
    v.payload = CommitService.encode commit

lemma Decided.mono (hg : Grows s t) {start commit : UInt64}
    (h : s.Decided quorum size start commit) : t.Decided quorum size start commit := by
  obtain ⟨v, ⟨hoffered, hchosen⟩, hpayload⟩ := h
  exact ⟨v, ⟨hg.sent hoffered, hchosen.mono hg⟩, hpayload⟩

lemma Lawful.decided_unique [RecordStore σ] {view : StoreView σ} (h : Lawful view quorum size s)
    {start c c' : UInt64} (hc : s.Decided quorum size start c)
    (hc' : s.Decided quorum size start c') : c = c' := by
  obtain ⟨v, hv, hpayload⟩ := hc
  obtain ⟨w, hw, hpayload'⟩ := hc'
  refine CommitService.encode_injective ?_
  rw [← hpayload, ← hpayload', h.chosen_payload_eq hv hw]

end Assembly

namespace Ledger

/-- An answer goes by `D`, which says what has been decided. A put succeeds with what it brought,
and otherwise names what was decided instead; no answer finds an agreed payload malformed. -/
def Answer.Truthful (D : UInt64 → UInt64 → Prop) : Answer → Prop
  | put start commit (.ok ()) => D start commit
  | put start commit (.error (.failure (.keyAlreadyExists start' decided))) =>
    start' = start ∧ D start decided ∧ decided ≠ commit
  | put _ _ (.error (.failure (.malformedValue _))) => False
  | put _ _ (.error _) => True
  | get start (.ok found) => ∀ commit, found = some commit → D start commit
  | get _ (.error e) => ∀ slot, e ≠ .malformedValue slot
  | getMany (.ok found) => ∀ start commit, found.get? ⟨start⟩ = some commit → D start commit
  | getMany (.error e) => ∀ slot, e ≠ .malformedValue slot

lemma Answer.Truthful.mono {D D' : UInt64 → UInt64 → Prop} {a : Answer} (h : a.Truthful D)
    (hD : ∀ start commit, D start commit → D' start commit) : a.Truthful D' := by
  unfold Truthful at h ⊢
  split at h
  · exact hD _ _ h
  · exact ⟨h.1, hD _ _ h.2.1, h.2.2⟩
  · exact h
  · trivial
  · exact fun c hc => hD _ _ (h c hc)
  · exact h
  · exact fun start c hc => hD _ _ (h start c hc)
  · exact h

variable [RecordStore σ] {view : StoreView σ} {quorum : Quorum} {size : Nat} {s t : Ledger σ}

/-- The invariant: only commit timestamps are proposed, and what is known or said is decided. -/
structure Sound (view : StoreView σ) (quorum : Quorum) (size : Nat) (s : Ledger σ) : Prop where
  lawful : s.assembly.Lawful view quorum size
  own : ∀ {k r}, s.assembly.rounds k = some r → ∃ c, r.own = CommitService.encode c
  trying : ∀ {c put k}, s.puts c = some put → put.round = some k →
    ∃ r, s.assembly.rounds k = some r ∧ r.slot = ⟨put.start⟩
  known : ∀ {i node}, s.nodes i = some node →
    node.service.Knows (s.assembly.Decided quorum size)
  learned : ∀ {i node slot v}, s.nodes i = some node → node.learner.get? slot = some v →
    ∃ c, v.payload = CommitService.encode c ∧ s.assembly.Decided quorum size slot.sequence c
  found : ∀ {c q}, s.queries c = some q → ∀ start commit,
    q.found.get? ⟨start⟩ = some commit → s.assembly.Decided quorum size start commit
  told : ∀ {a}, a ∈ s.answers → a.Truthful (s.assembly.Decided quorum size)

theorem sound_init {stores : Nat → σ} (h : ∀ a, view.held (stores a) = fun _ => none) :
    Sound view quorum size (init stores) where
  lawful := Assembly.lawful_init h
  own h := by cases h
  trying h := by cases h
  known h := by cases h
  learned h := by cases h
  found h := by cases h
  told h := by cases h

namespace Sound

lemma setAssembly (h : Sound view quorum size s) {a : Assembly σ}
    (hl : a.Lawful view quorum size) (hg : s.assembly.Grows a)
    (hown : ∀ {k r}, a.rounds k = some r → ∃ c, r.own = CommitService.encode c)
    (hkeep : ∀ {k r}, s.assembly.rounds k = some r →
      ∃ r', a.rounds k = some r' ∧ r.Continues r') :
    Sound view quorum size (s.setAssembly a) where
  lawful := hl
  own := hown
  trying hp hk := by
    obtain ⟨r, hr, hslot⟩ := h.trying hp hk
    obtain ⟨r', hr', hcontinues⟩ := hkeep hr
    exact ⟨r', hr', hcontinues.slot.trans hslot⟩
  known hn := (h.known hn).mono fun _ _ hd => hd.mono hg
  learned hn hv := by
    obtain ⟨c, hpayload, hd⟩ := h.learned hn hv
    exact ⟨c, hpayload, hd.mono hg⟩
  found hq start commit hc := (h.found hq start commit hc).mono hg
  told ha := (h.told ha).mono fun _ _ hd => hd.mono hg

lemma setNode (h : Sound view quorum size s) {i : Nat} (node : Node)
    (hknown : node.service.Knows (s.assembly.Decided quorum size))
    (hlearned : ∀ {slot v}, node.learner.get? slot = some v →
      ∃ c, v.payload = CommitService.encode c ∧
        s.assembly.Decided quorum size slot.sequence c) :
    Sound view quorum size (s.setNode i node) := by
  have hnodes : ∀ {j node'}, (s.setNode i node).nodes j = some node' →
      node' = node ∨ s.nodes j = some node' := by
    intro j node' hj
    by_cases hi : j = i
    · subst hi
      simp only [Ledger.setNode, Function.update_self, Option.some.injEq] at hj
      exact .inl hj.symm
    · simp only [Ledger.setNode, Function.update_of_ne hi] at hj
      exact .inr hj
  refine ⟨h.lawful, h.own, h.trying, fun hn => ?_, fun hn hv => ?_, h.found, h.told⟩
  · rcases hnodes hn with rfl | hn
    · exact hknown
    · exact h.known hn
  · rcases hnodes hn with rfl | hn
    · exact hlearned hv
    · exact h.learned hn hv

lemma setPut (h : Sound view quorum size s) {c : Nat} {put? : Option Put}
    (htrying : ∀ {put k}, put? = some put → put.round = some k →
      ∃ r, s.assembly.rounds k = some r ∧ r.slot = ⟨put.start⟩) :
    Sound view quorum size (s.setPut c put?) := by
  refine ⟨h.lawful, h.own, fun {d put k} hp hk => ?_, h.known, h.learned, h.found, h.told⟩
  by_cases hd : d = c
  · subst hd
    simp only [Ledger.setPut, Function.update_self] at hp
    exact htrying hp hk
  · simp only [Ledger.setPut, Function.update_of_ne hd] at hp
    exact h.trying hp hk

lemma setQuery (h : Sound view quorum size s) {c : Nat} {q? : Option Query}
    (hfound : ∀ {q}, q? = some q → ∀ start commit, q.found.get? ⟨start⟩ = some commit →
      s.assembly.Decided quorum size start commit) :
    Sound view quorum size (s.setQuery c q?) := by
  refine ⟨h.lawful, h.own, h.trying, h.known, h.learned, fun {d q} hq => ?_, h.told⟩
  by_cases hd : d = c
  · subst hd
    simp only [Ledger.setQuery, Function.update_self] at hq
    exact hfound hq
  · simp only [Ledger.setQuery, Function.update_of_ne hd] at hq
    exact h.found hq

lemma answer (h : Sound view quorum size s) {a : Answer}
    (ha : a.Truthful (s.assembly.Decided quorum size)) : Sound view quorum size (s.answer a) :=
  ⟨h.lawful, h.own, h.trying, h.known, h.learned, h.found, fun hb => by
    rcases List.mem_cons.mp hb with rfl | hb
    · exact ha
    · exact h.told hb⟩

/-- A round that succeeded has decided its slot. -/
lemma decided_of_ended (h : Sound view quorum size s) {k : Nat} {r : Round} {v : ProposalValue}
    (hr : s.assembly.rounds k = some r) (hstage : r.stage = .ended (.ok v)) :
    ∃ c, v.payload = CommitService.encode c ∧
      s.assembly.Decided quorum size r.slot.sequence c := by
  have hchosen := h.lawful.chosen_of_ended hr hstage
  obtain ⟨l, r', hr', _, hown⟩ := h.lawful.payload_origin hchosen.1
  obtain ⟨c, hc⟩ := h.own hr'
  exact ⟨c, hown.trans hc, v, hchosen, hown.trans hc⟩

/-- A learner that cannot be reached is no malformed value. -/
lemma hears_error {node : Node} {lookup : Lookup} (hears : node.Hears lookup) {slot slot' : Slot}
    {w : Unit} : (lookup slot w).1 ≠ .error (.malformedValue slot') := by
  intro he
  rcases hears slot w with hheard | ⟨cause, hlost⟩
  · rw [hheard] at he
    cases he
  · rw [hlost] at he
    cases he

/-- What a node's learner tells is decided. -/
lemma trusted (h : Sound view quorum size s) {i : Nat} {node : Node} (hn : s.nodes i = some node)
    {lookup : Lookup} (hears : node.Hears lookup) :
    CommitService.Trusted (s.assembly.Decided quorum size) lookup := by
  intro start w v hv
  rcases hears ⟨start⟩ w with hheard | ⟨cause, hlost⟩
  · rw [hheard] at hv
    exact h.learned hn (Except.ok.inj hv)
  · rw [hlost] at hv
    cases hv

/-- A put that no round can help ends with a failure that says nothing about commits. -/
lemma answer_failed (h : Sound view quorum size s) {c made : Nat} {start commit : UInt64}
    {policy : RetryPolicy} {jitter : Jitter} {e : Failure} {f : Fault}
    (hverdict : policy.verdict jitter made e = some f)
    (he : e.isRoundFailure = true ∨ ∃ uuid, e = .roundsExhausted uuid) :
    Sound view quorum size ((s.setPut c none).answer (.put start commit (.error f))) := by
  refine (h.setPut fun hp => by cases hp).answer ?_
  rcases RetryPolicy.verdict_cases hverdict with ⟨o, rfl⟩ | ⟨cause, rfl⟩ | ⟨hround, rfl⟩
  · trivial
  · trivial
  · rcases he with he | ⟨uuid, rfl⟩
    · rw [he] at hround
      cases hround
    · trivial

/-- A put whose round succeeded: the payload agreed is that of a commit timestamp. -/
lemma settle (h : Sound view quorum size s) {c k : Nat} {put : Put} {node : Node} {r : Round}
    {v : ProposalValue} {outcome : Except Fault Unit} {service : CommitService}
    (hp : s.puts c = some put) (hk : put.round = some k) (hn : s.nodes put.node = some node)
    (hr : s.assembly.rounds k = some r) (hstage : r.stage = .ended (.ok v))
    (hsettled : node.service.settle put.start put.commit v.payload = (outcome, service)) :
    Sound view quorum size
      (((s.setNode put.node { node with service }).setPut c none).answer
        (.put put.start put.commit outcome)) := by
  obtain ⟨agreed, hpayload, hd⟩ := h.decided_of_ended hr hstage
  obtain ⟨r', hr', hslot⟩ := h.trying hp hk
  rw [hr] at hr'
  cases hr'
  rw [hslot] at hd
  rw [hpayload, CommitService.settle_encode, Prod.mk.injEq] at hsettled
  obtain ⟨rfl, rfl⟩ := hsettled
  have hnode := h.setNode (i := put.node) ⟨node.service.remember put.start agreed, node.learner⟩
    (CommitService.knows_remember (h.known hn) hd) fun hv => h.learned hn hv
  refine (hnode.setPut fun hp => by cases hp).answer ?_
  by_cases heq : agreed = put.commit
  · rw [if_pos heq]
    exact heq ▸ hd
  · rw [if_neg heq]
    exact ⟨rfl, hd, heq⟩

/-- Every step keeps the invariant. -/
theorem step (h : Sound view quorum size s) (hstep : Step view quorum size s t) :
    Sound view quorum size t := by
  cases hstep with
  | proceed step quiet =>
    refine h.setAssembly (h.lawful.step step) step.grows (fun {k r'} hr' => ?_) step.continues
    cases hr : s.assembly.rounds k with
    | none =>
      rw [quiet k hr] at hr'
      cases hr'
    | some r =>
      obtain ⟨r'', hr'', hcontinues⟩ := step.continues hr
      rw [hr'] at hr''
      cases hr''
      rw [hcontinues.own]
      exact h.own hr
  | boot i uuid floor retry unused unnamed made =>
    have step : Assembly.Step view quorum size s.assembly _ := .join uuid floor unnamed made
    refine (h.setAssembly (h.lawful.step step) step.grows h.own step.continues).setNode ⟨_, _⟩
      (CommitService.knows_new _ retry) fun hv => ?_
    rw [Learner.get?_empty] at hv
    cases hv
  | halt i present =>
    refine ⟨h.lawful, h.own, fun {c put k} hp hk => ?_, fun {j node} hn => ?_,
      fun {j node slot v} hn hv => ?_, fun {c q} hq => ?_, h.told⟩
    · exact h.trying (Option.filter_eq_some_iff.mp hp).1 hk
    · by_cases hj : j = i
      · subst hj
        simp at hn
      · simp only [Function.update_of_ne hj] at hn
        exact h.known hn
    · by_cases hj : j = i
      · subst hj
        simp at hn
      · simp only [Function.update_of_ne hj] at hn
        exact h.learned hn hv
    · exact h.found (Option.filter_eq_some_iff.mp hq).1
  | notify i k present round ended =>
    have hknown := h.known present
    refine h.setNode ⟨_, _⟩ hknown fun {slot w} hw => ?_
    rw [Learner.get?_record] at hw
    rcases Option.or_eq_some_iff.mp hw with hheld | ⟨_, hnew⟩
    · exact h.learned present hheld
    · split at hnew
      · rename_i hslot
        obtain rfl := Option.some.inj hnew
        rw [← hslot.1]
        exact h.decided_of_ended round ended
      · cases hnew
  | callPut c i start commit unused present =>
    refine h.setPut fun hp hk => ?_
    cases hp
    cases hk
  | @attempt put node p id after c k pending idle present unused known fresh =>
    have step : Assembly.Step view quorum size s.assembly _ := .start k _ ⟨put.start⟩
      (CommitService.encode put.commit) unused known fresh
    have hround := Assembly.setRound_self (s.assembly.setProposer node.service.proposer.uuid after)
      k ⟨node.service.proposer.uuid, id, ⟨put.start⟩, CommitService.encode put.commit,
        .preparing (Finset.range size) Tally.empty⟩
    refine (h.setAssembly (h.lawful.step step) step.grows (fun hr => ?_) step.continues).setPut
      fun hp hk => ?_
    · rcases Assembly.rounds_setRound hr with ⟨_, rfl⟩ | ⟨_, hr⟩
      · exact ⟨put.commit, rfl⟩
      · exact h.own hr
    · cases hp
      cases hk
      exact ⟨_, hround, rfl⟩
  | exhaust c jitter pending idle present known spent verdict =>
    exact h.answer_failed verdict (.inr ⟨_, Proposer.nextId_error spent⟩)
  | retry c jitter pending trying present round ended verdict =>
    refine h.setPut fun hp hk => ?_
    cases hp
    cases hk
  | fail c jitter pending trying present round ended verdict =>
    have hround := h.lawful.staged round
    rw [ended] at hround
    exact h.answer_failed verdict (.inl hround)
  | settle c pending trying present round ended settled =>
    exact h.settle pending trying present round ended settled
  | get i start lookup present hears got =>
    obtain ⟨hknown, hcommit, herror⟩ :=
      CommitService.get_spec (h.trusted present hears) (h.known present) got
    refine (h.setNode ⟨_, _⟩ hknown fun hv => h.learned present hv).answer ?_
    rename_i outcome _
    cases outcome with
    | ok found => exact fun commit hc => hcommit commit (congrArg Except.ok hc)
    | error e =>
      rintro slot rfl
      exact hears_error hears (herror _ rfl)
  | callGetMany c i starts unused present =>
    refine h.setQuery fun hq start commit hc => ?_
    cases hq
    simp at hc
  | look c lookup pending split present hears got =>
    obtain ⟨hknown, hfound, _⟩ := CommitService.getManyInto_spec (h.trusted present hears)
      (h.known present) (h.found pending) got
    refine (h.setNode ⟨_, _⟩ hknown fun hv => h.learned present hv).setQuery fun hq => ?_
    cases hq
    exact hfound _ rfl
  | lookFail c lookup pending split present hears got =>
    obtain ⟨hknown, _, herror⟩ := CommitService.getManyInto_spec (h.trusted present hears)
      (h.known present) (h.found pending) got
    refine ((h.setNode ⟨_, _⟩ hknown fun hv => h.learned present hv).setQuery fun hq => by cases hq).answer ?_
    rintro slot rfl
    obtain ⟨start, w, hlost⟩ := herror _ rfl
    exact hears_error hears hlost
  | found c pending done =>
    have hdone : Sound view quorum size (s.setQuery c none) := h.setQuery fun hq => by cases hq
    exact hdone.answer (h.found pending)

end Sound

theorem Reachable.sound (h : Reachable view quorum size s) : Sound view quorum size s := by
  obtain ⟨stores, hstores, hreaches⟩ := h
  induction hreaches with
  | refl => exact sound_init hstores
  | tail _ hstep ih => exact ih.step hstep

/-- All answers go by what has been decided, and that is one commit timestamp at most for every start
timestamp. -/
theorem Sound.exists_commitOf (h : Sound view quorum size s) :
    ∃ commitOf : UInt64 → UInt64,
      ∀ a ∈ s.answers, a.Truthful fun start commit => commit = commitOf start := by
  classical
  let commitOf (start : UInt64) : UInt64 :=
    if hd : ∃ c, s.assembly.Decided quorum size start c then hd.choose else 0
  refine ⟨commitOf, fun a ha => (h.told ha).mono fun start c hc => ?_⟩
  have hd : ∃ c, s.assembly.Decided quorum size start c := ⟨c, hc⟩
  rw [show commitOf start = hd.choose from dif_pos hd]
  exact h.lawful.decided_unique hc hd.choose_spec

end Ledger
end Synod
