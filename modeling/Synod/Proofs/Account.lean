import Synod.Proofs.History

/-!
# What an acceptor accounts for

A save that fails may have reached the store, so that an acceptor comes to hold records behind its
answers, and may forget after a restart what it goes by now. What it has answered it accounts for
even so: by the record that it goes by, and by the record in its store, which is never behind.
-/
namespace Synod
namespace Register

/-- A value at least as high as `q` is accepted. -/
def Holds (q : ProposalId) (record : Option AcceptorRecord) : Prop :=
  ∃ v, record.bind (·.accepted) = some v ∧ q ≤ v.id

/-- `later` stands by all that `record` stands by. -/
structure Ahead (record later : Option AcceptorRecord) : Prop where
  bound : ∀ q, Bound q record → Bound q later
  holds : ∀ q, Holds q record → Holds q later

theorem Ahead.refl (record : Option AcceptorRecord) : Ahead record record :=
  ⟨fun _ h => h, fun _ h => h⟩

/-- In a sound record what is accepted is promised. -/
lemma Holds.bound {q : ProposalId} {record : Option AcceptorRecord} (h : Holds q record)
    (hs : Sound record) : Bound q record := by
  obtain ⟨v, hv, hq⟩ := h
  obtain ⟨r, rfl, hr⟩ := Option.bind_eq_some_iff.mp hv
  exact ⟨r, rfl, Std.le_trans hq (hs r v rfl hr)⟩

lemma holds_serve {q : ProposalId} {record : Option AcceptorRecord} (h : Holds q record)
    (hs : Sound record) (r : Request) : Holds q (serve record r).2 := by
  have haccepted := accepted_serve record r
  cases hc : (serve record r).1.acknowledged? with
  | none => simpa [Holds, haccepted, hc] using h
  | some v => exact ⟨v, by rw [haccepted, hc, Option.some_or], le_of_acknowledged (h.bound hs) hc⟩

lemma ahead_serve {record : Option AcceptorRecord} (h : Sound record) (r : Request) :
    Ahead record (serve record r).2 :=
  ⟨fun _ hq => bound_serve hq r, fun _ hq => holds_serve hq h r⟩

end Register

namespace Call

/-- Some call for the slot acknowledged the value. -/
def Acknowledged (slot : Slot) (v : ProposalValue) (calls : List Call) : Prop :=
  ∃ c ∈ calls, c.slot = slot ∧ c.acknowledged? = some v

theorem acknowledged_append {slot : Slot} {v : ProposalValue} {calls : List Call} {c : Call} :
    Acknowledged slot v (calls ++ [c]) ↔
      Acknowledged slot v calls ∨ (c.slot = slot ∧ c.acknowledged? = some v) := by
  constructor
  · rintro ⟨d, hd, h⟩
    rcases List.mem_append.mp hd with hd | hd
    · exact .inl ⟨d, hd, h⟩
    · rw [List.mem_singleton.mp hd] at h
      exact .inr h
  · rintro (⟨d, hd, h⟩ | h)
    · exact ⟨d, List.mem_append_left _ hd, h⟩
    · exact ⟨c, List.mem_append_right _ (List.mem_singleton_self c), h⟩

end Call

namespace Register

/-- A record that accounts for the calls for its slot, of which the requests in `sent` are the
cause. -/
structure Account (sent : List Request) (slot : Slot) (calls : List Call)
    (record : Option AcceptorRecord) : Prop where
  sound : Sound record
  offered : ∀ {v}, record.bind (·.accepted) = some v → .accept slot v ∈ sent
  bound : ∀ {q p}, .prepare slot q (.ok p) ∈ calls → p.accepted = true → Bound q record
  holds : ∀ {v}, Call.Acknowledged slot v calls → Holds v.id record
  asked : ∀ {v}, Call.Acknowledged slot v calls → .accept slot v ∈ sent
  /-- A promise that was given reports a value below it, and above all others that have been
  acknowledged below it by now. -/
  reports : ∀ {q p}, .prepare slot q (.ok p) ∈ calls → p.accepted = true →
    ∃ prior, p = Promise.give q prior ∧
      (∀ w, prior = some w → w.id < q ∧ .accept slot w ∈ sent) ∧
      ∀ v, Call.Acknowledged slot v calls → v.id < q → ∃ w, prior = some w ∧ v.id ≤ w.id

variable {sent : List Request} {slot : Slot} {calls : List Call} {record : Option AcceptorRecord}

theorem account_none : Account sent slot [] none where
  sound := sound_none
  offered h := by cases h
  bound h := by cases h
  holds := by rintro _ ⟨_, h, _⟩; cases h
  asked := by rintro _ ⟨_, h, _⟩; cases h
  reports h := by cases h

lemma Account.mono {sent' : List Request} (h : Account sent slot calls record)
    (hs : sent ⊆ sent') : Account sent' slot calls record where
  sound := h.sound
  offered hv := hs (h.offered hv)
  bound := h.bound
  holds := h.holds
  asked hv := hs (h.asked hv)
  reports hmem hp := by
    obtain ⟨prior, hgive, hprior, hseen⟩ := h.reports hmem hp
    exact ⟨prior, hgive, fun w hw => ⟨(hprior w hw).1, hs (hprior w hw).2⟩, hseen⟩

/-- What one record accounts for, another does that is ahead of it. -/
lemma Account.ahead {later : Option AcceptorRecord} (h : Account sent slot calls record)
    (ha : Ahead record later) (hs : Sound later)
    (ho : ∀ {v}, later.bind (·.accepted) = some v → .accept slot v ∈ sent) :
    Account sent slot calls later where
  sound := hs
  offered := ho
  bound hmem hp := ha.bound _ (h.bound hmem hp)
  holds hv := ha.holds _ (h.holds hv)
  asked := h.asked
  reports := h.reports

/-- There is nothing to account for in a call for another slot, or in one that failed. -/
lemma Account.skip (h : Account sent slot calls record) {c : Call}
    (hc : c.slot ≠ slot ∨ c.failure? ≠ none) : Account sent slot (calls ++ [c]) record := by
  have hpromise : ∀ {q p}, .prepare slot q (.ok p) ∈ calls ++ [c] →
      .prepare slot q (.ok p) ∈ calls := by
    intro q p hmem
    rcases List.mem_append.mp hmem with hmem | hmem
    · exact hmem
    · rw [← List.mem_singleton.mp hmem] at hc
      exact (hc.elim (· rfl) (· rfl)).elim
  have hacknowledged : ∀ {v}, Call.Acknowledged slot v (calls ++ [c]) →
      Call.Acknowledged slot v calls := by
    intro v hv
    rcases Call.acknowledged_append.mp hv with hv | ⟨hs, hv⟩
    · exact hv
    · rcases hc with hc | hc
      · exact absurd hs hc
      · rw [Call.acknowledged?_of_failure hc] at hv
        cases hv
  refine ⟨h.sound, h.offered, fun hmem => h.bound (hpromise hmem),
    fun hv => h.holds (hacknowledged hv), fun hv => h.asked (hacknowledged hv), ?_⟩
  intro q p hmem hp
  obtain ⟨prior, hgive, hprior, hseen⟩ := h.reports (hpromise hmem) hp
  exact ⟨prior, hgive, hprior, fun v hv => hseen v (hacknowledged hv)⟩

/-- A register accounts for the calls it answers. -/
theorem account_serve (h : Account sent slot calls record) {r : Request} (hr : r ∈ sent)
    (hs : r.slot = slot) :
    Account sent slot (calls ++ [(serve record r).1]) (serve record r).2 := by
  have haccepted := accepted_serve record r
  have hrequest : ∀ {v}, (serve record r).1.acknowledged? = some v → .accept slot v ∈ sent := by
    intro v hv
    have hcause := Call.request_of_acknowledged hv
    rw [Call.slot, request_serve, hs] at hcause
    exact hcause ▸ hr
  constructor
  case sound => exact sound_serve h.sound r
  case offered =>
    intro v hv
    cases hc : (serve record r).1.acknowledged? with
    | none =>
      rw [haccepted, hc, Option.none_or] at hv
      exact h.offered hv
    | some w =>
      rw [haccepted, hc, Option.some_or] at hv
      cases hv
      exact hrequest hc
  case bound =>
    intro q p hmem hp
    rcases List.mem_append.mp hmem with hmem | hmem
    · exact bound_serve (h.bound hmem hp) r
    · exact (give_of_promise (List.mem_singleton.mp hmem).symm hp).2.2
  case holds =>
    intro v hv
    rcases Call.acknowledged_append.mp hv with hv | ⟨_, hv⟩
    · exact holds_serve (h.holds hv) h.sound r
    · exact ⟨v, by rw [haccepted, hv, Option.some_or], Std.le_refl _⟩
  case asked =>
    intro v hv
    rcases Call.acknowledged_append.mp hv with hv | ⟨_, hv⟩
    · exact h.asked hv
    · exact hrequest hv
  case reports =>
    intro q p hmem hp
    rcases List.mem_append.mp hmem with hmem | hmem
    · obtain ⟨prior, hgive, hprior, hseen⟩ := h.reports hmem hp
      refine ⟨prior, hgive, hprior, fun v hv hlt => ?_⟩
      rcases Call.acknowledged_append.mp hv with hv | ⟨_, hv⟩
      · exact hseen v hv hlt
      · exact absurd hlt (Std.not_lt.mpr (le_of_acknowledged (h.bound hmem hp) hv))
    · have hcall := (List.mem_singleton.mp hmem).symm
      obtain ⟨hgive, hlt, _⟩ := give_of_promise hcall hp
      refine ⟨_, hgive, fun w hw => ⟨?_, h.offered hw⟩, fun v hv _ => ?_⟩
      · obtain ⟨held, rfl, hw⟩ := Option.bind_eq_some_iff.mp hw
        exact Std.lt_of_le_of_lt (h.sound held w rfl hw) (hlt held rfl)
      · rcases Call.acknowledged_append.mp hv with hv | ⟨_, hv⟩
        · exact h.holds hv
        · rw [hcall] at hv
          cases hv

end Register

namespace Acceptor
open RecordStore

variable {σ : Type} [RecordStore σ] {view : StoreView σ} {sent : List Request}
  {calls : List Call} {a : Acceptor σ}

/-- An acceptor that accounts for its calls, in memory and in its store. -/
structure Accounts (view : StoreView σ) (sent : List Request) (calls : List Call)
    (a : Acceptor σ) : Prop where
  believed : ∀ slot, Register.Account sent slot calls (a.believes view slot)
  kept : ∀ slot, Register.Account sent slot calls (a.durable view slot)
  ahead : ∀ slot, Register.Ahead (a.believes view slot) (a.durable view slot)

theorem accounts_start {s : σ} (h : view.held s = fun _ => none) :
    Accounts view sent [] (start s) := by
  have hbelieved : (start s).believes view = fun _ => none := (believes_start view s).trans h
  have hkept : (start s).durable view = fun _ => none := h
  constructor
  · intro slot
    rw [hbelieved]
    exact Register.account_none
  · intro slot
    rw [hkept]
    exact Register.account_none
  · intro slot
    rw [hbelieved, hkept]
    exact Register.Ahead.refl none

lemma Accounts.mono {sent' : List Request} (h : Accounts view sent calls a) (hs : sent ⊆ sent') :
    Accounts view sent' calls a :=
  ⟨fun slot => (h.believed slot).mono hs, fun slot => (h.kept slot).mono hs, h.ahead⟩

/-- A call concerns its own slot alone: the records of the others still account for their calls. -/
lemma Accounts.change (h : Accounts view sent calls a) {b : Acceptor σ} {slot : Slot} {c : Call}
    (hc : c.slot = slot) {record kept : Option AcceptorRecord}
    (hbelief : b.believes view = Function.update (a.believes view) slot record)
    (hkept : b.durable view = Function.update (a.durable view) slot kept)
    (hrecord : Register.Account sent slot (calls ++ [c]) record)
    (hkeeps : Register.Account sent slot (calls ++ [c]) kept)
    (hahead : Register.Ahead record kept) : Accounts view sent (calls ++ [c]) b := by
  have hother : ∀ t, t ≠ slot → c.slot ≠ t ∨ c.failure? ≠ none := by
    intro t ht
    rw [hc]
    exact .inl (Ne.symm ht)
  constructor <;> intro t <;> by_cases ht : t = slot
  · subst ht
    rw [hbelief, Function.update_self]
    exact hrecord
  · rw [hbelief, Function.update_of_ne ht]
    exact (h.believed t).skip (hother t ht)
  · subst ht
    rw [hkept, Function.update_self]
    exact hkeeps
  · rw [hkept, Function.update_of_ne ht]
    exact (h.kept t).skip (hother t ht)
  · subst ht
    rw [hbelief, hkept, Function.update_self, Function.update_self]
    exact hahead
  · rw [hbelief, hkept, Function.update_of_ne ht, Function.update_of_ne ht]
    exact h.ahead t

/-- One request. For the slot asked about, the record in the store is the one the register has
then, or the one it was; either is ahead of what the acceptor goes by. -/
theorem accounts_serve (h : Accounts view sent calls a) {r : Request} (hr : r ∈ sent) :
    Accounts view sent (calls ++ [(a.serve r).1]) (a.serve r).2 := by
  have heffect := effect view a r
  rcases hp : a.serve r with ⟨c, b⟩
  rw [hp] at heffect
  have hserved := Register.account_serve (h.believed r.slot) hr rfl
  have hahead := Register.ahead_serve (h.believed r.slot).sound r
  have hslot : (Register.serve (a.believes view r.slot) r).1.slot = r.slot := by
    rw [Call.slot, Register.request_serve]
  have hstill {records records' : Slot → Option AcceptorRecord} (hs : records' = records) :
      records' = Function.update records r.slot (records r.slot) := by
    rw [hs, Function.update_eq_self]
  cases heffect with
  | wrote hbelief hkept =>
    exact h.change hslot hbelief hkept hserved hserved (Register.Ahead.refl _)
  | repeated hsame hbelief hkept =>
    rw [hsame] at hserved
    have hkeeps := hserved.ahead (h.ahead r.slot) (h.kept r.slot).sound (h.kept r.slot).offered
    exact h.change hslot (hstill hbelief) (hstill hkept) hserved hkeeps (h.ahead r.slot)
  | failed hrequest hfailure hbelief hkept =>
    have hslot : c.slot = r.slot := congrArg Request.slot hrequest
    have hbelieved := (h.believed r.slot).skip (.inr hfailure)
    rcases hkept with hkept | hkept
    · have hkeeps := (h.kept r.slot).skip (.inr hfailure)
      exact h.change hslot (hstill hbelief) (hstill hkept) hbelieved hkeeps (h.ahead r.slot)
    · have hkeeps := hbelieved.ahead hahead hserved.sound hserved.offered
      exact h.change hslot (hstill hbelief) hkept hbelieved hkeeps hahead

/-- Whatever happens to an acceptor, it accounts for its calls. -/
theorem accounts_meet (h : Accounts view sent calls a) {e : Event view}
    (he : ∀ r, e.request? = some r → r ∈ sent) :
    Accounts view sent (calls ++ (a.meet e).1) (a.meet e).2 := by
  rcases e with r | _ | ⟨change, harmless⟩
  · exact accounts_serve h (he r rfl)
  · rw [meet, List.append_nil]
    constructor <;> intro slot
    · rw [believes_restart]
      exact h.kept slot
    · exact h.kept slot
    · rw [believes_restart]
      exact Register.Ahead.refl _
  · rw [meet, List.append_nil]
    constructor <;> intro slot
    · rw [believes_disturb harmless]
      exact h.believed slot
    · rw [durable_disturb harmless]
      exact h.kept slot
    · rw [believes_disturb harmless, durable_disturb harmless]
      exact h.ahead slot

end Acceptor
end Synod
