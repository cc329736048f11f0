import Synod.Proofs.Drafts
import Synod.Proofs.History

/-!
# Saves that fail

Acceptors that remember the same, over stores that no operation tells apart, answer alike for ever.
Drafts are not told apart, so a request whose save did not come past the move leaves nothing that
can be seen, whatever the operating system refused. Only one thing is left to fail after the move:
the sync of the directory. It is reported like any other failure, although the new record is in
place by then.
-/
namespace Synod
open RecordStore

/-- A relation between stores that their operations answer alike and keep. -/
structure Indistinct {σ : Type} [RecordStore σ] (R : σ → σ → Prop) : Prop where
  load : ∀ {s t}, R s t → ∀ slot, (load slot t).1 = (load slot s).1 ∧ R (load slot s).2 (load slot t).2
  save : ∀ {s t}, R s t → ∀ slot r,
    (save slot r t).1 = (save slot r s).1 ∧ R (save slot r s).2 (save slot r t).2

namespace Acceptor
variable {σ : Type} [RecordStore σ] {R : σ → σ → Prop} {a b : Acceptor σ}

/-- Two acceptors that remember the same, over stores so related. -/
structure Twins (R : σ → σ → Prop) (a b : Acceptor σ) : Prop where
  known : b.known = a.known
  store : R a.store b.store

section
variable (hR : Indistinct R)
include hR

lemma Twins.current (h : Twins R a b) (slot : Slot) :
    (b.current slot).1 = (a.current slot).1 ∧ Twins R (a.current slot).2 (b.current slot).2 := by
  obtain ⟨hsame, hstore⟩ := hR.load h.store slot
  simp only [Acceptor.current, h.known]
  cases a.known.get? slot with
  | some record => exact ⟨rfl, h⟩
  | none =>
    rcases hs : RecordStore.load slot a.store with ⟨outcome, s⟩
    rcases ht : RecordStore.load slot b.store with ⟨outcome', t⟩
    rw [hs, ht] at hsame hstore
    cases hsame
    cases outcome with
    | error e => exact ⟨rfl, rfl, hstore⟩
    | ok record => exact ⟨rfl, rfl, hstore⟩

lemma Twins.commit {α : Type} (h : Twins R a b) (slot : Slot) (reply : Reply α) :
    (b.commit slot reply).1 = (a.commit slot reply).1 ∧
    Twins R (a.commit slot reply).2 (b.commit slot reply).2 := by
  simp only [Acceptor.commit, h.known]
  cases reply.write with
  | none => exact ⟨rfl, h⟩
  | some record =>
    obtain ⟨hsame, hstore⟩ := hR.save h.store slot record
    rcases hs : RecordStore.save slot record a.store with ⟨outcome, s⟩
    rcases ht : RecordStore.save slot record b.store with ⟨outcome', t⟩
    simp only [hs, ht] at hsame hstore ⊢
    cases hsame
    cases outcome with
    | error e => exact ⟨rfl, rfl, hstore⟩
    | ok u => exact ⟨rfl, rfl, hstore⟩

lemma Twins.handle {α : Type} (h : Twins R a b) (reply : Option AcceptorRecord → Reply α)
    (slot : Slot) :
    (b.handle reply slot).1 = (a.handle reply slot).1 ∧
    Twins R (a.handle reply slot).2 (b.handle reply slot).2 := by
  obtain ⟨hsame, hcurrent⟩ := h.current hR slot
  unfold Acceptor.handle
  rcases ha : a.current slot with ⟨outcome, a'⟩
  rcases hb : b.current slot with ⟨outcome', b'⟩
  rw [ha, hb] at hsame hcurrent
  cases hsame
  cases outcome with
  | error e => exact ⟨rfl, hcurrent⟩
  | ok record => exact hcurrent.commit hR slot (reply record)

lemma Twins.serve (h : Twins R a b) (r : Request) :
    (b.serve r).1 = (a.serve r).1 ∧ Twins R (a.serve r).2 (b.serve r).2 := by
  cases r with
  | prepare slot id =>
    obtain ⟨hsame, htwins⟩ := h.handle hR (Reply.toPrepare · id) slot
    exact ⟨congrArg (Call.prepare slot id) hsame, htwins⟩
  | accept slot value =>
    obtain ⟨hsame, htwins⟩ := h.handle hR (Reply.toAccept · value) slot
    exact ⟨congrArg (Call.accept slot value) hsame, htwins⟩

end

/-- Requests served one after the other. -/
def serveAll (a : Acceptor σ) : List Request → List Call × Acceptor σ
  | [] => ([], a)
  | r :: rest => ((a.serve r).1 :: ((a.serve r).2.serveAll rest).1, ((a.serve r).2.serveAll rest).2)

theorem Twins.serveAll (hR : Indistinct R) (h : Twins R a b) (rs : List Request) :
    (b.serveAll rs).1 = (a.serveAll rs).1 ∧ Twins R (a.serveAll rs).2 (b.serveAll rs).2 := by
  induction rs generalizing a b with
  | nil => exact ⟨rfl, h⟩
  | cons r rest ih =>
    obtain ⟨hcall, hnext⟩ := h.serve hR r
    obtain ⟨hcalls, hend⟩ := ih hnext
    simp only [Acceptor.serveAll, hcall, hcalls]
    exact ⟨trivial, hend⟩

/-- To know a record means at most to load it. -/
lemma store_current (a : Acceptor σ) (slot : Slot) :
    (a.current slot).2.store = a.store ∨ (a.current slot).2.store = (load slot a.store).2 := by
  unfold current
  cases a.known.get? slot with
  | some record => exact .inl rfl
  | none =>
    right
    rcases RecordStore.load slot a.store with ⟨_ | _, s⟩ <;> rfl

/-- To commit to a reply means at most to save one record. -/
lemma store_commit {α : Type} (a : Acceptor σ) (slot : Slot) (reply : Reply α) :
    (a.commit slot reply).2.store = a.store ∨
      ∃ record, (a.commit slot reply).2.store = (save slot record a.store).2 := by
  unfold commit
  cases reply.write with
  | none => exact .inl rfl
  | some record =>
    refine .inr ⟨record, ?_⟩
    dsimp only
    rcases RecordStore.save slot record a.store with ⟨_ | _, s⟩ <;> rfl

end Acceptor

/-- A directory under verdicts of the operating system. A load asks for one thing, a save for as
many as it has steps. -/
structure UnreliableStore where
  store : DirectoryStore
  verdicts : Verdicts

namespace UnreliableStore
open DirectoryStore

lemma length_saveSteps (dir : Path) (slot : Slot) (record : AcceptorRecord) :
    (saveSteps dir slot record).length = 5 := by
  unfold saveSteps
  rfl

instance : RecordStore UnreliableStore where
  load slot s :=
    (match s.verdicts 0 with
      | some _ => .error (.failed refused)
      | none => (DirectoryStore.load slot s.store).mapError .failed,
      ⟨s.store, s.verdicts.later 1⟩)
  save slot record s :=
    let saved := saveUnder s.verdicts slot record s.store
    (saved.1.mapError .failed, ⟨saved.2, s.verdicts.later (saveSteps s.store.dir slot record).length⟩)

/-- Stores alike that the same verdicts await. -/
structure Same (s t : UnreliableStore) : Prop where
  verdicts : t.verdicts = s.verdicts
  store : Alike s.store t.store

/-- A draft left behind is never noticed, whatever is refused later. -/
theorem indistinct : Indistinct Same where
  load := by
    rintro s t ⟨hverdicts, halike⟩ slot
    simp only [RecordStore.load, hverdicts, halike.load slot]
    exact ⟨trivial, rfl, halike⟩
  save := by
    rintro s t ⟨hverdicts, halike⟩ slot record
    obtain ⟨hsame, hnext⟩ := halike.saveUnder s.verdicts slot record
    simp only [RecordStore.save, hverdicts, hsame, length_saveSteps]
    exact ⟨trivial, rfl, hnext⟩

end UnreliableStore

namespace Acceptor
open DirectoryStore

lemma handle_cases {α : Type} (a : Acceptor UnreliableStore)
    (reply : Option AcceptorRecord → Reply α) (slot : Slot) :
    Alike a.store.store (a.handle reply slot).2.store.store ∨
      ∃ record, Moved slot record a.store.store (a.handle reply slot).2.store.store := by
  have hcurrent : (a.current slot).2.store.store = a.store.store := by
    rcases store_current a slot with h | h <;> rw [h]
    rfl
  unfold handle
  rcases hc : a.current slot with ⟨outcome, b⟩
  rw [hc] at hcurrent
  dsimp only at hcurrent
  rw [← hcurrent]
  cases outcome with
  | error e => exact .inl (.refl _)
  | ok known =>
    rcases store_commit b slot (reply known) with h | ⟨record, h⟩
    · dsimp only
      rw [h]
      exact .inl (.refl _)
    · dsimp only
      rw [h]
      exact (saveUnder_cases b.store.verdicts slot record b.store.store).imp_right fun hmoved =>
        ⟨record, hmoved.1⟩

/-- Whatever becomes of a request, its save has come past the move, so that the new record is in
place, or nothing can be seen of it: every slot is loaded as before, and whatever is asked later and
whatever is refused then, an acceptor started afterwards answers as one started before. -/
theorem unseen_or_moved (a : Acceptor UnreliableStore) (r : Request) :
    let before := a.store.store
    let after := (a.serve r).2.store.store
    (∃ record, Moved r.slot record before after) ∨
    (∀ slot, DirectoryStore.load slot after = DirectoryStore.load slot before) ∧
    ∀ verdicts rs, ((start (UnreliableStore.mk after verdicts)).serveAll rs).1 =
      ((start (UnreliableStore.mk before verdicts)).serveAll rs).1 := by
  have hcases : Alike a.store.store (a.serve r).2.store.store ∨
      ∃ record, Moved r.slot record a.store.store (a.serve r).2.store.store := by
    cases r with
    | prepare slot id => exact handle_cases a _ slot
    | accept slot value => exact handle_cases a _ slot
  rcases hcases with halike | hmoved
  · refine .inr ⟨fun slot => halike.load slot, fun verdicts rs => ?_⟩
    have htwins : Twins UnreliableStore.Same (start ⟨a.store.store, verdicts⟩)
      (start ⟨(a.serve r).2.store.store, verdicts⟩) := ⟨rfl, rfl, halike⟩
    exact (htwins.serveAll UnreliableStore.indistinct rs).1
  · exact .inl hmoved

/-- A directory by an empty path can be used but not opened. The promise asked for first fails with
its record in place, so that an acceptor started afterwards keeps to it, and refuses what one started
before goes on to save. -/
theorem failed_save_shows :
    let before := DirectoryStore.mk ⟨[""]⟩ .empty
    let failing := (start (UnreliableStore.mk before .lenient)).serve (.prepare ⟨1⟩ ⟨2, "b"⟩)
    let after := failing.2.store.store
    let lower := Request.accept ⟨1⟩ ⟨⟨1, "a"⟩, ⟨1⟩, []⟩
    DirectoryStore.open ⟨[""]⟩ .empty = .ok before ∧
    failing.1 = .prepare ⟨1⟩ ⟨2, "b"⟩ (.error refused) ∧
    DirectoryStore.load ⟨1⟩ before = .ok none ∧
    DirectoryStore.load ⟨1⟩ after = .ok (some ⟨⟨2, "b"⟩, none⟩) ∧
    ((start (UnreliableStore.mk before .lenient)).serveAll [lower]).1 =
      [.accept ⟨1⟩ ⟨⟨1, "a"⟩, ⟨1⟩, []⟩ (.error refused)] ∧
    ((start (UnreliableStore.mk after .lenient)).serveAll [lower]).1 =
      [.accept ⟨1⟩ ⟨⟨1, "a"⟩, ⟨1⟩, []⟩ (.ok ⟨false, ⟨2, "b"⟩⟩)] := by
  refine ⟨rfl, ?_, ?_, ?_, ?_, ?_⟩ <;> decide +kernel

end Acceptor
end Synod
