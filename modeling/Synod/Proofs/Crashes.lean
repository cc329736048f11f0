import Synod.Proofs.Disks
import Synod.Proofs.Shelving

/-!
# Crashes

In the middle of a save a crash may leave anything of the draft. The record's place has nothing but
what it may have had until the move, then that or the new record until the directory is synced, and
then the new one alone; other records are not touched. So after any crash the directory mirrors a map
of which each record has been loaded since the directory was last synced. Where every save has gone
through, that is the old record or the new one. But a save whose sync of the directory was refused is
not over with its answer: its record is loaded, and a crash in any later save may take it back.
-/
namespace Synod

namespace SlotMap
variable {α : Type}

/-- The entries of a map can be anything. -/
lemma exists_get?_eq (f : Slot → Option α) : ∃ m : SlotMap α, ∀ slot, m.get? slot = f slot := by
  -- slot after slot, as far as there are slots
  have hbelow : ∀ n, ∃ m : SlotMap α, ∀ slot : Slot,
      m.get? slot = if slot.sequence.toNat < n then f slot else none := by
    intro n
    induction n with
    | zero => exact ⟨∅, fun slot => by simp⟩
    | succ n ih =>
      obtain ⟨m, hm⟩ := ih
      by_cases hlast : ∃ last : Slot, last.sequence.toNat = n ∧ (f last).isSome
      · obtain ⟨last, hn, hsome⟩ := hlast
        obtain ⟨a, ha⟩ := Option.isSome_iff_exists.mp hsome
        refine ⟨m.insert last a, fun slot => ?_⟩
        rw [get?_insert]
        split_ifs with heq hlt hlt
        · rw [← heq, ha]
        · rw [← heq, hn] at hlt
          omega
        · have hne : slot.sequence.toNat ≠ n := fun h => heq (Slot.eq_of_toNat_eq (hn.trans h.symm))
          rw [hm, if_pos (by omega)]
        · rw [hm, if_neg (by omega)]
      · refine ⟨m, fun slot => ?_⟩
        rw [hm]
        by_cases hn : slot.sequence.toNat = n
        · have hnone : f slot = none := by
            rw [← Option.not_isSome_iff_eq_none]
            exact fun h => hlast ⟨slot, hn, h⟩
          simp [hnone]
        · have hiff : slot.sequence.toNat < n ↔ slot.sequence.toNat < n + 1 := by omega
          simp only [hiff]
  obtain ⟨m, hm⟩ := hbelow UInt64.size
  exact ⟨m, fun slot => by rw [hm, if_pos slot.sequence.toNat_lt_size]⟩

end SlotMap

namespace DirectoryStore
open FileSystem FileStep

/-- For each slot the records that a crash may leave it with, `none` if it may leave it with none. -/
abbrev Recent := Slot → Option AcceptorRecord → Prop

/-- What a directory's files are loaded as, and nothing else. -/
def Loads (dir : Path) (fs : FileSystem) : Recent := fun slot known => load slot ⟨dir, fs⟩ = .ok known

/-- One record more for one of the slots. -/
def Recent.insert (recent : Recent) (slot : Slot) (record : AcceptorRecord) : Recent :=
  fun slot' known => recent slot' known ∨ slot' = slot ∧ known = some record

/-- A disk whose directory mirrors a map, and on which a crash finds in the place of each record
nothing but whole records that the slot may be left with. -/
structure Backed (home : Location) (m : MemoryStore) (recent : Recent) (dir : Path) (d : Disk) :
    Prop where
  mirrors : Mirrors home m ⟨dir, d.files⟩
  synced : ∀ slot, ¬d.unsynced (home ++ [recordName slot])
  found : ∀ slot entry, d.Found (home ++ [recordName slot]) entry →
    ∃ known, recent slot known ∧ Holds entry known

variable {home : Location} {m : MemoryStore} {recent recent' : Recent} {dir : Path} {d d' : Disk}
  {fs : FileSystem} {slot : Slot} {record : AcceptorRecord} {verdicts : Verdicts}
  {outcome : Except OsError Unit} {k : Nat}

lemma Mirrors.loads {known : Option AcceptorRecord} (h : Mirrors home m ⟨dir, fs⟩) :
    Loads dir fs slot known ↔ known = m.records.get? slot := by
  rw [Loads, h.load slot, Except.ok.injEq, eq_comm]

lemma Mirrors.backed (h : Mirrors home m ⟨dir, fs⟩) :
    Backed home m (Loads dir fs) dir (.settled fs) where
  mirrors := h
  synced _ := id
  found slot entry hfound := by
    rw [Disk.found_settled.mp hfound]
    exact ⟨_, h.load slot, h.record slot⟩

namespace Backed

lemma mono (h : Backed home m recent dir d)
    (hrecent : ∀ slot known, recent slot known → recent' slot known) :
    Backed home m recent' dir d :=
  ⟨h.mirrors, h.synced, fun slot entry hfound =>
    (h.found slot entry hfound).imp fun known hknown => hknown.imp_left (hrecent slot known)⟩

/-- A crash leaves a map with each slot's record one of those that it may be left with. -/
theorem crash (h : Backed home m recent dir d) (hcrash : d.Crash fs) :
    ∃ m', Mirrors home m' ⟨dir, fs⟩ ∧ ∀ slot, recent slot (m'.records.get? slot) := by
  choose known hrecent hholds using fun slot => h.found slot _ (hcrash.found _)
  obtain ⟨records, hrecords⟩ := SlotMap.exists_get?_eq known
  have hagree : Agree (fun _ => True) d.files fs :=
    ⟨hcrash.current, hcrash.directory, fun _ hl => absurd trivial hl⟩
  refine ⟨⟨records⟩, h.mirrors.of_agree hagree fun slot => ?_, fun slot => ?_⟩
  · rw [hrecords]
    exact hholds slot
  · rw [hrecords]
    exact hrecent slot

/-! ### Saves that are cut off -/

/-- Steps about drafts, or about no file at all, endanger no record, whatever is refused of them. -/
lemma kept {steps : List FileStep} (h : Backed home m recent dir d)
    (hpaths : ∀ step ∈ steps, ∀ p ∈ step.paths, p = draftPath dir slot) (verdicts : Verdicts) :
    Backed home m recent dir (d.runUnder verdicts steps).2 := by
  have htouch : ∀ step ∈ steps, ∀ l, step.Touches d.files l → IsDraft home l := by
    rintro step hstep l ⟨p, hp, hplace⟩
    rw [hpaths step hstep p hp] at hplace
    exact ⟨slot, Except.ok.inj (hplace.symm.trans (h.mirrors.locate_draft slot))⟩
  have hsafe : ∀ slot', Disk.NoWorse d (d.runUnder verdicts steps).2 (home ++ [recordName slot']) :=
    fun slot' => .runUnder fun step hstep hl =>
      not_isDraft_record home home slot' (htouch step hstep _ hl)
  have hagree := runUnder_agree verdicts steps d.files
  rw [Disk.files_runUnder] at hagree
  exact {
    mirrors := h.mirrors.agree (hagree.mono fun l ⟨step, hstep, hl⟩ => htouch step hstep l hl)
    synced := fun slot' hlost => h.synced slot' ((hsafe slot').unsynced hlost)
    found := fun slot' entry hfound => h.found slot' entry ((hsafe slot').found entry hfound) }

/-- The draft is synced before it is moved. -/
lemma drafted (h : Backed home m recent dir d)
    (hrun : d.runUnder verdicts (draftSteps dir slot record) = (.ok (), d')) :
    ¬d'.unsynced (home ++ [draftName slot]) ∧
      d'.files.readFile (draftPath dir slot) = .ok (JsonForm.compact record) := by
  obtain ⟨_, created, hcreate, hrun⟩ := Disk.runUnder_cons_ok.mp hrun
  obtain ⟨_, filled, hfill, hrun⟩ := Disk.runUnder_cons_ok.mp hrun
  obtain ⟨_, synced, hsync, hend⟩ := Disk.runUnder_cons_ok.mp hrun
  cases hend
  rw [Disk.files_after] at hfill hsync
  have hplace := (apply_agree hfill).locate
    ((apply_agree hcreate).locate (h.mirrors.locate_draft slot))
  have hread := readFile_append hfill (readFile_create hcreate)
  obtain ⟨_, _, _, _, rfl⟩ := sync_ok.mp hsync
  exact ⟨fun hlost => hlost.2 hplace, hread⟩

/-- After the move of a synced draft the slot may be left with its record, too. -/
theorem move (h : Backed home m recent dir d) (hsynced : ¬d.unsynced (home ++ [draftName slot]))
    (hdraft : d.files.readFile (draftPath dir slot) = .ok (JsonForm.compact record))
    (hmove : (moveStep dir slot).apply d.files = .ok fs) :
    Backed home (RecordStore.save slot record m).2 (recent.insert slot record) dir
      (d.after fs (moveStep dir slot)) := by
  have hsource : d.files.locate (draftPath dir slot) = .ok (home ++ [draftName slot]) :=
    h.mirrors.locate_draft slot
  have htarget : d.files.locate (recordPath dir slot) = .ok (home ++ [recordName slot]) :=
    h.mirrors.locate_record slot
  have hlost : ¬(d.after fs (moveStep dir slot)).unsynced (home ++ [recordName slot]) := by
    rintro (⟨_, hother⟩ | ⟨_, q, hq, hlost⟩)
    · exact hother htarget
    · rw [hsource] at hq
      cases hq
      exact hsynced hlost
  have hclear : ∀ slot', slot ≠ slot' →
      d.NoWorse (d.after fs (moveStep dir slot)) (home ++ [recordName slot']) :=
    fun slot' hslot => .after hmove (h.mirrors.not_touches_move hslot)
  refine ⟨?_, fun slot' => ?_, fun slot' entry hfound => ?_⟩
  · rw [Disk.files_after]
    exact h.mirrors.move hdraft hmove
  · by_cases hslot : slot = slot'
    · rwa [← hslot]
    · exact fun hlost => h.synced slot' ((hclear slot' hslot).unsynced hlost)
  · by_cases hslot : slot = slot'
    · subst hslot
      rcases hfound with hnow | hbefore | ⟨hlost', _⟩
      · rw [Disk.files_after, h.mirrors.lookup_move hdraft hmove slot, if_pos rfl] at hnow
        exact ⟨some record, .inr ⟨rfl, rfl⟩, _, hnow, LawfulForm.lossless.compact record⟩
      · have hold : d.Found (home ++ [recordName slot]) entry :=
          hbefore.elim (fun h => .inr (.inl h)) fun h => h.2
        obtain ⟨known, hrecent, hholds⟩ := h.found slot entry hold
        exact ⟨known, .inl hrecent, hholds⟩
      · exact absurd hlost' hlost
    · obtain ⟨known, hrecent, hholds⟩ := h.found slot' entry ((hclear slot' hslot).found entry hfound)
      exact ⟨known, .inl hrecent, hholds⟩

/-- Once the directory is synced, nothing but what is loaded may be left. -/
theorem sync (h : Backed home m recent dir d)
    (hsync : (FileStep.syncDirectory dir).apply d.files = .ok fs) :
    Backed home m (Loads dir fs) dir (d.after fs (.syncDirectory dir)) := by
  obtain ⟨_, _, _, rfl⟩ := syncDirectory_ok.mp hsync
  refine ⟨h.mirrors, h.synced, fun slot entry hfound => ?_⟩
  rcases hfound with hnow | ⟨_, hcleared⟩ | ⟨hlost, _⟩
  · rw [hnow]
    exact ⟨_, h.mirrors.load slot, h.mirrors.record slot⟩
  · exact absurd rfl (hcleared home _ h.mirrors.locate_self)
  · exact absurd hlost (h.synced slot)

lemma kept_draft (h : Backed home m recent dir d) (verdicts : Verdicts) (slot : Slot)
    (record : AcceptorRecord) (k : Nat) :
    Backed home m recent dir (d.runUnder verdicts ((draftSteps dir slot record).take k)).2 :=
  h.kept (fun _ hstep _ hp => paths_draftSteps (List.mem_of_mem_take hstep) hp) verdicts

/-- From the draft on, either nothing happens or it is moved. -/
lemma cut_move (h : Backed home m recent dir d) (hsynced : ¬d.unsynced (home ++ [draftName slot]))
    (hdraft : d.files.readFile (draftPath dir slot) = .ok (JsonForm.compact record))
    (verdicts : Verdicts) (k : Nat) :
    let last := (d.runUnder verdicts ([moveStep dir slot, .syncDirectory dir].take k)).2
    Backed home m recent dir last ∨
      Backed home (RecordStore.save slot record m).2 (recent.insert slot record) dir last := by
  cases k with
  | zero => exact .inl h
  | succ k =>
    simp only [List.take_succ_cons, Disk.runUnder]
    cases verdicts 0 with
    | some refusal => exact .inl h
    | none =>
      cases hmove : (moveStep dir slot).apply d.files with
      | error e => exact .inl h
      | ok moved =>
        have hlast : ∀ step ∈ [FileStep.syncDirectory dir].take k, ∀ p ∈ step.paths,
            p = draftPath dir slot := by
          intro step hstep p hp
          rw [List.mem_singleton.mp (List.mem_of_mem_take hstep)] at hp
          cases hp
        exact .inr ((h.move hsynced hdraft hmove).kept hlast _)

/-- A save that was refused or cut off after some of its steps has not been noticed, or the slot may
be left with its record, too. -/
theorem cut (h : Backed home m recent dir d)
    (hrun : d.runUnder verdicts ((saveSteps dir slot record).take k) = (outcome, d')) :
    Backed home m recent dir d' ∨
      Backed home (RecordStore.save slot record m).2 (recent.insert slot record) dir d' := by
  obtain rfl : (d.runUnder verdicts ((saveSteps dir slot record).take k)).2 = d' := by rw [hrun]
  have hkept := h.kept_draft verdicts slot record k
  rw [saveSteps_eq, List.take_append, Disk.runUnder_append]
  rcases hdraft : d.runUnder verdicts ((draftSteps dir slot record).take k) with ⟨e | ⟨⟩, drafted⟩ <;>
    rw [hdraft] at hkept
  · exact .inl hkept
  · rcases Nat.lt_or_ge k (draftSteps dir slot record).length with hk | hk
    · rw [Nat.sub_eq_zero_of_le hk.le]
      exact .inl hkept
    · rw [List.take_of_length_le hk] at hdraft
      obtain ⟨hsynced, hread⟩ := h.drafted hdraft
      exact hkept.cut_move hsynced hread _ _

/-- A save that went through leaves no doubt. -/
theorem saved (h : Backed home m recent dir d)
    (hrun : d.runUnder verdicts (saveSteps dir slot record) = (.ok (), d')) :
    Backed home (RecordStore.save slot record m).2 (Loads dir d'.files) dir d' := by
  have hkept := h.kept_draft verdicts slot record 3
  have hall : (draftSteps dir slot record).take 3 = draftSteps dir slot record := rfl
  rw [saveSteps_eq, Disk.runUnder_append] at hrun
  rw [hall] at hkept
  rcases hdraft : d.runUnder verdicts (draftSteps dir slot record) with ⟨e | ⟨⟩, drafted⟩ <;>
    rw [hdraft] at hkept hrun
  · cases hrun
  · obtain ⟨hsynced, hread⟩ := h.drafted hdraft
    obtain ⟨_, moved, hmove, hlast⟩ := Disk.runUnder_cons_ok.mp hrun
    obtain ⟨_, _, hsync, hend⟩ := Disk.runUnder_cons_ok.mp hlast
    cases hend
    rw [Disk.files_after]
    exact (hkept.move hsynced hread hmove).sync hsync

end Backed

/-! ### All that may have happened -/

/-- What becomes of a disk by saves, which may be refused or cut off anywhere, and by crashes, and for
each slot what it has been loaded as since the directory was last known to be synced. -/
inductive Reached (dir : Path) (start : FileSystem) : Disk → Recent → Prop
  | opened : Reached dir start (.settled start) (Loads dir start)
  | saved {d d' : Disk} {recent : Recent} (verdicts : Verdicts) (slot : Slot)
      (record : AcceptorRecord) (before : Reached dir start d recent)
      (run : d.runUnder verdicts (saveSteps dir slot record) = (.ok (), d')) :
      Reached dir start d' (Loads dir d'.files)
  | stopped {d d' : Disk} {recent : Recent} {outcome : Except OsError Unit} (verdicts : Verdicts)
      (slot : Slot) (record : AcceptorRecord) (k : Nat) (before : Reached dir start d recent)
      (run : d.runUnder verdicts ((saveSteps dir slot record).take k) = (outcome, d')) :
      Reached dir start d' fun slot' known => recent slot' known ∨ Loads dir d'.files slot' known
  | crashed {d : Disk} {recent : Recent} {fs : FileSystem} (before : Reached dir start d recent)
      (crash : d.Crash fs) : Reached dir start (.settled fs) (Loads dir fs)

/-- Whatever happened, a crash leaves each slot with what it was loaded as since the last sync. -/
theorem Reached.backed {s : DirectoryStore} (h : Reached s.dir s.files d recent)
    (hstart : Mirrors home .empty s) : ∃ m, Backed home m recent s.dir d := by
  induction h with
  | opened => exact ⟨.empty, hstart.backed⟩
  | saved verdicts slot record before run ih =>
    obtain ⟨m, hm⟩ := ih
    exact ⟨_, hm.saved run⟩
  | stopped verdicts slot record k before run ih =>
    obtain ⟨m, hm⟩ := ih
    rcases hm.cut run with hold | hnew
    · exact ⟨m, hold.mono fun _ _ => .inl⟩
    · refine ⟨_, hnew.mono fun slot' known hknown => hknown.imp_right ?_⟩
      rintro ⟨rfl, rfl⟩
      exact hnew.mirrors.load_saved
  | crashed before crash ih =>
    obtain ⟨m, hm⟩ := ih
    obtain ⟨m', hm', _⟩ := hm.crash crash
    exact ⟨m', hm'.backed⟩

/-- A crash anywhere in a save leaves every slot, when the directory is opened again, with a record
that it was loaded as since the directory was last synced, or the slot of the save with the new one;
if the save had been answered, it leaves this slot with the new record and the others as they were.
So a slot of which no save was refused or cut off since then is left as it was. Nothing else that the
crash has left is noticed later: whatever is done then, the store answers as a map does. -/
theorem crash_leaves_recent {s : DirectoryStore} (h : Fresh dir s) (hd : Reached dir s.files d recent)
    (slot : Slot) (record : AcceptorRecord)
    (hrun : d.runUnder verdicts ((saveSteps dir slot record).take k) = (outcome, d'))
    (hcrash : d'.Crash fs) :
    DirectoryStore.open dir fs = .ok ⟨dir, fs⟩ ∧
    (∀ slot', ∃ known, load slot' ⟨dir, fs⟩ = .ok known ∧
      (recent slot' known ∨ slot' = slot ∧ known = some record)) ∧
    ((saveSteps dir slot record).length ≤ k → outcome = .ok () →
      saveUnder verdicts slot record ⟨dir, d.files⟩ = (.ok (), ⟨dir, d'.files⟩) ∧
      load slot ⟨dir, fs⟩ = .ok (some record) ∧
      ∀ slot', slot' ≠ slot → load slot' ⟨dir, fs⟩ = load slot' ⟨dir, d.files⟩) ∧
    (∀ slot', (∀ known, recent slot' known → load slot' ⟨dir, d.files⟩ = .ok known) →
      load slot' ⟨dir, fs⟩ = load slot' ⟨dir, d.files⟩ ∨
        slot' = slot ∧ load slot' ⟨dir, fs⟩ = .ok (some record)) ∧
    ∃ m, AnswersAs m ⟨dir, fs⟩ := by
  obtain ⟨rfl, home, hmirrors⟩ := h.mirrors
  obtain ⟨m, hbacked⟩ := hd.backed hmirrors
  obtain ⟨m', hm', hleft⟩ : ∃ m', Mirrors home m' ⟨s.dir, fs⟩ ∧
      ∀ slot', recent.insert slot record slot' (m'.records.get? slot') := by
    rcases hbacked.cut hrun with hold | hnew
    · obtain ⟨m', hm', hleft⟩ := hold.crash hcrash
      exact ⟨m', hm', fun slot' => .inl (hleft slot')⟩
    · exact hnew.crash hcrash
  refine ⟨hm'.reopen, fun slot' => ⟨_, hm'.load slot', hleft slot'⟩, fun hk hok => ?_,
    fun slot' honly => ?_, m', hm'.answersAs⟩
  · subst hok
    rw [List.take_of_length_le hk] at hrun
    have hsaved := hbacked.saved hrun
    obtain ⟨m'', hm'', hsure⟩ := hsaved.crash hcrash
    have hlast : ∀ slot', load slot' ⟨s.dir, fs⟩ = load slot' ⟨s.dir, d'.files⟩ := fun slot' =>
      (hm''.load slot').trans (hsure slot').symm
    refine ⟨?_, ?_, fun slot' hslot => ?_⟩
    · rw [saveUnder, Disk.files_runUnder, hrun]
      rfl
    · rw [hlast, hsaved.mirrors.load_saved]
    · rw [hlast, hsaved.mirrors.load_other hslot, hbacked.mirrors.load slot']
  · rw [hm'.load slot']
    rcases hleft slot' with hrecent | ⟨hslot, hnew⟩
    · exact .inl (honly _ hrecent).symm
    · exact .inr ⟨hslot, congrArg Except.ok hnew⟩

/-- A first record is saved, and the save of a second one crashes before its draft is moved. -/
theorem crash_leaves_recent_unmoved :
    let dir : Path := ⟨["", "d"]⟩
    let start := FileSystem.empty.put ["d"] .directory
    let old : AcceptorRecord := ⟨⟨1, "a"⟩, none⟩
    let new : AcceptorRecord := ⟨⟨2, "a"⟩, some ⟨⟨2, "a"⟩, ⟨7⟩, [1]⟩⟩
    let d := ((Disk.settled start).runUnder .lenient (saveSteps dir ⟨7⟩ old)).2
    let d' := (d.runUnder .lenient ((saveSteps dir ⟨7⟩ new).take 3)).2
    load ⟨7⟩ ⟨dir, d.files⟩ = .ok (some old) ∧ d'.Crash d'.files ∧
      (load ⟨7⟩ ⟨dir, d'.files⟩ = .ok (some old) ∨ load ⟨7⟩ ⟨dir, d'.files⟩ = .ok (some new)) ∧
      ∃ m, AnswersAs m ⟨dir, d'.files⟩ := by
  intro dir start old new d d'
  have hsave : (Disk.settled start).runUnder .lenient (saveSteps dir ⟨7⟩ old) = (.ok (), d) :=
    Prod.ext (by decide +kernel) rfl
  have hload : load ⟨7⟩ ⟨dir, d.files⟩ = .ok (some old) := by decide +kernel
  have hd : Reached dir start d (Loads dir d.files) := .saved .lenient ⟨7⟩ old .opened hsave
  obtain ⟨_, _, _, honly, hanswers⟩ :=
    crash_leaves_recent fresh_new hd ⟨7⟩ new (Prod.ext rfl rfl) d'.crash_self
  refine ⟨hload, d'.crash_self, ?_, hanswers⟩
  rcases honly ⟨7⟩ fun _ hknown => hknown with hsame | ⟨_, hnew⟩
  · exact .inl (hsame.trans hload)
  · exact .inr hnew

/-! ### Saves that are refused after the move -/

/-- Until the directory is synced, a crash may undo all of a save. -/
lemma undoes_moved (h : d.Undoes fs)
    (hrun : d.runUnder verdicts (draftSteps dir slot record ++ [moveStep dir slot]) = (.ok (), d')) :
    d'.Undoes fs := by
  obtain ⟨_, created, hcreate, hrun⟩ := Disk.runUnder_cons_ok.mp hrun
  obtain ⟨_, filled, hfill, hrun⟩ := Disk.runUnder_cons_ok.mp hrun
  obtain ⟨_, synced, hsync, hrun⟩ := Disk.runUnder_cons_ok.mp hrun
  obtain ⟨_, moved, hmove, hend⟩ := Disk.runUnder_cons_ok.mp hrun
  cases hend
  have hmade : ∀ l, created.locate (draftPath dir slot) = .ok l →
      (d.after created (.create (draftPath dir slot))).earlier l (fs.lookup l) := by
    intro l hplace
    obtain ⟨q, hq, _⟩ := create_ok.mp hcreate
    rw [(apply_agree hcreate).locate hq] at hplace
    cases hplace
    exact .inr ⟨hq, h.found _⟩
  exact (((h.create hcreate).append hmade hfill).sync hsync).rename hmove

/-- A save of which only the last step is refused. -/
lemma runUnder_refused {refusal : Refusal} (hrefused : verdicts 4 = some refusal)
    (hrun : d.runUnder verdicts (draftSteps dir slot record ++ [moveStep dir slot]) = (.ok (), d')) :
    d.runUnder verdicts (saveSteps dir slot record) = (.error refusal.cause, d') := by
  have hsteps : saveSteps dir slot record =
      draftSteps dir slot record ++ [moveStep dir slot] ++ [.syncDirectory dir] := rfl
  have hlast : verdicts.later 4 0 = some refusal := hrefused
  rw [hsteps, Disk.runUnder_append, hrun]
  simp only [Disk.runUnder, draftSteps, List.length_append, List.length_cons, List.length_nil, hlast]
  rfl

/-- The sync of the directory is refused when a first slot is saved. That save has failed, but its
record is loaded, until the machine crashes in the middle of a save of another slot, before there is
more of it than an empty draft: then the first slot has no record again. -/
theorem refused_save_undone :
    let dir : Path := ⟨["", "d"]⟩
    let start := FileSystem.empty.put ["d"] .directory
    let record : AcceptorRecord := ⟨⟨1, "a"⟩, none⟩
    let other : AcceptorRecord := ⟨⟨2, "b"⟩, none⟩
    let verdicts : Verdicts := fun n => if n = 4 then some ⟨.notFound, 0⟩ else none
    let d := ((Disk.settled start).runUnder verdicts (saveSteps dir ⟨1⟩ record)).2
    let cut := d.runUnder .lenient ((saveSteps dir ⟨2⟩ other).take 1)
    Fresh dir ⟨dir, start⟩ ∧ (∃ recent, Reached dir start d recent) ∧
      saveUnder verdicts ⟨1⟩ record ⟨dir, start⟩ = (.error refused, ⟨dir, d.files⟩) ∧
      load ⟨1⟩ ⟨dir, d.files⟩ = .ok (some record) ∧
      cut.1 = .ok () ∧ cut.2.Crash start ∧ load ⟨1⟩ ⟨dir, start⟩ = .ok none := by
  intro dir start record other verdicts d cut
  obtain ⟨moved, hmoved⟩ : ∃ moved, (Disk.settled start).runUnder verdicts
      (draftSteps dir ⟨1⟩ record ++ [moveStep dir ⟨1⟩]) = (.ok (), moved) :=
    ⟨_, Prod.ext (by decide +kernel) rfl⟩
  have hrefused := runUnder_refused rfl hmoved
  have hd : d = moved := congrArg Prod.snd hrefused
  have hundoes : d.Undoes start := hd ▸ undoes_moved (.refl (.settled start)) hmoved
  have hcut : cut = (.ok (), cut.2) := Prod.ext (by decide +kernel) rfl
  obtain ⟨_, created, hcreate, hend⟩ := Disk.runUnder_cons_ok.mp hcut
  have hcrash : cut.2.Crash start := by
    rw [← congrArg Prod.snd hend]
    exact (hundoes.create hcreate).crash
  have hfailed : saveUnder verdicts ⟨1⟩ record ⟨dir, start⟩ = (.error refused, ⟨dir, d.files⟩) := by
    have hfiles := Disk.files_runUnder verdicts (saveSteps dir ⟨1⟩ record) (.settled start)
    rw [hrefused, ← hd] at hfiles
    exact congrArg (settle ⟨dir, start⟩) hfiles
  exact ⟨fresh_new, ⟨_, .stopped verdicts ⟨1⟩ record 5 .opened (Prod.ext rfl rfl)⟩, hfailed,
    by decide +kernel, congrArg Prod.fst hcut, hcrash, by decide +kernel⟩

end DirectoryStore
end Synod
