import Synod.Proofs.FailedSaves
import Synod.Proofs.Premises

/-!
# Acceptors side by side

Acceptors whose directories are in different places of one file system are no concern of each other.
What an acceptor does to the files stays inside its own place, and what it does there, and what it
answers, depends on nothing outside.
-/
namespace Synod
open FileSystem DirectoryStore

/-- The places in a directory. -/
def Inside (home l : Location) : Prop := ∃ name, l = home ++ [name]

lemma inside_append (home : Location) (name : String) : Inside home (home ++ [name]) := ⟨name, rfl⟩

lemma Inside.unique {home home' l : Location} (h : Inside home l) (h' : Inside home' l) :
    home' = home := by
  obtain ⟨name, rfl⟩ := h
  obtain ⟨name', heq⟩ := h'
  exact (List.append_inj_left' heq rfl).symm

namespace DirectoryStore
variable {s t : DirectoryStore} {home : Location}

/-- The steps of a save stay inside the directory. -/
lemma inside_of_touches (slot : Slot) (record : AcceptorRecord) {step : FileStep} {l : Location}
    (h : s.files.Houses s.dir home) (hstep : step ∈ saveSteps s.dir slot record)
    (hl : step.Touches s.files l) : Inside home l := by
  obtain ⟨p, hp, hl⟩ := hl
  have hname : ∃ name, IsName name ∧ p = s.dir.child name := by
    rcases paths_saveSteps hstep hp with hdraft | hrecord
    · exact ⟨draftName slot, isName_draftName slot, by rw [hdraft, draftPath]⟩
    · exact ⟨recordName slot, isName_recordName slot, by rw [hrecord, recordPath]⟩
  obtain ⟨name, hn, rfl⟩ := hname
  obtain ⟨home', hhome', rfl⟩ := houses_of_locate hn hl
  rw [h.unique hhome']
  exact inside_append home name

lemma save_eq_settle (slot : Slot) (record : AcceptorRecord) (s : DirectoryStore) :
    save slot record s = settle s (FileStep.runUnder .lenient (saveSteps s.dir slot record) s.files) :=
  (saveUnder_lenient slot record s).symm

/-- A save changes nothing outside the directory. -/
lemma save_agree (slot : Slot) (record : AcceptorRecord) (h : s.files.Houses s.dir home) :
    Agree (Inside home) s.files (save slot record s).2.files := by
  have hagree := FileStep.runUnder_agree .lenient (saveSteps s.dir slot record) s.files
  have hsteps : ∀ l, (∃ step ∈ saveSteps s.dir slot record, step.Touches s.files l) → Inside home l := by
    rintro l ⟨step, hstep, hl⟩
    exact inside_of_touches slot record h hstep hl
  rw [save_eq_settle, settle_eq]
  dsimp only
  exact hagree.mono hsteps

lemma dir_save (slot : Slot) (record : AcceptorRecord) (s : DirectoryStore) :
    (save slot record s).2.dir = s.dir := by
  rw [save_eq_settle, settle_eq]

section
variable (hdir : t.dir = s.dir) (h : s.files.Houses s.dir home)
  (hagree : Agree (fun l => ¬Inside home l) s.files t.files)
include hdir h hagree

/-- A load sees nothing outside the directory. -/
lemma load_congr (slot : Slot) : load slot t = load slot s := by
  have hcontent : t.files.content (home ++ [recordName slot]) =
      s.files.content (home ++ [recordName slot]) :=
    content_congr (hagree.lookup _ (not_not_intro (inside_append home _)))
  have hread : t.files.readFile (recordPath s.dir slot) =
      s.files.readFile (recordPath s.dir slot) := by
    rw [recordPath, h.readFile_child (isName_recordName slot),
      (hagree.houses h).readFile_child (isName_recordName slot), hcontent]
  unfold load
  rw [hdir, hread]

/-- A save does the same whatever is outside the directory. -/
lemma save_congr (slot : Slot) (record : AcceptorRecord) :
    (save slot record t).1 = (save slot record s).1 ∧
    Agree (fun l => ¬Inside home l) (save slot record s).2.files (save slot record t).2.files := by
  obtain ⟨hok, hend⟩ := hagree.runUnder
    (fun _ hstep _ hl => not_not_intro (inside_of_touches slot record h hstep hl)) .lenient
  rw [save_eq_settle, save_eq_settle, settle_eq, settle_eq, hdir]
  dsimp only
  rw [hok]
  exact ⟨rfl, hend⟩

end

end DirectoryStore

namespace Medium

/-- A medium after some operations: what they changed was in its own place. -/
inductive Confined (home : Location) : Medium → Medium → Prop
  | memory (s s' : MemoryStore) : Confined home (.memory s) (.memory s')
  | directory {s s' : DirectoryStore} (dir : s'.dir = s.dir)
      (agree : Agree (Inside home) s.files s'.files) : Confined home (.directory s) (.directory s')

/-- Media that differ at most in what is not in their place. -/
inductive Akin (home : Location) : Medium → Medium → Prop
  | memory (s : MemoryStore) : Akin home (.memory s) (.memory s)
  | directory {s t : DirectoryStore} (dir : t.dir = s.dir) (there : s.files.Houses s.dir home)
      (agree : Agree (fun l => ¬Inside home l) s.files t.files) :
      Akin home (.directory s) (.directory t)

variable {home : Location} {m m' m'' : Medium} {files files' : FileSystem}

@[simp] lemma mount_files : m.mount (m.files files) = m := by
  cases m <;> rfl

lemma Akin.trans (h : Akin home m m') (h' : Akin home m' m'') : Akin home m m'' := by
  cases h with
  | memory s => exact h'
  | directory dir there agree =>
    cases h' with
    | directory dir' there' agree' => exact .directory (dir'.trans dir) there (agree.trans agree')

/-- No operation tells akin media apart. -/
theorem indistinct_akin (home : Location) : Indistinct (Akin home) where
  load := by
    intro s t h slot
    cases h with
    | memory s => exact ⟨rfl, .memory s⟩
    | @directory s t dir there agree =>
      refine ⟨?_, .directory dir there agree⟩
      have hload := DirectoryStore.load_congr dir there agree slot
      simp only [RecordStore.load, hload]
  save := by
    intro s t h slot record
    cases h with
    | memory s => exact ⟨rfl, .memory _⟩
    | @directory s t dir there agree =>
      obtain ⟨hsame, hend⟩ := DirectoryStore.save_congr dir there agree slot record
      have hdirS := DirectoryStore.dir_save slot record s
      have hdirT := DirectoryStore.dir_save slot record t
      have hthere := (DirectoryStore.save_agree slot record there).houses there
      simp only [RecordStore.save]
      rcases hs : DirectoryStore.save slot record s with ⟨outcome, s'⟩
      rcases ht : DirectoryStore.save slot record t with ⟨outcome', t'⟩
      rw [hs, ht] at hsame hend
      rw [hs] at hdirS hthere
      rw [ht] at hdirT
      cases hsame
      have hakin : Akin home (.directory s') (.directory t') :=
        .directory (by rw [hdirT, hdirS, dir]) (by rwa [hdirS]) hend
      cases outcome with
      | error e => exact ⟨rfl, hakin⟩
      | ok u => exact ⟨rfl, hakin⟩

namespace Confined

theorem refl (home : Location) (m : Medium) : Confined home m m := by
  cases m with
  | memory s => exact .memory s s
  | directory s => exact .directory rfl (.refl _ _)

theorem trans (h : Confined home m m') (h' : Confined home m' m'') : Confined home m m'' := by
  cases h with
  | memory s s' =>
    cases h' with
    | memory _ s'' => exact .memory s s''
  | directory dir agree =>
    cases h' with
    | directory dir' agree' => exact .directory (dir'.trans dir) (agree.trans agree')

/-- The place of a medium is where it was. -/
lemma at_home (h : Confined home m m') (hat : m.At home) : m'.At home := by
  cases h with
  | memory => exact trivial
  | @directory s s' dir agree =>
    have hthere : s'.files.Houses s.dir home := agree.houses hat
    rwa [← dir] at hthere

/-- The files are as they were but for those in its place. -/
lemma agree_files (h : Confined home (m.mount files) m') : Agree (Inside home) files (m'.files files) := by
  cases m with
  | memory s =>
    cases h
    exact .refl _ _
  | directory s =>
    cases h with
    | directory dir agree => exact agree

end Confined

lemma load_confined (slot : Slot) (m : Medium) :
    Confined home m (RecordStore.load slot m).2 := by
  cases m with
  | memory s => exact .memory _ _
  | directory s => exact .directory rfl (.refl _ _)

lemma save_confined (slot : Slot) (record : AcceptorRecord) (h : m.At home) :
    Confined home m (RecordStore.save slot record m).2 := by
  cases m with
  | memory s => exact .memory _ _
  | directory s =>
    have hdir := DirectoryStore.dir_save slot record s
    have hagree := DirectoryStore.save_agree slot record h
    simp only [RecordStore.save]
    rcases hs : DirectoryStore.save slot record s with ⟨_ | _, s'⟩
    · rw [hs] at hdir hagree
      exact .directory hdir hagree
    · rw [hs] at hdir hagree
      exact .directory hdir hagree

end Medium

namespace Acceptor
open Medium
variable {home : Location} {a : Acceptor Medium}

/-- An acceptor keeps to the place of its medium. -/
theorem serve_confined (h : a.store.At home) (r : Request) :
    Confined home a.store (a.serve r).2.store := by
  have hcurrent : ∀ slot, Confined home a.store (a.current slot).2.store := by
    intro slot
    rcases store_current a slot with hstore | hstore <;> rw [hstore]
    · exact .refl _ _
    · exact load_confined slot a.store
  have hhandle : ∀ {α : Type} (reply : Option AcceptorRecord → Reply α) (slot : Slot),
      Confined home a.store (a.handle reply slot).2.store := by
    intro α reply slot
    have hread := hcurrent slot
    unfold handle
    rcases hc : a.current slot with ⟨_ | record, a'⟩ <;> rw [hc] at hread
    · exact hread
    · refine hread.trans ?_
      rcases store_commit a' slot (reply record) with hstore | ⟨written, hstore⟩
      · dsimp only
        rw [hstore]
        exact .refl _ _
      · dsimp only
        rw [hstore]
        exact save_confined slot written (hread.at_home h)
  cases r with
  | prepare slot id => exact hhandle _ slot
  | accept slot value => exact hhandle _ slot

end Acceptor
end Synod
