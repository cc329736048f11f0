import Mathlib.Tactic.Lemma
import Synod.Proofs.Refusals
import Synod.Store.Directory

/-!
# Drafts

A save writes a draft beside the record before it moves it into place. No record is ever read from
where a draft could be, and a save starts its draft anew, so that directories which differ in their
drafts at most are `Alike`: no answer of a store tells them apart. Whatever is refused and whenever,
a save leaves the directory alike or it has come past the move; then only the directory may not
have been synced.
-/
namespace Synod
open FileSystem FileStep

namespace DirectoryStore

lemma utf8ByteSize_ofList_le (cs : List Char) : (String.ofList cs).utf8ByteSize ≤ 4 * cs.length := by
  induction cs with
  | nil => simp
  | cons c cs ih =>
    have hsplit : (String.ofList (c :: cs)).utf8ByteSize =
        c.utf8Size + (String.ofList cs).utf8ByteSize := by
      rw [← List.singleton_append, String.ofList_append, String.utf8ByteSize_append,
        ← String.singleton_eq_ofList, String.utf8ByteSize_singleton]
    have hc := c.utf8Size_le_four
    simp only [hsplit, List.length_cons]
    omega

/-- A text of a few characters, but more than two. -/
lemma isName_of_length {name : String} (hlong : 2 < name.toList.length)
    (hshort : name.toList.length < 64) : IsName name where
  ne_empty h := by simp [h] at hlong
  ne_dot h := by simp [h] at hlong
  ne_dots h := by simp [h] at hlong
  short := by
    have hsize := utf8ByteSize_ofList_le name.toList
    rw [String.ofList_toList] at hsize
    simp only [longestName]
    omega

lemma length_recordName (slot : Slot) : (recordName slot).toList.length = 25 := by
  simp [recordName, slotDigits]

lemma length_draftName (slot : Slot) : (draftName slot).toList.length = 29 := by
  simp [draftName, length_recordName]

lemma isName_recordName (slot : Slot) : IsName (recordName slot) :=
  isName_of_length (by simp [length_recordName]) (by simp [length_recordName])

lemma isName_draftName (slot : Slot) : IsName (draftName slot) :=
  isName_of_length (by simp [length_draftName]) (by simp [length_draftName])

/-- A record never stands where a draft could. -/
lemma recordName_ne_draftName (slot slot' : Slot) : recordName slot ≠ draftName slot' := by
  intro h
  have hlength := congrArg (·.toList.length) h
  simp [length_recordName, length_draftName] at hlength

/-- The places of drafts. -/
def IsDraft (home l : Location) : Prop := ∃ slot, l = home ++ [draftName slot]

lemma not_isDraft_record (home home' : Location) (slot : Slot) :
    ¬IsDraft home (home' ++ [recordName slot]) := by
  rintro ⟨slot', h⟩
  have hname := List.append_inj_right' h (by simp only [List.length_singleton])
  exact recordName_ne_draftName slot slot' (List.singleton_inj.mp hname)

/-- Two stores in one directory that differ in their drafts at most. -/
structure Alike (s t : DirectoryStore) : Prop where
  dir : t.dir = s.dir
  files : t.files = s.files ∨
    ∃ home, s.files.Houses s.dir home ∧ Agree (IsDraft home) s.files t.files

variable {s t : DirectoryStore}

theorem Alike.refl (s : DirectoryStore) : Alike s s := ⟨rfl, .inl rfl⟩

/-- A draft left behind changes no answer of a load. -/
theorem Alike.load (h : Alike s t) (slot : Slot) : load slot t = load slot s := by
  have hread : t.files.readFile (recordPath s.dir slot) =
      s.files.readFile (recordPath s.dir slot) := by
    rcases h.files with hsame | ⟨home, hhome, hagree⟩
    · rw [hsame]
    · have hcontent := content_congr (hagree.lookup _ (not_isDraft_record home home slot))
      have hhome' := hagree.houses hhome
      rw [recordPath, hhome.readFile_child (isName_recordName slot),
        hhome'.readFile_child (isName_recordName slot), hcontent]
  unfold DirectoryStore.load
  rw [h.dir, hread]

/-- How a save ends whose steps have ended. -/
def settle (s : DirectoryStore) : Except OsError Unit × FileSystem → Except Failure Unit × DirectoryStore
  | (.ok (), files) => (.ok (), { s with files })
  | (.error _, files) => (.error refused, { s with files })

theorem settle_eq (s : DirectoryStore) (outcome : Except OsError Unit × FileSystem) :
    settle s outcome =
      (if outcome.1.isOk then .ok () else .error refused, { s with files := outcome.2 }) := by
  rcases outcome with ⟨_ | _, files⟩ <;> rfl

/-- Saving a record under verdicts of the operating system. -/
def saveUnder (verdicts : Verdicts) (slot : Slot) (record : AcceptorRecord) (s : DirectoryStore) :
    Except Failure Unit × DirectoryStore :=
  settle s (runUnder verdicts (saveSteps s.dir slot record) s.files)

theorem saveUnder_lenient (slot : Slot) (record : AcceptorRecord) (s : DirectoryStore) :
    saveUnder .lenient slot record s = save slot record s := by
  unfold saveUnder save
  rewrite [runUnder_lenient]
  generalize run (saveSteps s.dir slot record) s.files = outcome
  rcases outcome with ⟨_ | _, files⟩ <;> rfl

/-- The part of a save that is about the draft alone. -/
def draftSteps (dir : Path) (slot : Slot) (record : AcceptorRecord) : List FileStep :=
  [.create (draftPath dir slot), .append (draftPath dir slot) (JsonForm.compact record),
    .sync (draftPath dir slot)]

def moveStep (dir : Path) (slot : Slot) : FileStep :=
  .rename (draftPath dir slot) (recordPath dir slot)

lemma saveSteps_eq (dir : Path) (slot : Slot) (record : AcceptorRecord) :
    saveSteps dir slot record =
      draftSteps dir slot record ++ [moveStep dir slot, .syncDirectory dir] := rfl

lemma paths_draftSteps {dir p : Path} {slot : Slot} {record : AcceptorRecord} {step : FileStep}
    (hstep : step ∈ draftSteps dir slot record) (hp : p ∈ step.paths) : p = draftPath dir slot := by
  unfold draftSteps at hstep
  generalize draftPath dir slot = draft at *
  simp only [List.mem_cons, List.not_mem_nil, or_false] at hstep
  rcases hstep with rfl | rfl | rfl <;> simpa [paths] using hp

/-- The steps of a save are about the draft and the record. -/
lemma paths_saveSteps {dir p : Path} {slot : Slot} {record : AcceptorRecord} {step : FileStep}
    (hstep : step ∈ saveSteps dir slot record) (hp : p ∈ step.paths) :
    p = draftPath dir slot ∨ p = recordPath dir slot := by
  rw [saveSteps_eq, List.mem_append] at hstep
  rcases hstep with hstep | hstep
  · exact .inl (paths_draftSteps hstep hp)
  · simp only [moveStep, List.mem_cons, List.not_mem_nil, or_false] at hstep
    rcases hstep with rfl | rfl
    · simpa only [paths, List.mem_cons, List.not_mem_nil, or_false] using hp
    · cases hp

/-- The steps of a save touch no place of a draft but that of their own. -/
lemma locate_of_touches_draft {dir : Path} {slot : Slot} {record : AcceptorRecord}
    {step : FileStep} {fs : FileSystem} {home l : Location}
    (hstep : step ∈ saveSteps dir slot record) (hl : step.Touches fs l) (hdraft : IsDraft home l) :
    fs.locate (draftPath dir slot) = .ok l := by
  obtain ⟨p, hp, hl⟩ := hl
  rcases paths_saveSteps hstep hp with hdraft' | hrecord
  · rw [← hdraft']
    exact hl
  · rw [hrecord] at hl
    obtain ⟨home', _, hplace⟩ := houses_of_locate (isName_recordName slot) hl
    exact absurd (hplace ▸ hdraft) (not_isDraft_record home home' slot)

lemma saveSteps_eq_create (dir : Path) (slot : Slot) (record : AcceptorRecord) :
    ∃ rest, saveSteps dir slot record = .create (draftPath dir slot) :: rest := ⟨_, rfl⟩

/-- A draft left behind changes nothing about a later save. -/
theorem Alike.saveUnder (h : Alike s t) (verdicts : Verdicts) (slot : Slot)
    (record : AcceptorRecord) :
    (saveUnder verdicts slot record t).1 = (DirectoryStore.saveUnder verdicts slot record s).1 ∧
    Alike (DirectoryStore.saveUnder verdicts slot record s).2
      (DirectoryStore.saveUnder verdicts slot record t).2 := by
  unfold DirectoryStore.saveUnder
  simp only [settle_eq, h.dir]
  rcases h.files with hsame | ⟨home, hhome, hagree⟩
  · rw [hsame]
    exact ⟨rfl, rfl, .inl rfl⟩
  · obtain ⟨rest, hsteps⟩ := saveSteps_eq_create s.dir slot record
    have hclear : ∀ step ∈ rest, ∀ l, step.Touches s.files l → IsDraft home l →
        s.files.locate (draftPath s.dir slot) = .ok l := fun step hstep l hl hdraft =>
      locate_of_touches_draft (hsteps ▸ List.mem_cons_of_mem _ hstep) hl hdraft
    rw [hsteps]
    obtain ⟨hok, hend⟩ := hagree.runUnder_create hclear verdicts
    rw [hok]
    exact ⟨rfl, rfl, .inr ⟨home, (runUnder_agree verdicts _ s.files).houses hhome, hend⟩⟩

/-- All of a save has been done, but the directory may not have been synced. -/
structure Moved (slot : Slot) (record : AcceptorRecord) (s t : DirectoryStore) : Prop where
  dir : t.dir = s.dir
  files : run (draftSteps s.dir slot record ++ [moveStep s.dir slot]) s.files = (.ok (), t.files)

/-- As long as only the draft is written, nothing can be seen of a save. -/
lemma alike_draftSteps (verdicts : Verdicts) (slot : Slot) (record : AcceptorRecord)
    (s : DirectoryStore) :
    Alike s { s with files := (runUnder verdicts (draftSteps s.dir slot record) s.files).2 } := by
  refine ⟨rfl, ?_⟩
  rcases runUnder_create_cases verdicts (draftPath s.dir slot)
      (draftSteps s.dir slot record).tail s.files with hsame | ⟨l, hl⟩
  · exact .inl hsame
  · obtain ⟨home, hhome, hplace⟩ := houses_of_locate (isName_draftName slot) hl
    refine .inr ⟨home, hhome, (runUnder_agree verdicts _ s.files).mono ?_⟩
    rintro q ⟨step, hstep, p, hp, hq⟩
    rw [paths_draftSteps hstep hp, hl, hplace] at hq
    exact ⟨slot, (Except.ok.inj hq).symm⟩

/-- Once the draft is written, nothing happens unless it can be moved. After that nothing changes
any more, and nothing fails but the sync of the directory. -/
lemma runUnder_move (verdicts : Verdicts) (dir : Path) (slot : Slot) (fs : FileSystem) :
    (runUnder verdicts [moveStep dir slot, .syncDirectory dir] fs).2 = fs ∨
    ∃ outcome moved, runUnder verdicts [moveStep dir slot, .syncDirectory dir] fs = (outcome, moved) ∧
      (moveStep dir slot).apply fs = .ok moved ∧
      (outcome.isOk ∨ verdicts 1 ≠ none ∨ (syncDirectory dir).apply moved ≠ .ok moved) := by
  simp only [runUnder]
  cases verdicts 0 with
  | some refusal => exact .inl rfl
  | none =>
    cases (moveStep dir slot).apply fs with
    | error e => exact .inl rfl
    | ok moved =>
      right
      cases hverdict : verdicts.later 1 0 with
      | some refusal =>
        have hrefused : verdicts 1 = some refusal := hverdict
        exact ⟨_, moved, rfl, rfl, .inr (.inl (by simp [hrefused]))⟩
      | none =>
        cases hsync : (syncDirectory dir).apply moved with
        | error e =>
          exact ⟨.error e, moved, by simp only [hsync], rfl, .inr (.inr (by simp [hsync]))⟩
        | ok synced =>
          obtain ⟨_, _, _, rfl⟩ := syncDirectory_ok.mp hsync
          exact ⟨.ok (), synced, by simp only [hsync], rfl, .inl rfl⟩

/-- The steps of a save have come past the move, or they have been about the draft alone. -/
lemma runUnder_saveSteps (verdicts : Verdicts) (dir : Path) (slot : Slot) (record : AcceptorRecord)
    (fs : FileSystem) :
    (runUnder verdicts (saveSteps dir slot record) fs).2 =
      (runUnder verdicts (draftSteps dir slot record) fs).2 ∨
    ∃ outcome moved, runUnder verdicts (saveSteps dir slot record) fs = (outcome, moved) ∧
      run (draftSteps dir slot record ++ [moveStep dir slot]) fs = (.ok (), moved) ∧
      (outcome.isOk ∨ verdicts 4 ≠ none ∨ (syncDirectory dir).apply moved ≠ .ok moved) := by
  rw [saveSteps_eq, runUnder_append]
  cases hdraft : runUnder verdicts (draftSteps dir slot record) fs with
  | mk outcome filled =>
    cases outcome with
    | error e => exact .inl rfl
    | ok u =>
      rcases runUnder_move (verdicts.later 3) dir slot filled with
        hsame | ⟨outcome, moved, hrun, hmove, hsynced⟩
      · exact .inl hsame
      · have hfill := run_of_runUnder hdraft
        have hmoved : run [moveStep dir slot] filled = (.ok (), moved) :=
          run_cons_ok.mpr ⟨moved, hmove, rfl⟩
        exact .inr ⟨outcome, moved, hrun, run_append_ok.mpr ⟨filled, hfill, hmoved⟩, hsynced⟩

/-- A save that did not come past the move cannot be seen afterwards. One that did can only have
failed because the directory was not synced. -/
theorem saveUnder_cases (verdicts : Verdicts) (slot : Slot) (record : AcceptorRecord)
    (s : DirectoryStore) :
    let saved := DirectoryStore.saveUnder verdicts slot record s
    Alike s saved.2 ∨ Moved slot record s saved.2 ∧ (saved.1.isOk ∨ verdicts 4 ≠ none ∨
      (syncDirectory s.dir).apply saved.2.files ≠ .ok saved.2.files) := by
  unfold DirectoryStore.saveUnder
  rcases runUnder_saveSteps verdicts s.dir slot record s.files with
    hdraft | ⟨outcome, moved, hrun, hall, hsynced⟩
  · left
    rw [settle_eq, hdraft]
    exact alike_draftSteps verdicts slot record s
  · right
    rw [hrun]
    cases outcome with
    | error e => exact ⟨⟨rfl, hall⟩, hsynced⟩
    | ok u => exact ⟨⟨rfl, hall⟩, .inl rfl⟩

/-- After the move the directory can be synced, unless its path is empty. -/
lemma Moved.syncs {slot : Slot} {record : AcceptorRecord} (h : Moved slot record s t)
    (hdir : s.dir.parts ≠ [""]) : (syncDirectory s.dir).apply t.files = .ok t.files := by
  obtain ⟨filled, hfill, _⟩ := run_append_ok.mp h.files
  obtain ⟨created, hcreate, _⟩ := run_cons_ok.mp hfill
  obtain ⟨l, hl, _⟩ := create_ok.mp hcreate
  obtain ⟨home, hhome, _⟩ := houses_of_locate (isName_draftName slot) hl
  have hagree := runUnder_agree .lenient (draftSteps s.dir slot record ++ [moveStep s.dir slot])
    s.files
  rw [runUnder_lenient, h.files] at hagree
  have hhome' := hagree.houses hhome
  have hplace := hhome'.locate_self
  rw [fault?_directory hdir (fault?_of_locate hl)] at hplace
  exact syncDirectory_ok.mpr ⟨home, hplace, hhome'.directory, rfl⟩

/-- A save in a directory that has a name, and whose sync is not refused, cannot be seen afterwards
if it fails. -/
theorem alike_of_error {verdicts : Verdicts} {slot : Slot} {record : AcceptorRecord} {e : Failure}
    (hdir : s.dir.parts ≠ [""]) (hsync : verdicts 4 = none)
    (h : (DirectoryStore.saveUnder verdicts slot record s).1 = .error e) :
    Alike s (DirectoryStore.saveUnder verdicts slot record s).2 := by
  rcases saveUnder_cases verdicts slot record s with halike | ⟨hmoved, hok | hrefused | hunsynced⟩
  · exact halike
  · rw [h] at hok
    cases hok
  · exact absurd hsync hrefused
  · exact absurd (hmoved.syncs hdir) hunsynced

/-- After the move the record's text stands in its place. -/
theorem Moved.readFile {slot : Slot} {record : AcceptorRecord} (h : Moved slot record s t) :
    t.files.readFile (recordPath t.dir slot) = .ok (JsonForm.compact record) := by
  obtain ⟨filled, hfill, hmove⟩ := run_append_ok.mp h.files
  obtain ⟨created, hcreate, hfill⟩ := run_cons_ok.mp hfill
  obtain ⟨appended, happend, hfill⟩ := run_cons_ok.mp hfill
  obtain ⟨synced, hsync, hend⟩ := run_cons_ok.mp hfill
  obtain ⟨moved, hmove, hend'⟩ := run_cons_ok.mp hmove
  obtain ⟨_, _, _, _, rfl⟩ := sync_ok.mp hsync
  cases hend
  cases hend'
  have hwritten := readFile_append happend (readFile_create hcreate)
  rw [List.nil_append] at hwritten
  rw [h.dir]
  exact readFile_rename hmove hwritten

end DirectoryStore
end Synod
