import Synod.Proofs.Drafts
import Synod.Proofs.Forms
import Synod.Proofs.Opening
import Synod.Store.Memory

/-!
# Directories as maps

A directory `Mirrors` a map if in the place of each record stands a text of what the map has for its
slot, or nothing if the map has nothing, and in the place of no draft a directory. Writing a draft
keeps this, because no record has the name of a draft; moving it changes the one slot, because no
two records have the same name. So whatever is done with a store in a directory, it answers as a map
in memory does that is never reopened.
-/
namespace Synod

namespace Numeral

lemma ofDigits_padded (width n : Nat) : ofDigits (padded width n) = n % Nat.pow 10 width := by
  induction width generalizing n with
  | zero => exact (Nat.mod_one n).symm
  | succ width ih =>
    have hlast : n % (10 * Nat.pow 10 width) = n % 10 + 10 * (n / 10 % Nat.pow 10 width) := Nat.mod_mul
    have hpow : Nat.pow 10 (width + 1) = 10 * Nat.pow 10 width := Nat.pow_succ'
    rw [padded, ofDigits_append_digit, ih, hpow, hlast]
    omega

lemma isDigit_of_mem_padded (width n : Nat) : ∀ b ∈ padded width n, isDigit b := by
  induction width generalizing n with
  | zero => simp [padded]
  | succ width ih =>
    intro b hb
    rcases List.mem_append.mp hb with hb | hb
    · exact ih (n / 10) b hb
    · rw [List.mem_singleton.mp hb]
      exact isDigit_digit n

end Numeral

namespace DirectoryStore
open FileSystem FileStep RecordStore

/-! ### Names -/

lemma toNat_ofNat_byte (b : UInt8) : (Char.ofNat b.toNat).toNat = b.toNat := by
  have hvalid : b.toNat.isValidChar := .inl (Nat.lt_trans b.toNat_lt_size (by decide))
  rw [Char.ofNat, dif_pos hvalid]
  rfl

/-- Slots that are not the same have files of other names. -/
theorem recordName_injective : Function.Injective recordName := by
  intro slot slot' h
  have hdigits : slotDigits slot = slotDigits slot' := (String.append_left_inj ".json").mp h
  have hmap := String.ofList_injective hdigits
  have hbytes : Function.Injective fun b : UInt8 => Char.ofNat b.toNat := fun b b' hb => by
    have hnat := congrArg Char.toNat hb
    simp only [toNat_ofNat_byte] at hnat
    exact UInt8.toNat_inj.mp hnat
  have hvalue := congrArg Numeral.ofDigits (List.map_injective_iff.mpr hbytes hmap)
  simp only [Numeral.ofDigits_padded] at hvalue
  have hlt := slot.sequence.toNat_lt_size
  have hlt' := slot'.sequence.toNat_lt_size
  have hsize : UInt64.size < Nat.pow 10 20 := by decide
  rw [Nat.mod_eq_of_lt (by omega), Nat.mod_eq_of_lt (by omega)] at hvalue
  exact Slot.eq_of_toNat_eq hvalue

/-! ### Stores that mirror a map -/

/-- A directory's path with which nothing is wrong, and nothing with those of its files. -/
structure Usable (dir : Path) : Prop where
  named : dir.parts ≠ [""]
  record : ∀ slot, fault? (recordPath dir slot) = none
  draft : ∀ slot, fault? (draftPath dir slot) = none

lemma Usable.directory {dir : Path} (h : Usable dir) : fault? dir = none :=
  fault?_directory h.named (h.record ⟨0⟩)

lemma not_nul_recordName (slot : Slot) : '\x00' ∉ (recordName slot).toList := by
  have hdigits : '\x00' ∉ (slotDigits slot).toList := by
    rw [slotDigits, String.toList_ofList]
    intro hmem
    obtain ⟨b, hb, hnul⟩ := List.mem_map.mp hmem
    have hdigit := Numeral.isDigit_of_mem_padded 20 slot.sequence.toNat b hb
    have hvalue := toNat_ofNat_byte b
    rw [hnul] at hvalue
    have hzero : b = 0 := UInt8.toNat_inj.mp hvalue.symm
    rw [hzero] at hdigit
    exact absurd hdigit (by decide)
  simpa [recordName] using hdigits

lemma not_nul_draftName (slot : Slot) : '\x00' ∉ (draftName slot).toList := by
  simpa [draftName] using not_nul_recordName slot

/-- Paths without zeros that leave room for the names of records and drafts. -/
lemma usable_of_short {dir : Path} (hdir : dir.parts ≠ [""]) (hnul : '\x00' ∉ dir.toString.toList)
    (hroom : dir.toString.utf8ByteSize + 120 ≤ longestPath) : Usable dir := by
  have hsize : ∀ name : String, name.utf8ByteSize ≤ 4 * name.toList.length := fun name => by
    simpa using utf8ByteSize_ofList_le name.toList
  refine ⟨hdir, fun slot => ?_, fun slot => ?_⟩
  · have hshort := hsize (recordName slot)
    rw [length_recordName] at hshort
    exact fault?_child hnul (isName_recordName slot) (not_nul_recordName slot) (by omega)
  · have hshort := hsize (draftName slot)
    rw [length_draftName] at hshort
    exact fault?_child hnul (isName_draftName slot) (not_nul_draftName slot) (by omega)

/-- What stands in the place of a record, given what a map has for its slot. -/
def Holds (entry : Option Entry) : Option AcceptorRecord → Prop
  | none => entry = none
  | some record => ∃ bytes, entry = some (.file bytes) ∧ JsonForm.read? bytes = some record

lemma Holds.ne_directory {entry : Option Entry} {known : Option AcceptorRecord}
    (h : Holds entry known) : entry ≠ some .directory := by
  cases known with
  | none =>
    have hnone : entry = none := h
    simp [hnone]
  | some record =>
    obtain ⟨bytes, hfile, _⟩ := h
    simp [hfile]

/-- A save whose steps can all be made. -/
lemma save_of_run {slot : Slot} {record : AcceptorRecord} {s : DirectoryStore} {files : FileSystem}
    (h : run (saveSteps s.dir slot record) s.files = (.ok (), files)) :
    DirectoryStore.save slot record s = (.ok (), { s with files }) := by
  unfold DirectoryStore.save
  rewrite [h]
  rfl

/-- A store whose directory is at `home` and holds what a map holds. -/
structure Mirrors (home : Location) (m : MemoryStore) (s : DirectoryStore) : Prop where
  usable : Usable s.dir
  working : s.files.lookup s.files.current = some .directory
  houses : s.files.Houses s.dir home
  record : ∀ slot, Holds (s.files.lookup (home ++ [recordName slot])) (m.records.get? slot)
  draft : ∀ slot, s.files.lookup (home ++ [draftName slot]) ≠ some .directory

namespace Mirrors
variable {home : Location} {m : MemoryStore} {s : DirectoryStore} {dir : Path} {fs fs' : FileSystem}

lemma locate_record (h : Mirrors home m s) (slot : Slot) :
    s.files.locate (recordPath s.dir slot) = .ok (home ++ [recordName slot]) := by
  have hfault := h.usable.record slot
  rw [recordPath] at hfault ⊢
  rw [h.houses.locate_child (isName_recordName slot), hfault]

lemma locate_draft (h : Mirrors home m s) (slot : Slot) :
    s.files.locate (draftPath s.dir slot) = .ok (home ++ [draftName slot]) := by
  have hfault := h.usable.draft slot
  rw [draftPath] at hfault ⊢
  rw [h.houses.locate_child (isName_draftName slot), hfault]

lemma locate_self (h : Mirrors home m s) : s.files.locate s.dir = .ok home := by
  rw [h.houses.locate_self, h.usable.directory]

/-- A load answers what the map has. -/
theorem load (h : Mirrors home m s) (slot : Slot) :
    DirectoryStore.load slot s = .ok (m.records.get? slot) := by
  have hrecord := h.record slot
  have hread : s.files.readFile (recordPath s.dir slot) =
      s.files.content (home ++ [recordName slot]) := by
    rw [readFile_eq, h.locate_record slot]
    rfl
  unfold DirectoryStore.load
  rw [hread, content]
  cases hknown : m.records.get? slot with
  | none =>
    rw [hknown] at hrecord
    have hnone : s.files.lookup (home ++ [recordName slot]) = none := hrecord
    rw [hnone]
  | some record =>
    rw [hknown] at hrecord
    obtain ⟨bytes, hfile, hread⟩ := hrecord
    simp only [hfile, hread]

lemma load_saved {record : AcceptorRecord} {slot : Slot}
    (h : Mirrors home (RecordStore.save slot record m).2 s) :
    DirectoryStore.load slot s = .ok (some record) := by
  rw [h.load slot]
  simp [RecordStore.save]

lemma load_other {record : AcceptorRecord} {slot slot' : Slot}
    (h : Mirrors home (RecordStore.save slot record m).2 s) (hslot : slot' ≠ slot) :
    DirectoryStore.load slot' s = .ok (m.records.get? slot') := by
  rw [h.load slot']
  simp [RecordStore.save, hslot.symm]

/-- To open the directory again changes nothing. -/
theorem reopen (h : Mirrors home m s) : DirectoryStore.open s.dir s.files = .ok s :=
  open_of_houses h.houses h.usable.directory h.working

/-- With the same directories, only the records' places matter. -/
theorem of_agree {except : Location → Prop} {m' : MemoryStore} (h : Mirrors home m ⟨dir, fs⟩)
    (hagree : Agree except fs fs')
    (hrecord : ∀ slot, Holds (fs'.lookup (home ++ [recordName slot])) (m'.records.get? slot)) :
    Mirrors home m' ⟨dir, fs'⟩ where
  usable := h.usable
  working := by
    have hsame : fs'.current = fs.current := hagree.current
    rw [hsame]
    exact (hagree.directory _).mpr h.working
  houses := hagree.houses h.houses
  record := hrecord
  draft slot := hagree.not_directory (h.draft slot)

/-- Whatever becomes of drafts, the directory mirrors the same map. -/
theorem agree (h : Mirrors home m ⟨dir, fs⟩) (hagree : Agree (IsDraft home) fs fs') :
    Mirrors home m ⟨dir, fs'⟩ := by
  refine h.of_agree hagree fun slot => ?_
  rw [hagree.lookup _ (not_isDraft_record home home slot)]
  exact h.record slot

lemma record_ne_record {slot slot' : Slot} (h : slot ≠ slot') :
    home ++ [recordName slot'] ≠ home ++ [recordName slot] := by
  intro heq
  have hname := List.singleton_inj.mp (List.append_cancel_left heq)
  exact h (recordName_injective hname).symm

/-- A move is about the record of one slot. -/
lemma not_touches_move {slot slot' : Slot} (h : Mirrors home m ⟨dir, fs⟩) (hslot : slot ≠ slot') :
    ¬(moveStep dir slot).Touches fs (home ++ [recordName slot']) := by
  rintro ⟨p, hp, hplace⟩
  simp only [moveStep, paths, List.mem_cons, List.not_mem_nil, or_false] at hp
  rcases hp with hp | hp <;> rw [hp] at hplace
  · have hsame := (h.locate_draft slot).symm.trans hplace
    exact not_isDraft_record home home slot' ⟨slot, (Except.ok.inj hsame).symm⟩
  · have hsame := (h.locate_record slot).symm.trans hplace
    exact record_ne_record hslot (Except.ok.inj hsame).symm

/-- What a move makes of the places of records. -/
lemma lookup_move {slot : Slot} {bytes : List UInt8} (h : Mirrors home m ⟨dir, fs⟩)
    (hdraft : fs.readFile (draftPath dir slot) = .ok bytes)
    (hmove : (moveStep dir slot).apply fs = .ok fs') (slot' : Slot) :
    fs'.lookup (home ++ [recordName slot']) =
      if slot = slot' then some (.file bytes) else fs.lookup (home ++ [recordName slot']) := by
  split_ifs with hslot
  · subst hslot
    have hread := readFile_rename hmove hdraft
    have hplace := (apply_agree hmove).locate (h.locate_record slot)
    rw [readFile_eq, hplace] at hread
    exact content_eq_ok.mp hread
  · exact (apply_agree hmove).lookup _ (h.not_touches_move hslot)

/-- Once a draft with a record's text is moved, the map has the record. -/
theorem move {slot : Slot} {record : AcceptorRecord} (h : Mirrors home m ⟨dir, fs⟩)
    (hdraft : fs.readFile (draftPath dir slot) = .ok (JsonForm.compact record))
    (hmove : (moveStep dir slot).apply fs = .ok fs') :
    Mirrors home (RecordStore.save slot record m).2 ⟨dir, fs'⟩ := by
  refine h.of_agree (apply_agree hmove) fun slot' => ?_
  simp only [RecordStore.save, SlotMap.get?_insert, h.lookup_move hdraft hmove slot']
  split_ifs with hslot
  · exact ⟨_, rfl, LawfulForm.lossless.compact record⟩
  · exact h.record slot'

/-- A draft can be written, and then it has the record's text. -/
theorem exists_draft (h : Mirrors home m s) (slot : Slot) (record : AcceptorRecord) :
    ∃ drafted, run (draftSteps s.dir slot record) s.files = (.ok (), drafted) ∧
      drafted.readFile (draftPath s.dir slot) = .ok (JsonForm.compact record) := by
  have hplace := h.locate_draft slot
  have hcreate := create_ok.mpr ⟨_, hplace, h.draft slot, rfl⟩
  have hempty := readFile_create hcreate
  obtain ⟨place, hplace', hfile⟩ := readFile_ok.mp hempty
  have happend : (append (draftPath s.dir slot) (JsonForm.compact record)).apply _ = .ok _ :=
    append_ok.mpr ⟨place, [], hplace', hfile, rfl⟩
  have hfull := readFile_append happend hempty
  obtain ⟨place', hplace'', hfile'⟩ := readFile_ok.mp hfull
  have hsync := sync_ok.mpr ⟨place', _, hplace'', hfile', rfl⟩
  refine ⟨_, run_cons_ok.mpr ⟨_, hcreate, run_cons_ok.mpr ⟨_, happend, run_cons_ok.mpr
    ⟨_, hsync, rfl⟩⟩⟩, hfull⟩

/-- Writing a draft is not seen. -/
theorem draft_written {drafted : FileSystem} {slot : Slot} {record : AcceptorRecord}
    (h : Mirrors home m ⟨dir, fs⟩) (hrun : run (draftSteps dir slot record) fs = (.ok (), drafted)) :
    Mirrors home m ⟨dir, drafted⟩ := by
  refine h.agree ?_
  have hagree := runUnder_agree .lenient (draftSteps dir slot record) fs
  rw [runUnder_lenient, hrun] at hagree
  refine hagree.mono ?_
  rintro q ⟨step, hstep, p, hp, hq⟩
  rw [paths_draftSteps hstep hp] at hq
  exact ⟨slot, Except.ok.inj (hq.symm.trans (h.locate_draft slot))⟩

/-- A save goes through, and the map has the record. -/
theorem save (h : Mirrors home m s) (slot : Slot) (record : AcceptorRecord) :
    ∃ files, run (saveSteps s.dir slot record) s.files = (.ok (), files) ∧
      Mirrors home (RecordStore.save slot record m).2 { s with files } := by
  obtain ⟨dir, fs⟩ := s
  obtain ⟨drafted, hrun, hdraft⟩ := h.exists_draft slot record
  have hdrafted := h.draft_written hrun
  obtain ⟨place, hplace, hfile⟩ := readFile_ok.mp hdraft
  have hmove := rename_ok.mpr ⟨place, _, _, hplace, hdrafted.locate_record slot, hfile,
    (hdrafted.record slot).ne_directory, rfl⟩
  have hmoved := hdrafted.move hdraft hmove
  have hsync := syncDirectory_ok.mpr ⟨home, hmoved.locate_self, hmoved.houses.directory, rfl⟩
  refine ⟨_, ?_, hmoved⟩
  rw [saveSteps_eq]
  exact run_append_ok.mpr ⟨drafted, hrun, run_cons_ok.mpr ⟨_, hmove, run_cons_ok.mpr ⟨_, hsync, rfl⟩⟩⟩

end Mirrors

/-! ### New directories -/

/-- A store just opened, in a directory with nothing in it. -/
structure Fresh (dir : Path) (s : DirectoryStore) : Prop where
  opened : ∃ files, DirectoryStore.open dir files = .ok s
  usable : Usable dir
  working : s.files.lookup s.files.current = some .directory
  bare : ∃ home, s.files.locate dir = .ok home ∧ s.files.below home = []

lemma lookup_of_below {fs : FileSystem} {home : Location} (h : fs.below home = []) (name : String) :
    fs.lookup (home ++ [name]) = none := by
  have hnone : ∀ e ∈ fs.entries, e.1 ≠ home ++ [name] := by
    rintro e he heq
    have hfilter := List.map_eq_nil_iff.mp h
    have hout := List.filter_eq_nil_iff.mp hfilter e he
    simp [heq] at hout
  have hfind : ∀ es : List (Location × Entry), (∀ e ∈ es, e.1 ≠ home ++ [name]) →
      find? (home ++ [name]) es = none := by
    intro es hes
    induction es with
    | nil => rfl
    | cons e rest ih =>
      rw [find?, if_neg (hes e List.mem_cons_self)]
      exact ih fun e' he' => hes e' (List.mem_cons_of_mem _ he')
  rw [lookup, if_neg (by simp), hfind _ hnone]

/-- A new directory mirrors the empty map. -/
theorem Fresh.mirrors {dir : Path} {s : DirectoryStore} (h : Fresh dir s) :
    s.dir = dir ∧ ∃ home, Mirrors home .empty s := by
  obtain ⟨files, hopen⟩ := h.opened
  obtain ⟨hdir, home, hhome⟩ := houses_of_open h.usable.named hopen
  obtain ⟨place, hplace, hbelow⟩ := h.bare
  rw [hhome.locate_self, h.usable.directory] at hplace
  cases hplace
  subst hdir
  refine ⟨rfl, home, h.usable, h.working, hhome, fun slot => ?_, fun slot => ?_⟩
  · exact lookup_of_below hbelow (recordName slot)
  · simp [lookup_of_below hbelow (draftName slot)]

/-! ### Whatever is done with a store -/

end DirectoryStore

/-- What can be done with a store. -/
inductive Use
  | load (slot : Slot)
  | save (slot : Slot) (record : AcceptorRecord)
  | reopen

namespace Use
variable {σ : Type} [RecordStore σ]

/-- What comes of one use: an answer, which has a record if that is asked for, and a store. -/
def perform (reopen : σ → Except StoreFault σ) :
    Use → σ → Except StoreFault (Option AcceptorRecord) × σ
  | .load slot, s => RecordStore.load slot s
  | .save slot record, s =>
    let (outcome, s) := RecordStore.save slot record s
    (outcome.map fun _ => none, s)
  | .reopen, s =>
    match reopen s with
    | .error e => (.error e, s)
    | .ok s => (.ok none, s)

def answers (reopen : σ → Except StoreFault σ) :
    List Use → σ → List (Except StoreFault (Option AcceptorRecord))
  | [], _ => []
  | use :: rest, s => (use.perform reopen s).1 :: answers reopen rest (use.perform reopen s).2

end Use

/-- The map as it is, as if it had been kept somewhere. -/
def MemoryStore.keep (m : MemoryStore) : Except StoreFault MemoryStore := .ok m

namespace DirectoryStore

def reopen (s : DirectoryStore) : Except StoreFault DirectoryStore :=
  (DirectoryStore.open s.dir s.files).mapError .failed

/-- Whatever is done with it, a store answers as a map does. -/
def AnswersAs (m : MemoryStore) (s : DirectoryStore) : Prop :=
  ∀ uses, Use.answers reopen uses s = Use.answers MemoryStore.keep uses m

/-- A use is answered as by the map, and then the directory mirrors what the map has become. -/
theorem Mirrors.perform {home : Location} {m : MemoryStore} {s : DirectoryStore}
    (h : Mirrors home m s) (use : Use) :
    (use.perform DirectoryStore.reopen s).1 = (use.perform MemoryStore.keep m).1 ∧
    Mirrors home (use.perform MemoryStore.keep m).2 (use.perform DirectoryStore.reopen s).2 := by
  cases use with
  | load slot =>
    have hload := h.load slot
    have hanswer : RecordStore.load slot s = (.ok (m.records.get? slot), s) := by
      simp only [RecordStore.load, hload, Except.mapError]
    rw [Use.perform, hanswer]
    exact ⟨rfl, h⟩
  | save slot record =>
    obtain ⟨files, hrun, hnext⟩ := h.save slot record
    have hsave := save_of_run hrun
    have hanswer : RecordStore.save slot record s = (.ok (), { s with files }) := by
      simp only [RecordStore.save, hsave]
    rw [Use.perform, hanswer]
    exact ⟨rfl, hnext⟩
  | reopen =>
    have hreopen : DirectoryStore.reopen s = .ok s := by
      rw [DirectoryStore.reopen, h.reopen]
      rfl
    rw [Use.perform, hreopen]
    exact ⟨rfl, h⟩

theorem Mirrors.answersAs {home : Location} {m : MemoryStore} {s : DirectoryStore}
    (h : Mirrors home m s) : AnswersAs m s := by
  intro uses
  induction uses generalizing m s with
  | nil => rfl
  | cons use rest ih =>
    obtain ⟨hsame, hnext⟩ := h.perform use
    rw [Use.answers, Use.answers, hsame, ih hnext]

/-- A new directory is the map it stands for: whatever is saved, loaded and reopened, it answers as
an empty map in memory does that is never reopened. Records are read back as they were written, no
two slots share a file, and no draft has the name of a record. -/
theorem answers_as_map {dir : Path} {s : DirectoryStore} (h : Fresh dir s) :
    AnswersAs .empty s ∧
    (∀ record : AcceptorRecord, JsonForm.read? (JsonForm.compact record) = some record) ∧
    (∀ slot slot', s.files.locate (recordPath dir slot) = s.files.locate (recordPath dir slot') →
      slot = slot') ∧
    ∀ slot slot', draftName slot ≠ recordName slot' := by
  obtain ⟨rfl, home, hmirrors⟩ := h.mirrors
  refine ⟨hmirrors.answersAs, LawfulForm.lossless.compact, fun slot slot' hplace => ?_,
    fun slot slot' => (recordName_ne_draftName slot' slot).symm⟩
  rw [hmirrors.locate_record, hmirrors.locate_record] at hplace
  have hname := List.singleton_inj.mp (List.append_cancel_left (Except.ok.inj hplace))
  exact recordName_injective hname

/-- A directory made under the root of an empty file system. -/
lemma fresh_new : Fresh ⟨["", "d"]⟩ ⟨⟨["", "d"]⟩, FileSystem.empty.put ["d"] .directory⟩ where
  opened := ⟨.empty, rfl⟩
  usable := usable_of_short (by decide) (by decide +kernel) (by decide +kernel)
  working := rfl
  bare := ⟨["d"], by decide +kernel, by decide +kernel⟩

/-- A record whose texts have quotes, backslashes and control characters, saved in a new directory,
is what is loaded after the directory was opened again. -/
theorem answers_as_map_escaped :
    let slot : Slot := ⟨18446744073709551615⟩
    let id : ProposalId := ⟨18446744073709551615, "\"\\\n\x01é"⟩
    let record : AcceptorRecord := ⟨id, some ⟨id, slot, [0, 255]⟩⟩
    Use.answers DirectoryStore.reopen [.save slot record, .reopen, .load slot, .load ⟨0⟩]
        ⟨⟨["", "d"]⟩, FileSystem.empty.put ["d"] .directory⟩ =
      [.ok none, .ok none, .ok (some record), .ok none] :=
  (answers_as_map fresh_new).1 _

end DirectoryStore
end Synod
