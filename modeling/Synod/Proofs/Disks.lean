import Synod.Proofs.Refusals

/-!
# Disks

A `Disk` is the files that programs see, and what else a crash may leave of them: any bytes in a file
whose data were not synced, and at a place where a file was made or moved what could be found there
before, as long as the directory was not synced. Steps are made on it as on its files, under verdicts
of the operating system. Where they do not lead to, a crash finds no more than it would have found
before them; until the directory is synced it may find all as it was before.
-/
namespace Synod
open FileSystem FileStep

/-- Files, and what a crash may make of them. -/
structure Disk where
  files : FileSystem
  /-- Where a file is whose data may be lost or torn. -/
  unsynced : Location → Prop
  /-- What may stand at a place again, because its directory has not been synced. -/
  earlier : Location → Option Entry → Prop

namespace Disk

/-- Everything has reached the disk. -/
def settled (files : FileSystem) : Disk := ⟨files, fun _ => False, fun _ _ => False⟩

/-- What may be found at a place after a crash. -/
def Found (d : Disk) (l : Location) (entry : Option Entry) : Prop :=
  entry = d.files.lookup l ∨ d.earlier l entry ∨ d.unsynced l ∧ ∃ bytes, entry = some (.file bytes)

/-- What a crash may leave: at each place something that may be found there. Directories stay. -/
structure Crash (d : Disk) (fs : FileSystem) : Prop where
  current : fs.current = d.files.current
  directory : ∀ l, fs.lookup l = some .directory ↔ d.files.lookup l = some .directory
  found : ∀ l, d.Found l (fs.lookup l)

/-- Nothing may be lost at all. -/
lemma crash_self (d : Disk) : d.Crash d.files := ⟨rfl, fun _ => Iff.rfl, fun _ => .inl rfl⟩

/-- A disk after a step that has made other files of its files. A move is atomic, and it moves the
data as far as they are synced. -/
def after (d : Disk) (fs : FileSystem) : FileStep → Disk
  | .create p =>
    { files := fs
      unsynced := fun l => d.unsynced l ∨ d.files.locate p = .ok l
      earlier := fun l entry => d.earlier l entry ∨ d.files.locate p = .ok l ∧ d.Found l entry }
  | .append p _ =>
    { files := fs
      unsynced := fun l => d.unsynced l ∨ d.files.locate p = .ok l
      earlier := d.earlier }
  | .sync p =>
    { files := fs
      unsynced := fun l => d.unsynced l ∧ d.files.locate p ≠ .ok l
      earlier := d.earlier }
  | .rename source target =>
    { files := fs
      unsynced := fun l => d.unsynced l ∧ d.files.locate target ≠ .ok l ∨
        d.files.locate target = .ok l ∧ ∃ q, d.files.locate source = .ok q ∧ d.unsynced q
      earlier := fun l entry => d.earlier l entry ∨
        (d.files.locate source = .ok l ∨ d.files.locate target = .ok l) ∧ d.Found l entry }
  | .syncDirectory p =>
    { files := fs
      unsynced := d.unsynced
      earlier := fun l entry => d.earlier l entry ∧
        ∀ home name, d.files.locate p = .ok home → l ≠ home ++ [name] }

/-- What a refused step leaves behind. Of an append a part may have been written. -/
def leave (d : Disk) (refusal : Refusal) : FileStep → Disk
  | .append p bytes =>
    match (FileStep.append p (bytes.take refusal.written)).apply d.files with
    | .error _ => d
    | .ok fs => d.after fs (.append p (bytes.take refusal.written))
  | _ => d

/-- Makes steps until one cannot be made or is refused. -/
def runUnder (verdicts : Verdicts) : List FileStep → Disk → Except OsError Unit × Disk
  | [], d => (.ok (), d)
  | step :: rest, d =>
    match verdicts 0 with
    | some refusal => (.error refusal.cause, d.leave refusal step)
    | none =>
      match step.apply d.files with
      | .error e => (.error e, d)
      | .ok fs => runUnder (verdicts.later 1) rest (d.after fs step)

variable {d d' : Disk} {fs : FileSystem} {step : FileStep} {steps rest : List FileStep}
  {verdicts : Verdicts} {l : Location} {entry : Option Entry}

@[simp] lemma files_after (d : Disk) (fs : FileSystem) (step : FileStep) :
    (d.after fs step).files = fs := by
  cases step <;> rfl

lemma found_settled : (settled fs).Found l entry ↔ entry = fs.lookup l := by
  simp [Found, settled]

lemma files_leave (d : Disk) (refusal : Refusal) (step : FileStep) :
    (d.leave refusal step).files = step.leave refusal d.files := by
  cases step with
  | append p bytes =>
    simp only [leave, FileStep.leave]
    cases (FileStep.append p (bytes.take refusal.written)).apply d.files with
    | error e => rfl
    | ok fs => rfl
  | _ => rfl

/-- Steps come to the same end on a disk as on its files. -/
lemma files_runUnder (verdicts : Verdicts) (steps : List FileStep) (d : Disk) :
    FileStep.runUnder verdicts steps d.files =
      ((runUnder verdicts steps d).1, (runUnder verdicts steps d).2.files) := by
  induction steps generalizing verdicts d with
  | nil => rfl
  | cons step rest ih =>
    simp only [runUnder, FileStep.runUnder]
    cases verdicts 0 with
    | some refusal => simp only [files_leave]
    | none =>
      cases step.apply d.files with
      | error e => rfl
      | ok fs =>
        have hrest := ih (verdicts.later 1) (d.after fs step)
        rwa [files_after] at hrest

lemma runUnder_append (verdicts : Verdicts) (steps rest : List FileStep) (d : Disk) :
    runUnder verdicts (steps ++ rest) d = match runUnder verdicts steps d with
      | (.ok (), d') => runUnder (verdicts.later steps.length) rest d'
      | stopped => stopped := by
  induction steps generalizing verdicts d with
  | nil => simp [runUnder]
  | cons step steps ih =>
    simp only [List.cons_append, runUnder]
    cases verdicts 0 with
    | some refusal => rfl
    | none =>
      cases step.apply d.files with
      | error e => rfl
      | ok fs => simp only [ih, List.length_cons, Verdicts.later_later]

/-- A run goes through if no step is refused and each can be made. -/
lemma runUnder_cons_ok : runUnder verdicts (step :: rest) d = (.ok (), d') ↔
    verdicts 0 = none ∧ ∃ fs, step.apply d.files = .ok fs ∧
      runUnder (verdicts.later 1) rest (d.after fs step) = (.ok (), d') := by
  rw [runUnder]
  cases verdicts 0 with
  | some refusal => simp
  | none =>
    cases step.apply d.files with
    | error e => simp
    | ok fs => simp

/-! ### Places that no step leads to -/

/-- A place at which a second disk has no more to lose than the first. -/
structure NoWorse (d d' : Disk) (l : Location) : Prop where
  unsynced : d'.unsynced l → d.unsynced l
  found : ∀ entry, d'.Found l entry → d.Found l entry

namespace NoWorse

lemma refl (d : Disk) (l : Location) : NoWorse d d l := ⟨id, fun _ => id⟩

lemma trans {d'' : Disk} (h : NoWorse d d' l) (h' : NoWorse d' d'' l) : NoWorse d d'' l :=
  ⟨fun hl => h.unsynced (h'.unsynced hl), fun entry hl => h.found entry (h'.found entry hl)⟩

lemma after (hstep : step.apply d.files = .ok fs) (hl : ¬step.Touches d.files l) :
    NoWorse d (d.after fs step) l := by
  have hlookup := (apply_agree hstep).lookup l hl
  have hpaths : ∀ p ∈ step.paths, d.files.locate p ≠ .ok l := fun p hp hplace =>
    hl ⟨p, hp, hplace⟩
  have hunsynced : (d.after fs step).unsynced l → d.unsynced l := fun h => by
    cases step with
    | create p => exact h.resolve_right (hpaths p (by simp [paths]))
    | append p bytes => exact h.resolve_right (hpaths p (by simp [paths]))
    | sync p => exact h.1
    | rename source target =>
      exact h.elim (fun h => h.1) fun h => absurd h.1 (hpaths target (by simp [paths]))
    | syncDirectory p => exact h
  have hearlier : ∀ entry, (d.after fs step).earlier l entry → d.earlier l entry := fun entry h => by
    cases step with
    | create p => exact h.resolve_right fun hp => hpaths p (by simp [paths]) hp.1
    | append p bytes => exact h
    | sync p => exact h
    | rename source target =>
      refine h.resolve_right fun hp => ?_
      exact hp.1.elim (hpaths source (by simp [paths])) (hpaths target (by simp [paths]))
    | syncDirectory p => exact h.1
  refine ⟨hunsynced, fun entry h => ?_⟩
  rcases h with hnow | hbefore | ⟨hlost, hfile⟩
  · rw [files_after, hlookup] at hnow
    exact .inl hnow
  · exact .inr (.inl (hearlier entry hbefore))
  · exact .inr (.inr ⟨hunsynced hlost, hfile⟩)

lemma leave (refusal : Refusal) (hl : ¬step.Touches d.files l) :
    NoWorse d (d.leave refusal step) l := by
  cases step with
  | append p bytes =>
    have hl' : ¬(FileStep.append p (bytes.take refusal.written)).Touches d.files l := hl
    simp only [Disk.leave]
    cases happend : (FileStep.append p (bytes.take refusal.written)).apply d.files with
    | error e => exact .refl _ _
    | ok fs => exact .after happend hl'
  | _ => exact .refl _ _

lemma runUnder (hl : ∀ step ∈ steps, ¬step.Touches d.files l) :
    NoWorse d (Disk.runUnder verdicts steps d).2 l := by
  induction steps generalizing verdicts d with
  | nil => exact .refl _ _
  | cons step rest ih =>
    have hfirst := hl step List.mem_cons_self
    rw [Disk.runUnder]
    cases verdicts 0 with
    | some refusal => exact .leave refusal hfirst
    | none =>
      cases hstep : step.apply d.files with
      | error e => exact .refl _ _
      | ok fs =>
        refine (after hstep hfirst).trans (ih fun s hs htouch => ?_)
        rw [files_after] at htouch
        exact hl s (List.mem_cons_of_mem _ hs) (htouch.agree (apply_agree hstep).symm)

end NoWorse

/-! ### What is not sure to last -/

/-- Files as they were, all of which a crash may bring back. -/
structure Undoes (d : Disk) (fs : FileSystem) : Prop where
  agree : Agree (fun _ => True) fs d.files
  earlier : ∀ l, fs.lookup l = d.files.lookup l ∨ d.earlier l (fs.lookup l)

namespace Undoes

lemma refl (d : Disk) : d.Undoes d.files := ⟨.refl _ _, fun _ => .inl rfl⟩

lemma found (h : d.Undoes fs) (l : Location) : d.Found l (fs.lookup l) := (h.earlier l).imp_right .inl

lemma crash (h : d.Undoes fs) : d.Crash fs :=
  ⟨h.agree.current.symm, fun l => (h.agree.directory l).symm, h.found⟩

/-- A step can be undone if what it touches can be. -/
lemma after {fs' : FileSystem} (h : d.Undoes fs) (hstep : step.apply d.files = .ok fs')
    (htouch : ∀ l, step.Touches d.files l → (d.after fs' step).earlier l (fs.lookup l))
    (hkeep : ∀ l entry, d.earlier l entry → (d.after fs' step).earlier l entry) :
    (d.after fs' step).Undoes fs := by
  have hagree := apply_agree hstep
  refine ⟨?_, fun l => ?_⟩
  · rw [files_after]
    exact h.agree.trans (hagree.mono fun _ _ => trivial)
  · by_cases hl : step.Touches d.files l
    · exact .inr (htouch l hl)
    · rw [files_after, hagree.lookup l hl]
      exact (h.earlier l).imp_right (hkeep l _)

lemma create {p : Path} {fs' : FileSystem} (h : d.Undoes fs)
    (hstep : (FileStep.create p).apply d.files = .ok fs') : (d.after fs' (.create p)).Undoes fs := by
  refine h.after hstep ?_ fun _ _ => .inl
  rintro l ⟨q, hq, hplace⟩
  cases List.mem_singleton.mp hq
  exact .inr ⟨hplace, h.found l⟩

/-- What is written to a file that was made is lost with it. -/
lemma append {p : Path} {bytes : List UInt8} {fs' : FileSystem} (h : d.Undoes fs)
    (hmade : ∀ l, d.files.locate p = .ok l → d.earlier l (fs.lookup l))
    (hstep : (FileStep.append p bytes).apply d.files = .ok fs') :
    (d.after fs' (.append p bytes)).Undoes fs := by
  refine h.after hstep ?_ fun _ _ => id
  rintro l ⟨q, hq, hplace⟩
  cases List.mem_singleton.mp hq
  exact hmade l hplace

lemma sync {p : Path} {fs' : FileSystem} (h : d.Undoes fs)
    (hstep : (FileStep.sync p).apply d.files = .ok fs') : (d.after fs' (.sync p)).Undoes fs := by
  obtain ⟨_, _, _, _, rfl⟩ := sync_ok.mp hstep
  exact ⟨h.agree, h.earlier⟩

lemma rename {source target : Path} {fs' : FileSystem} (h : d.Undoes fs)
    (hstep : (FileStep.rename source target).apply d.files = .ok fs') :
    (d.after fs' (.rename source target)).Undoes fs := by
  refine h.after hstep ?_ fun _ _ => .inl
  rintro l ⟨q, hq, hplace⟩
  simp only [paths, List.mem_cons, List.not_mem_nil, or_false] at hq
  rcases hq with rfl | rfl
  · exact .inr ⟨.inl hplace, h.found l⟩
  · exact .inr ⟨.inr hplace, h.found l⟩

end Undoes

end Disk
end Synod
