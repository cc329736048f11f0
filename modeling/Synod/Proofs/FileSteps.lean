import Synod.Proofs.Locations

/-!
# What steps on files do

When each step can be made and what it does to the places that its paths lead to. It touches no
others, and it reads no others: it does the same in two systems that agree on those files. A new
file does not even depend on the old one, so that after it the systems agree on the place as well.
-/
namespace Synod
open FileSystem

namespace FileStep
variable {fs fs' : FileSystem} {step : FileStep} {p source target : Path} {l : Location}

theorem readFile_ok {bytes : List UInt8} : fs.readFile p = .ok bytes ↔
    ∃ l, fs.locate p = .ok l ∧ fs.lookup l = some (.file bytes) := by
  rw [readFile_eq]
  cases fs.locate p with
  | error e => simp [Except.bind]
  | ok l => simp [Except.bind, content_eq_ok]

theorem create_ok : (create p).apply fs = .ok fs' ↔
    ∃ l, fs.locate p = .ok l ∧ fs.lookup l ≠ some .directory ∧ fs' = fs.put l (.file []) := by
  unfold apply
  dsimp only
  cases fs.locate p with
  | error e => simp
  | ok l => by_cases hl : fs.lookup l = some .directory <;> simp [hl, @eq_comm _ fs']

theorem append_ok {bytes : List UInt8} : (append p bytes).apply fs = .ok fs' ↔
    ∃ l before, fs.locate p = .ok l ∧ fs.lookup l = some (.file before) ∧
      fs' = fs.put l (.file (before ++ bytes)) := by
  unfold apply
  simp only [readFile_eq]
  cases fs.locate p with
  | error e => simp
  | ok l =>
    simp only [Except.bind, content]
    rcases hl : fs.lookup l with _ | ⟨before⟩ | _ <;> simp [hl, @eq_comm _ fs']

theorem sync_ok : (sync p).apply fs = .ok fs' ↔
    ∃ l bytes, fs.locate p = .ok l ∧ fs.lookup l = some (.file bytes) ∧ fs' = fs := by
  unfold apply
  simp only [readFile_eq]
  cases fs.locate p with
  | error e => simp [Except.bind, Except.map]
  | ok l =>
    simp only [Except.bind, content]
    rcases hl : fs.lookup l with _ | ⟨bytes⟩ | _ <;> simp [hl, Except.map, @eq_comm _ fs']

theorem rename_ok : (rename source target).apply fs = .ok fs' ↔
    ∃ s t bytes, fs.locate source = .ok s ∧ fs.locate target = .ok t ∧
      fs.lookup s = some (.file bytes) ∧ fs.lookup t ≠ some .directory ∧
      fs' = (fs.erase s).put t (.file bytes) := by
  unfold apply
  simp only [readFile_eq]
  cases fs.locate source with
  | error e => simp
  | ok s =>
    simp only [Except.bind, content]
    rcases hs : fs.lookup s with _ | ⟨bytes⟩ | _
    · simp [hs]
    · cases fs.locate target with
      | error e => simp
      | ok t => by_cases ht : fs.lookup t = some .directory <;> simp [hs, ht, @eq_comm _ fs']
    · simp [hs]

theorem syncDirectory_ok : (syncDirectory p).apply fs = .ok fs' ↔
    ∃ l, fs.locate p = .ok l ∧ fs.lookup l = some .directory ∧ fs' = fs := by
  unfold apply stat
  dsimp only
  cases fs.locate p with
  | error e => simp
  | ok l => rcases hl : fs.lookup l with _ | ⟨bytes⟩ | _ <;> simp [hl, @eq_comm _ fs']

/-- A run goes through if each of its steps can be made where the ones before have led. -/
theorem run_cons_ok {rest : List FileStep} : run (step :: rest) fs = (.ok (), fs') ↔
    ∃ mid, step.apply fs = .ok mid ∧ run rest mid = (.ok (), fs') := by
  rw [run]
  cases step.apply fs with
  | error e => simp
  | ok mid => simp

theorem run_append_ok {steps rest : List FileStep} : run (steps ++ rest) fs = (.ok (), fs') ↔
    ∃ mid, run steps fs = (.ok (), mid) ∧ run rest mid = (.ok (), fs') := by
  induction steps generalizing fs with
  | nil => simp [run]
  | cons step steps ih =>
    simp only [List.cons_append, run_cons_ok, ih]
    constructor
    · rintro ⟨next, hstep, mid, hsteps, hrest⟩
      exact ⟨mid, ⟨next, hstep, hsteps⟩, hrest⟩
    · rintro ⟨mid, ⟨next, hstep, hsteps⟩, hrest⟩
      exact ⟨next, hstep, mid, hsteps, hrest⟩

/-- The files that a step is about. -/
def paths : FileStep → List Path
  | create p | append p _ | sync p => [p]
  | rename source target => [source, target]
  | syncDirectory _ => []

/-- A step touches the places that its paths lead to. -/
def Touches (step : FileStep) (fs : FileSystem) (l : Location) : Prop :=
  ∃ p ∈ step.paths, fs.locate p = .ok l

/-- A step changes files where its paths lead to, and nothing else. -/
theorem apply_agree (h : step.apply fs = .ok fs') : Agree (step.Touches fs) fs fs' := by
  cases step with
  | create p =>
    obtain ⟨l, hp, hl, rfl⟩ := create_ok.mp h
    exact (Agree.put_file hl []).mono fun q hq => ⟨p, by simp [paths], hq ▸ hp⟩
  | append p bytes =>
    obtain ⟨l, before, hp, hl, rfl⟩ := append_ok.mp h
    exact (Agree.put_file (by simp [hl]) _).mono fun q hq => ⟨p, by simp [paths], hq ▸ hp⟩
  | sync p =>
    obtain ⟨_, _, _, _, rfl⟩ := sync_ok.mp h
    exact .refl _ _
  | rename source target =>
    obtain ⟨s, t, bytes, hsource, htarget, hs, ht, rfl⟩ := rename_ok.mp h
    have herase : Agree (· = s) fs (fs.erase s) := .erase_file (by simp [hs])
    have hput : Agree (· = t) (fs.erase s) ((fs.erase s).put t (.file bytes)) :=
      .put_file (fun hd => ht ((herase.directory t).mp hd)) bytes
    refine (herase.mono fun q hq => ?_).trans (hput.mono fun q hq => ?_)
    · exact ⟨source, by simp [paths], hq ▸ hsource⟩
    · exact ⟨target, by simp [paths], hq ▸ htarget⟩
  | syncDirectory p =>
    obtain ⟨_, _, _, rfl⟩ := syncDirectory_ok.mp h
    exact .refl _ _

/-- Where a step leads to does not depend on files. -/
theorem Touches.agree {except : Location → Prop} (h : step.Touches fs l)
    (hagree : Agree except fs fs') : step.Touches fs' l := by
  obtain ⟨p, hp, hl⟩ := h
  exact ⟨p, hp, hagree.locate hl⟩

/-- What was put into a file is read back. -/
theorem readFile_put (hp : fs.locate p = .ok l) (hl : fs.lookup l ≠ some .directory)
    (bytes : List UInt8) : (fs.put l (.file bytes)).readFile p = .ok bytes :=
  readFile_ok.mpr ⟨l, (Agree.put_file hl bytes).locate hp, lookup_put_self (ne_root hl)⟩

theorem readFile_create (h : (create p).apply fs = .ok fs') : fs'.readFile p = .ok [] := by
  obtain ⟨l, hp, hl, rfl⟩ := create_ok.mp h
  exact readFile_put hp hl []

theorem readFile_append {before bytes : List UInt8} (h : (append p bytes).apply fs = .ok fs')
    (hbefore : fs.readFile p = .ok before) : fs'.readFile p = .ok (before ++ bytes) := by
  obtain ⟨l, before', hp, hl, rfl⟩ := append_ok.mp h
  rw [readFile_ok.mpr ⟨l, hp, hl⟩] at hbefore
  cases hbefore
  exact readFile_put hp (by simp [hl]) _

/-- What stood where a file is moved from stands where it is moved to. -/
theorem readFile_rename {bytes : List UInt8} (h : (rename source target).apply fs = .ok fs')
    (hsource : fs.readFile source = .ok bytes) : fs'.readFile target = .ok bytes := by
  obtain ⟨s, t, bytes', hs, ht, hl, hdir, rfl⟩ := rename_ok.mp h
  rw [readFile_ok.mpr ⟨s, hs, hl⟩] at hsource
  cases hsource
  have herase : Agree (· = s) fs (fs.erase s) := .erase_file (by simp [hl])
  exact readFile_put (herase.locate ht) (fun hd => hdir ((herase.directory t).mp hd)) _

end FileStep

namespace FileSystem.Agree
open FileStep

variable {fs fs' gs gs' : FileSystem} {except : Location → Prop} {step : FileStep} {p : Path}
  {l : Location}

theorem not_directory (h : Agree except fs gs) (hl : fs.lookup l ≠ some .directory) :
    gs.lookup l ≠ some .directory := fun hd => hl ((h.directory l).mp hd)

/-- With the same file put into both, the systems agree on it. -/
theorem put (h : Agree except fs gs) (hl : fs.lookup l ≠ some .directory) (bytes : List UInt8) :
    Agree (fun q => except q ∧ q ≠ l) (fs.put l (.file bytes)) (gs.put l (.file bytes)) := by
  have hfs := put_file hl bytes
  have hgs := put_file (h.not_directory hl) bytes
  refine ⟨h.current, fun q => ?_, fun q hq => ?_⟩
  · exact ((hgs.directory q).trans (h.directory q)).trans (hfs.directory q).symm
  · by_cases hql : q = l
    · subst hql
      simp only [lookup_put_self (ne_root hl)]
    · rw [lookup_put_of_ne hql, lookup_put_of_ne hql]
      exact h.lookup q fun hexcept => hq ⟨hexcept, hql⟩

theorem erase (h : Agree except fs gs) (hl : fs.lookup l ≠ some .directory) :
    Agree except (fs.erase l) (gs.erase l) := by
  have hfs := erase_file hl
  have hgs := erase_file (h.not_directory hl)
  refine ⟨h.current, fun q => ?_, fun q hq => ?_⟩
  · exact ((hgs.directory q).trans (h.directory q)).trans (hfs.directory q).symm
  · by_cases hql : q = l
    · subst hql
      simp only [lookup_erase_self (ne_root hl)]
    · rw [lookup_erase_of_ne hql, lookup_erase_of_ne hql]
      exact h.lookup q hq

/-- An empty file is made in both systems or in neither, and then they agree on it. -/
theorem create (h : Agree except fs gs) (hstep : (create p).apply fs = .ok fs') :
    ∃ gs', (FileStep.create p).apply gs = .ok gs' ∧
      Agree (fun q => except q ∧ fs.locate p ≠ .ok q) fs' gs' := by
  obtain ⟨l, hp, hl, rfl⟩ := create_ok.mp hstep
  refine ⟨_, create_ok.mpr ⟨l, h.locate hp, h.not_directory hl, rfl⟩, ?_⟩
  refine (h.put hl []).mono fun q hq => ⟨hq.1, ?_⟩
  rw [hp]
  exact fun heq => hq.2 (Except.ok.inj heq).symm

/-- A step does the same in two systems that agree on the files that it is about. -/
theorem apply (h : Agree except fs gs) (hclear : ∀ l, step.Touches fs l → ¬except l)
    (hstep : step.apply fs = .ok fs') :
    ∃ gs', step.apply gs = .ok gs' ∧ Agree except fs' gs' := by
  cases step with
  | create p =>
    obtain ⟨gs', hstep', h'⟩ := h.create hstep
    exact ⟨gs', hstep', h'.mono fun _ hq => hq.1⟩
  | append p bytes =>
    obtain ⟨l, before, hp, hl, rfl⟩ := append_ok.mp hstep
    have hl' : gs.lookup l = some (.file before) :=
      (h.lookup l (hclear l ⟨p, by simp [paths], hp⟩)).trans hl
    exact ⟨_, append_ok.mpr ⟨l, before, h.locate hp, hl', rfl⟩,
      (h.put (by simp [hl]) _).mono fun _ hq => hq.1⟩
  | sync p =>
    obtain ⟨l, bytes, hp, hl, rfl⟩ := sync_ok.mp hstep
    have hl' : gs.lookup l = some (.file bytes) :=
      (h.lookup l (hclear l ⟨p, by simp [paths], hp⟩)).trans hl
    exact ⟨_, sync_ok.mpr ⟨l, bytes, h.locate hp, hl', rfl⟩, h⟩
  | rename source target =>
    obtain ⟨s, t, bytes, hsource, htarget, hs, ht, rfl⟩ := rename_ok.mp hstep
    have hs' : gs.lookup s = some (.file bytes) :=
      (h.lookup s (hclear s ⟨source, by simp [paths], hsource⟩)).trans hs
    have herase := h.erase (l := s) (by simp [hs])
    have ht' : (fs.erase s).lookup t ≠ some .directory :=
      (erase_file (by simp [hs])).not_directory ht
    exact ⟨_, rename_ok.mpr
      ⟨s, t, bytes, h.locate hsource, h.locate htarget, hs', h.not_directory ht, rfl⟩,
      (herase.put ht' bytes).mono fun _ hq => hq.1⟩
  | syncDirectory p =>
    obtain ⟨l, hp, hl, rfl⟩ := syncDirectory_ok.mp hstep
    exact ⟨_, syncDirectory_ok.mpr ⟨l, h.locate hp, (h.directory l).mpr hl, rfl⟩, h⟩

/-- If a step cannot be made in one of two systems that agree on its files, then not in the other. -/
theorem apply_error (h : Agree except fs gs) (hclear : ∀ l, step.Touches fs l → ¬except l)
    {e : OsError} (hstep : step.apply fs = .error e) : ∃ e', step.apply gs = .error e' := by
  cases hgs : step.apply gs with
  | error e' => exact ⟨e', rfl⟩
  | ok gs' =>
    obtain ⟨fs', hfs, _⟩ := h.symm.apply (fun l hl => hclear l (hl.agree h.symm)) hgs
    rw [hstep] at hfs
    cases hfs

end FileSystem.Agree
end Synod
