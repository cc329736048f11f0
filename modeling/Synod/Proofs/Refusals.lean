import Synod.Proofs.FileSteps

/-!
# Steps that are refused

A run of steps is made under verdicts: besides what stands in the way by itself, the operating
system may refuse any step for reasons of its own. A refused step has no effect, but for an append,
of which a part may have been written. Where the steps of a run lead to is all that it touches, and
a run that starts with a new file comes to the same end whatever that file was before.
-/
namespace Synod
open FileSystem

/-- A refusal of a step that nothing else stood in the way of. -/
structure Refusal where
  cause : OsError
  /-- How many bytes of an append are written all the same. -/
  written : Nat
  deriving DecidableEq, Repr

/-- What the operating system makes of the steps asked for, one after the other: a refusal, or
nothing of its own. -/
abbrev Verdicts := Nat → Option Refusal

namespace Verdicts

/-- Nothing is refused that can be done. -/
def lenient : Verdicts := fun _ => none

/-- The verdicts on what is asked for after so many steps. -/
def later (verdicts : Verdicts) (steps : Nat) : Verdicts := fun n => verdicts (n + steps)

@[simp] theorem later_zero (verdicts : Verdicts) : verdicts.later 0 = verdicts := rfl

@[simp] theorem later_later (verdicts : Verdicts) (steps steps' : Nat) :
    (verdicts.later steps).later steps' = verdicts.later (steps' + steps) := by
  funext n
  simp only [later, Nat.add_assoc]

end Verdicts

namespace FileStep
open FileSystem.Agree

variable {fs : FileSystem}

/-- What a refused step leaves behind. -/
def leave (refusal : Refusal) (fs : FileSystem) : FileStep → FileSystem
  | append p bytes =>
    match (append p (bytes.take refusal.written)).apply fs with
    | .error _ => fs
    | .ok fs => fs
  | _ => fs

/-- Makes steps until one cannot be made or is refused. -/
def runUnder (verdicts : Verdicts) : List FileStep → FileSystem → Except OsError Unit × FileSystem
  | [], fs => (.ok (), fs)
  | step :: rest, fs =>
    match verdicts 0 with
    | some refusal => (.error refusal.cause, step.leave refusal fs)
    | none =>
      match step.apply fs with
      | .error e => (.error e, fs)
      | .ok fs => runUnder (verdicts.later 1) rest fs

theorem runUnder_lenient (steps : List FileStep) (fs : FileSystem) :
    runUnder .lenient steps fs = run steps fs := by
  induction steps generalizing fs with
  | nil => rfl
  | cons step rest ih =>
    simp only [runUnder, run, Verdicts.lenient]
    cases step.apply fs with
    | error e => rfl
    | ok fs' => exact ih fs'

theorem runUnder_append (verdicts : Verdicts) (steps rest : List FileStep) (fs : FileSystem) :
    runUnder verdicts (steps ++ rest) fs = match runUnder verdicts steps fs with
      | (.ok (), fs') => runUnder (verdicts.later steps.length) rest fs'
      | stopped => stopped := by
  induction steps generalizing verdicts fs with
  | nil => simp [runUnder]
  | cons step steps ih =>
    simp only [List.cons_append, runUnder]
    cases verdicts 0 with
    | some refusal => rfl
    | none =>
      cases step.apply fs with
      | error e => rfl
      | ok fs' => simp only [ih, List.length_cons, Verdicts.later_later]

/-- What went through under verdicts goes through without them. -/
theorem run_of_runUnder {verdicts : Verdicts} {steps : List FileStep} {fs' : FileSystem}
    (h : runUnder verdicts steps fs = (.ok (), fs')) : run steps fs = (.ok (), fs') := by
  induction steps generalizing verdicts fs with
  | nil => exact h
  | cons step rest ih =>
    simp only [runUnder] at h
    cases hverdict : verdicts 0 with
    | some refusal => simp [hverdict] at h
    | none =>
      rw [hverdict] at h
      cases happly : step.apply fs with
      | error e => simp [happly] at h
      | ok mid =>
        simp only [happly] at h
        exact run_cons_ok.mpr ⟨mid, happly, ih h⟩

/-- Unless the first file can be made, nothing happens. -/
theorem runUnder_create_cases (verdicts : Verdicts) (p : Path) (rest : List FileStep)
    (fs : FileSystem) :
    (runUnder verdicts (.create p :: rest) fs).2 = fs ∨ ∃ l, fs.locate p = .ok l := by
  simp only [runUnder]
  cases verdicts 0 with
  | some refusal => exact .inl rfl
  | none =>
    cases happly : (create p).apply fs with
    | error e => exact .inl rfl
    | ok mid =>
      obtain ⟨l, hl, _⟩ := create_ok.mp happly
      exact .inr ⟨l, hl⟩

/-- Refused or not, steps change files where their paths lead to, and nothing else. -/
theorem leave_agree (refusal : Refusal) (step : FileStep) (fs : FileSystem) :
    Agree (step.Touches fs) fs (step.leave refusal fs) := by
  cases step with
  | append p bytes =>
    simp only [leave]
    cases happend : (append p (bytes.take refusal.written)).apply fs with
    | error e => exact .refl _ _
    | ok fs' => exact (apply_agree happend).mono fun _ hl => hl
  | _ => exact .refl _ _

theorem runUnder_agree (verdicts : Verdicts) (steps : List FileStep) (fs : FileSystem) :
    Agree (fun l => ∃ step ∈ steps, step.Touches fs l) fs (runUnder verdicts steps fs).2 := by
  induction steps generalizing verdicts fs with
  | nil => exact .refl _ _
  | cons step rest ih =>
    have hfirst : ∀ l, step.Touches fs l → ∃ s ∈ step :: rest, s.Touches fs l :=
      fun l hl => ⟨step, List.mem_cons_self, hl⟩
    simp only [runUnder]
    cases verdicts 0 with
    | some refusal => exact (leave_agree refusal step fs).mono hfirst
    | none =>
      cases happly : step.apply fs with
      | error e => exact .refl _ _
      | ok fs' =>
        have hstep := apply_agree happly
        refine (hstep.mono hfirst).trans ((ih _ fs').mono ?_)
        rintro l ⟨s, hs, hl⟩
        exact ⟨s, List.mem_cons_of_mem _ hs, hl.agree hstep.symm⟩

end FileStep

namespace FileSystem.Agree
open FileStep

variable {fs gs : FileSystem} {except : Location → Prop} {step : FileStep} {steps : List FileStep}
  {p : Path}

theorem leave (h : Agree except fs gs) (hclear : ∀ l, step.Touches fs l → ¬except l)
    (refusal : Refusal) : Agree except (step.leave refusal fs) (step.leave refusal gs) := by
  cases step with
  | append p bytes =>
    have hclear' : ∀ l, (append p (bytes.take refusal.written)).Touches fs l → ¬except l := hclear
    simp only [FileStep.leave]
    cases hfs : (append p (bytes.take refusal.written)).apply fs with
    | error e =>
      obtain ⟨e', hgs⟩ := h.apply_error hclear' hfs
      simpa only [hgs] using h
    | ok fs' =>
      obtain ⟨gs', hgs, h'⟩ := h.apply hclear' hfs
      simpa only [hgs] using h'
  | _ => exact h

/-- The same steps come to the same end in systems that agree on their files. -/
theorem runUnder (h : Agree except fs gs)
    (hclear : ∀ step ∈ steps, ∀ l, step.Touches fs l → ¬except l) (verdicts : Verdicts) :
    (FileStep.runUnder verdicts steps fs).1.isOk = (FileStep.runUnder verdicts steps gs).1.isOk ∧
    Agree except (FileStep.runUnder verdicts steps fs).2 (FileStep.runUnder verdicts steps gs).2 := by
  induction steps generalizing verdicts fs gs with
  | nil => exact ⟨rfl, h⟩
  | cons step rest ih =>
    have hfirst := hclear step List.mem_cons_self
    simp only [FileStep.runUnder]
    cases verdicts 0 with
    | some refusal => exact ⟨rfl, h.leave hfirst refusal⟩
    | none =>
      cases hfs : step.apply fs with
      | error e =>
        obtain ⟨e', hgs⟩ := h.apply_error hfirst hfs
        simpa only [hgs] using ⟨rfl, h⟩
      | ok fs' =>
        obtain ⟨gs', hgs, h'⟩ := h.apply hfirst hfs
        simp only [hgs]
        refine ih h' (fun s hs l hl => ?_) _
        exact hclear s (List.mem_cons_of_mem _ hs) l (hl.agree (apply_agree hfs).symm)

/-- Steps that begin with a new file come to the same end even where that file was not the same. -/
theorem runUnder_create (h : Agree except fs gs)
    (hclear : ∀ step ∈ steps, ∀ l, step.Touches fs l → except l → fs.locate p = .ok l)
    (verdicts : Verdicts) :
    (FileStep.runUnder verdicts (.create p :: steps) fs).1.isOk =
      (FileStep.runUnder verdicts (.create p :: steps) gs).1.isOk ∧
    Agree except (FileStep.runUnder verdicts (.create p :: steps) fs).2
      (FileStep.runUnder verdicts (.create p :: steps) gs).2 := by
  simp only [FileStep.runUnder]
  cases verdicts 0 with
  | some refusal => exact ⟨rfl, h⟩
  | none =>
    cases hfs : (FileStep.create p).apply fs with
    | error e =>
      cases hgs : (FileStep.create p).apply gs with
      | error e' => exact ⟨rfl, h⟩
      | ok gs' =>
        obtain ⟨fs', hfs', _⟩ := h.symm.create hgs
        rw [hfs] at hfs'
        cases hfs'
    | ok fs' =>
      obtain ⟨gs', hgs, h'⟩ := h.create hfs
      simp only [hgs]
      have hclear' : ∀ step ∈ steps, ∀ l, step.Touches fs' l → ¬(except l ∧ fs.locate p ≠ .ok l) :=
        fun step hstep l hl hexcept =>
          hexcept.2 (hclear step hstep l (hl.agree (apply_agree hfs).symm) hexcept.1)
      obtain ⟨hok, hagree⟩ := h'.runUnder hclear' (verdicts.later 1)
      exact ⟨hok, hagree.mono fun _ hl => hl.1⟩

end FileSystem.Agree
end Synod
