import Mathlib.Data.List.Basic
import Mathlib.Tactic.SplitIfs
import Synod.FileSystem

/-!
# Where children of a directory are

A path to a child of a directory leads to the place of the directory and from there to the child,
however the path is written. Files may change, come and go meanwhile: where paths lead to depends
on the directories alone.
-/
namespace Synod

namespace Path

/-- The parts with which the paths of the children begin. -/
def base (p : Path) : List String :=
  if p.parts.getLast? = some "" then p.parts.dropLast else p.parts

theorem parts_child_eq (p : Path) (name : String) : (p.child name).parts = p.base ++ [name] := by
  simp only [child, join, isAbsolute_singleton, Bool.false_eq_true, if_false, base]

theorem isAbsolute_child (p : Path) (name : String) :
    (p.child name).isAbsolute = decide (p.base.head? = some "") := by
  rw [isAbsolute, parts_child_eq]
  cases p.base with
  | nil => simp
  | cons part rest => simp

/-- A path starts where the paths of its children do. -/
theorem isAbsolute_eq (p : Path) (h : p.parts ≠ [""]) :
    p.isAbsolute = decide (p.base.head? = some "") := by
  unfold isAbsolute base
  obtain ⟨parts⟩ := p
  match parts with
  | [] => simp
  | [part] =>
    have hpart : part ≠ "" := fun heq => h (by rw [heq])
    simp [hpart]
  | part :: part' :: rest =>
    split <;> simp

/-- The text of a child's path is that of its directory's, continued by the name, maybe after a slash. -/
theorem toString_child (p : Path) (name : String) :
    ∃ rest, (p.child name).toString = p.toString ++ rest ∧ (rest = name ∨ rest = "/" ++ name) := by
  have hchild : (p.child name).toString = String.intercalate "/" (p.base ++ [name]) := by
    rw [toString, parts_child_eq]
  have hself : p.parts = p.base ∨ p.parts = p.base ++ [""] := by
    unfold base
    split
    · rename_i h
      exact .inr (List.dropLast_append_getLast? "" h).symm
    · exact .inl rfl
  rw [hchild, toString]
  rcases eq_or_ne p.base [] with hnil | hne
  · refine ⟨name, ?_, .inl rfl⟩
    rcases hself with h | h <;> simp [h, hnil]
  · rw [String.intercalate_append_of_ne_nil hne (List.cons_ne_nil _ _)]
    rcases hself with h | h
    · exact ⟨"/" ++ name, by simp [h, String.append_assoc], .inr rfl⟩
    · refine ⟨name, ?_, .inl rfl⟩
      rw [h, String.intercalate_append_of_ne_nil hne (List.cons_ne_nil _ _)]
      simp

end Path

/-- A name that something can have: it does not lead anywhere else, and it is not too long. -/
structure IsName (name : String) : Prop where
  ne_empty : name ≠ ""
  ne_dot : name ≠ "."
  ne_dots : name ≠ ".."
  short : name.utf8ByteSize ≤ FileSystem.longestName

namespace FileSystem

/-- What is wrong with a path, whatever there is. -/
def fault? (p : Path) : Option OsError :=
  if p.toString.toList.contains '\x00' then some .invalidName
  else if p.parts = [""] then some .notFound
  else if longestPath < p.toString.utf8ByteSize then some .nameTooLong
  else none

variable {fs fs' : FileSystem} {dir : Path} {home l : Location} {name : String}

theorem locate_eq (fs : FileSystem) (p : Path) :
    fs.locate p = match fault? p with
      | some e => .error e
      | none => fs.walk (if p.isAbsolute then [] else fs.current) p.parts := by
  unfold locate fault?
  split_ifs <;> rfl

theorem fault?_of_locate {p : Path} (h : fs.locate p = .ok l) : fault? p = none := by
  rw [locate_eq] at h
  cases hfault : fault? p with
  | none => rfl
  | some e =>
    rw [hfault] at h
    cases h

/-- Nothing is wrong with a path that is not empty if nothing is wrong with one that continues it. -/
theorem fault?_of_prefix {p q : Path} (hq : q.parts ≠ [""])
    (hrest : ∃ rest, p.toString = q.toString ++ rest) (h : fault? p = none) : fault? q = none := by
  obtain ⟨rest, hrest⟩ := hrest
  unfold fault? at h ⊢
  rw [hrest] at h
  split_ifs at h with hnul hempty hlong
  rw [if_neg, if_neg hq, if_neg]
  · simp at hlong ⊢
    omega
  · simp at hnul ⊢
    exact hnul.1

theorem fault?_directory (hdir : dir.parts ≠ [""]) (h : fault? (dir.child name) = none) :
    fault? dir = none := by
  obtain ⟨rest, hrest, _⟩ := dir.toString_child name
  exact fault?_of_prefix hdir ⟨rest, hrest⟩ h

/-- Nothing is wrong with the path of a child if its directory's leaves room for the name. -/
theorem fault?_child (hdir : '\x00' ∉ dir.toString.toList) (hn : IsName name)
    (hname : '\x00' ∉ name.toList)
    (hroom : dir.toString.utf8ByteSize + 1 + name.utf8ByteSize ≤ longestPath) :
    fault? (dir.child name) = none := by
  obtain ⟨rest, hrest, hcase⟩ := dir.toString_child name
  have hnul : '\x00' ∉ rest.toList := by
    rcases hcase with rfl | rfl
    · exact hname
    · simpa using hname
  have hsize : rest.utf8ByteSize ≤ 1 + name.utf8ByteSize := by
    rcases hcase with rfl | rfl
    · omega
    · have hslash : ("/" : String).utf8ByteSize = 1 := by decide
      exact Nat.le_of_eq (by rw [String.utf8ByteSize_append, hslash])
  have hparts : (dir.child name).parts ≠ [""] := by
    rw [Path.parts_child_eq]
    intro heq
    have hlast := congrArg List.getLast? heq
    simp only [List.getLast?_append, List.getLast?_singleton, Option.some_or, Option.some.injEq] at hlast
    exact hn.ne_empty hlast
  unfold fault?
  rw [hrest, String.utf8ByteSize_append, if_neg, if_neg hparts, if_neg]
  · omega
  · simp [hdir, hnul]

/-- A directory's place, and that it is there. -/
structure Houses (fs : FileSystem) (dir : Path) (home : Location) : Prop where
  walk : fs.walk (if dir.base.head? = some "" then [] else fs.current) dir.base = .ok home
  directory : fs.lookup home = some .directory

/-- Paths are followed part by part. -/
theorem walk_append (fs : FileSystem) (here : Location) (parts rest : List String) :
    fs.walk here (parts ++ rest) = (fs.walk here parts).bind fun l => fs.walk l rest := by
  induction parts generalizing here with
  | nil => rfl
  | cons part parts ih =>
    simp only [List.cons_append, walk]
    split
    · rfl
    · rfl
    · split_ifs
      · exact ih _
      · exact ih _
      · rfl
      · exact ih _

theorem walk_name (hn : IsName name) (hd : fs.lookup l = some .directory) :
    fs.walk l [name] = .ok (l ++ [name]) := by
  have hshort := Nat.not_lt.mpr hn.short
  simp [walk, hd, hn.ne_empty, hn.ne_dot, hn.ne_dots, hshort]

theorem directory_of_walk_name {target : Location} (h : fs.walk l [name] = .ok target) :
    fs.lookup l = some .directory := by
  unfold walk at h
  split at h
  · cases h
  · cases h
  · assumption

/-- Where the path of a child leads to. -/
theorem Houses.locate_child (h : fs.Houses dir home) (hn : IsName name) :
    fs.locate (dir.child name) = match fault? (dir.child name) with
      | some e => .error e
      | none => .ok (home ++ [name]) := by
  rw [locate_eq, Path.isAbsolute_child, Path.parts_child_eq, walk_append]
  simp only [decide_eq_true_eq, h.walk, Except.bind, walk_name hn h.directory]

/-- Only a directory that is there has a place for children. -/
theorem houses_of_locate (hn : IsName name) (hl : fs.locate (dir.child name) = .ok l) :
    ∃ home, fs.Houses dir home ∧ l = home ++ [name] := by
  rw [locate_eq, Path.isAbsolute_child, Path.parts_child_eq, walk_append] at hl
  split at hl
  · cases hl
  · simp only [decide_eq_true_eq] at hl
    cases hwalk : fs.walk (if dir.base.head? = some "" then [] else fs.current) dir.base with
    | error e =>
      rw [hwalk] at hl
      cases hl
    | ok home =>
      rw [hwalk] at hl
      have hd := directory_of_walk_name hl
      have hplace : fs.walk home [name] = .ok l := hl
      rw [walk_name hn hd] at hplace
      exact ⟨home, ⟨hwalk, hd⟩, (Except.ok.inj hplace).symm⟩

/-- The path of a directory leads to its place. -/
theorem Houses.locate_self (h : fs.Houses dir home) :
    fs.locate dir = match fault? dir with
      | some e => .error e
      | none => .ok home := by
  rw [locate_eq]
  cases hfault : fault? dir with
  | some e => rfl
  | none =>
    have hparts : dir.parts ≠ [""] := by
      intro heq
      unfold fault? at hfault
      split_ifs at hfault
    have hbase : fs.walk (if dir.isAbsolute then [] else fs.current) dir.base = .ok home := by
      simpa only [Path.isAbsolute_eq dir hparts, decide_eq_true_eq] using h.walk
    by_cases htrail : dir.parts.getLast? = some ""
    · -- one slash at the end, which leads nowhere
      have hsplit : dir.parts = dir.base ++ [""] := by
        rw [Path.base, if_pos htrail]
        exact (List.dropLast_append_getLast? "" htrail).symm
      rw [hsplit, walk_append, hbase]
      simp [Except.bind, FileSystem.walk, h.directory]
    · rwa [Path.base, if_neg htrail] at hbase

/-- What is in a file at a place, or why nothing is read there. -/
def content (fs : FileSystem) (l : Location) : Except OsError (List UInt8) :=
  match fs.lookup l with
  | none => .error .notFound
  | some .directory => .error .isDirectory
  | some (.file bytes) => .ok bytes

theorem readFile_eq (fs : FileSystem) (p : Path) : fs.readFile p = (fs.locate p).bind fs.content := by
  unfold readFile stat content
  cases fs.locate p with
  | error e => rfl
  | ok l =>
    simp only [Except.bind]
    rcases fs.lookup l with _ | ⟨bytes⟩ | _ <;> rfl

theorem content_eq_ok {bytes : List UInt8} :
    fs.content l = .ok bytes ↔ fs.lookup l = some (.file bytes) := by
  unfold content
  rcases fs.lookup l with _ | ⟨c⟩ | _ <;> simp

theorem content_congr (h : fs'.lookup l = fs.lookup l) : fs'.content l = fs.content l := by
  rw [content, content, h]

/-- A name in a directory is looked up where the directory is. -/
theorem Houses.readFile_child (h : fs.Houses dir home) (hn : IsName name) :
    fs.readFile (dir.child name) = match fault? (dir.child name) with
      | some e => .error e
      | none => fs.content (home ++ [name]) := by
  rw [readFile_eq, h.locate_child hn]
  cases fault? (dir.child name) <;> rfl

/-- The root is a directory, so what is not one is not the root. -/
theorem ne_root (hl : fs.lookup l ≠ some .directory) : l ≠ [] := by
  rintro rfl
  exact hl rfl

theorem lookup_put_self {e : Entry} (hl : l ≠ []) : (fs.put l e).lookup l = some e := by
  simp [hl]

theorem lookup_put_of_ne {q : Location} {e : Entry} (hq : q ≠ l) :
    (fs.put l e).lookup q = fs.lookup q := by
  rw [lookup_put, if_neg hq.symm]
  split_ifs with hroot
  · rw [hroot]
    rfl
  · rfl

theorem lookup_erase_self (hl : l ≠ []) : (fs.erase l).lookup l = none := by
  simp [hl]

theorem lookup_erase_of_ne {q : Location} (hq : q ≠ l) : (fs.erase l).lookup q = fs.lookup q := by
  rw [lookup_erase, if_neg hq.symm]
  split_ifs with hroot
  · rw [hroot]
    rfl
  · rfl

/-- Two file systems with the same directories, and with the same files but for some places. -/
structure Agree (except : Location → Prop) (fs fs' : FileSystem) : Prop where
  current : fs'.current = fs.current
  directory : ∀ l, fs'.lookup l = some .directory ↔ fs.lookup l = some .directory
  lookup : ∀ l, ¬except l → fs'.lookup l = fs.lookup l

namespace Agree
variable {except except' : Location → Prop} {fs'' : FileSystem}

theorem refl (except : Location → Prop) (fs : FileSystem) : Agree except fs fs :=
  ⟨rfl, fun _ => Iff.rfl, fun _ _ => rfl⟩

theorem symm (h : Agree except fs fs') : Agree except fs' fs :=
  ⟨h.current.symm, fun l => (h.directory l).symm, fun l hl => (h.lookup l hl).symm⟩

theorem trans (h : Agree except fs fs') (h' : Agree except fs' fs'') : Agree except fs fs'' :=
  ⟨h'.current.trans h.current, fun l => (h'.directory l).trans (h.directory l),
    fun l hl => (h'.lookup l hl).trans (h.lookup l hl)⟩

theorem mono (h : Agree except fs fs') (hsub : ∀ l, except l → except' l) : Agree except' fs fs' :=
  ⟨h.current, h.directory, fun l hl => h.lookup l fun hl' => hl (hsub l hl')⟩

theorem walk (h : Agree except fs fs') {here : Location} {parts : List String}
    (hw : fs.walk here parts = .ok l) : fs'.walk here parts = .ok l := by
  induction parts generalizing here with
  | nil => exact hw
  | cons part rest ih =>
    unfold FileSystem.walk at hw ⊢
    split at hw
    · cases hw
    · cases hw
    · rename_i hd
      simp only [(h.directory here).mpr hd]
      split_ifs at hw ⊢
      · exact ih hw
      · exact ih hw
      · exact ih hw

/-- A path leads to the same place, if it leads anywhere. -/
theorem locate (h : Agree except fs fs') {p : Path} (hp : fs.locate p = .ok l) :
    fs'.locate p = .ok l := by
  rw [locate_eq] at hp ⊢
  rw [h.current]
  split at hp
  · cases hp
  · exact h.walk hp

theorem houses (h : Agree except fs fs') (hh : fs.Houses dir home) : fs'.Houses dir home :=
  ⟨h.current ▸ h.walk hh.walk, (h.directory home).mpr hh.directory⟩

/-- It is enough that one place changes, where there is no directory before or after. -/
theorem of_one (hcurrent : fs'.current = fs.current) (hl : fs.lookup l ≠ some .directory)
    (hl' : fs'.lookup l ≠ some .directory) (hne : ∀ q, q ≠ l → fs'.lookup q = fs.lookup q) :
    Agree (· = l) fs fs' := by
  refine ⟨hcurrent, fun q => ?_, hne⟩
  by_cases hq : q = l
  · subst hq
    simp [hl, hl']
  · rw [hne q hq]

theorem put_file (hl : fs.lookup l ≠ some .directory) (bytes : List UInt8) :
    Agree (· = l) fs (fs.put l (.file bytes)) :=
  of_one rfl hl (by simp [lookup_put_self (ne_root hl)]) fun _ hq => lookup_put_of_ne hq

theorem erase_file (hl : fs.lookup l ≠ some .directory) : Agree (· = l) fs (fs.erase l) :=
  of_one rfl hl (by simp [lookup_erase_self (ne_root hl)]) fun _ hq => lookup_erase_of_ne hq

end Agree
end FileSystem
end Synod
