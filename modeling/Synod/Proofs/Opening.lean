import Mathlib.Data.List.TakeWhile
import Mathlib.Tactic.Lemma
import Synod.Proofs.Locations
import Synod.Store.Directory

/-!
# Opening a directory

A directory that was opened is there, whether it was made for that or before, and to open one that is
there changes nothing. Slashes at the end of a path do not matter: a directory is made without them
and found with them.
-/
namespace Synod

namespace Path

lemma parts_withoutTrailing (p : Path) :
    ∃ n, p.parts = p.withoutTrailing.parts ++ List.replicate n "" := by
  have hslashes : ∀ part ∈ p.parts.reverse.takeWhile (· = ""), part = "" := fun part hpart => by
    simpa using List.mem_takeWhile_imp hpart
  refine ⟨(p.parts.reverse.takeWhile (· = "")).length, ?_⟩
  rw [← List.reverse_replicate, ← List.eq_replicate_of_mem hslashes, withoutTrailing,
    ← List.reverse_append, List.takeWhile_append_dropWhile, List.reverse_reverse]

lemma getLast?_withoutTrailing (p : Path) : p.withoutTrailing.parts.getLast? ≠ some "" := by
  intro hlast
  have hhead := List.head?_dropWhile_not (fun part => decide (part = "")) p.parts.reverse
  rw [withoutTrailing, List.getLast?_reverse] at hlast
  simp [hlast] at hhead

/-- A path starts where it starts without the slashes at its end, if it does not consist of them. -/
lemma isAbsolute_withoutTrailing {p : Path} (h : p.withoutTrailing.parts ≠ []) :
    p.withoutTrailing.isAbsolute = p.isAbsolute := by
  obtain ⟨n, hn⟩ := p.parts_withoutTrailing
  have hlast := p.getLast?_withoutTrailing
  rw [isAbsolute, isAbsolute, hn]
  generalize p.withoutTrailing.parts = parts at *
  rcases parts with _ | ⟨part, _ | ⟨part', rest⟩⟩
  · exact absurd rfl h
  · have hpart : part ≠ "" := fun heq => hlast (by rw [heq]; rfl)
    simp [hpart]
  · simp

lemma toString_withoutTrailing (p : Path) :
    ∃ rest, p.toString = p.withoutTrailing.toString ++ rest := by
  obtain ⟨n, hn⟩ := p.parts_withoutTrailing
  rw [toString, toString, hn]
  generalize p.withoutTrailing.parts = parts
  rcases eq_or_ne parts [] with rfl | hne
  · exact ⟨_, (String.empty_append).symm⟩
  · rcases Nat.eq_zero_or_pos n with rfl | hpos
    · exact ⟨"", by simp⟩
    · have hmore : List.replicate n "" ≠ [] := by simp; omega
      rw [String.intercalate_append_of_ne_nil hne hmore, String.append_assoc]
      exact ⟨_, rfl⟩

end Path

namespace FileSystem
variable {fs fs' : FileSystem} {dir : Path} {home l here : Location} {parts : List String}

/-- Where there are more directories, paths lead to the same places at least. -/
lemma walk_mono (h : ∀ l, fs.lookup l = some .directory → fs'.lookup l = some .directory)
    (hw : fs.walk here parts = .ok l) : fs'.walk here parts = .ok l := by
  induction parts generalizing here with
  | nil => exact hw
  | cons part rest ih =>
    unfold walk at hw ⊢
    split at hw
    · cases hw
    · cases hw
    · rename_i hd
      simp only [h here hd]
      split_ifs at hw ⊢
      · exact ih hw
      · exact ih hw
      · exact ih hw

/-- Slashes after the name of a directory lead nowhere else. -/
lemma walk_slashes (hd : fs.lookup l = some .directory) (n : Nat) :
    fs.walk l (List.replicate n "") = .ok l := by
  induction n with
  | zero => rfl
  | succ n ih =>
    rw [List.replicate_succ, walk]
    simp [hd, ih]

/-- Where a path is followed from. -/
def start (fs : FileSystem) (p : Path) : Location := if p.isAbsolute then [] else fs.current

lemma directory_of_walk_slashes {n : Nat} (hw : fs.walk l (List.replicate n "") = .ok home)
    (hd : fs.lookup home = some .directory) : fs.lookup l = some .directory := by
  cases n with
  | zero =>
    cases hw
    exact hd
  | succ n =>
    rw [List.replicate_succ, walk] at hw
    split at hw
    · cases hw
    · cases hw
    · assumption

lemma houses_of_walk (hdir : dir.parts ≠ [""]) (hw : fs.walk (fs.start dir) dir.parts = .ok home)
    (hd : fs.lookup home = some .directory) : fs.Houses dir home := by
  rw [start, dir.isAbsolute_eq hdir] at hw
  simp only [decide_eq_true_eq] at hw
  refine ⟨?_, hd⟩
  by_cases htrail : dir.parts.getLast? = some ""
  · have hsplit : dir.parts = dir.base ++ [""] := by
      rw [Path.base, if_pos htrail]
      exact (List.dropLast_append_getLast? "" htrail).symm
    rw [hsplit, walk_append] at hw
    cases hbase : fs.walk (if dir.base.head? = some "" then [] else fs.current) dir.base with
    | error e =>
      rw [hbase] at hw
      cases hw
    | ok home' =>
      rw [hbase] at hw
      have hplace : fs.walk home' [""] = .ok home := hw
      exact (walk_slashes (directory_of_walk_name hplace) 1).symm.trans hplace
  · rwa [Path.base, if_neg htrail] at *

/-- A path that leads to a directory is one of a directory. -/
lemma houses_of_isDirectory (hdir : dir.parts ≠ [""]) (h : fs.isDirectory dir) :
    ∃ home, fs.Houses dir home := by
  unfold isDirectory stat at h
  rw [locate_eq] at h
  cases hfault : fault? dir with
  | some e => simp [hfault] at h
  | none =>
    cases hwalk : fs.walk (fs.start dir) dir.parts with
    | error e =>
      rw [start] at hwalk
      simp [hfault, hwalk] at h
    | ok l =>
      refine ⟨l, houses_of_walk hdir hwalk ?_⟩
      rw [start] at hwalk
      simp only [hfault, hwalk] at h
      rcases hl : fs.lookup l with _ | ⟨bytes⟩ | _ <;> simp [hl] at h ⊢

/-- A directory made without the slashes at its path's end is found with them. -/
lemma houses_of_made (hdir : dir.parts ≠ [""]) (h : fs.locate dir.withoutTrailing = .ok l)
    (hnew : fs.lookup l = none) : ∃ home, (fs.put l .directory).Houses dir home := by
  have hroot : l ≠ [] := fun heq => by simp [heq, lookup] at hnew
  have hput : (fs.put l .directory).lookup l = some .directory := lookup_put_self hroot
  have hmono : ∀ q, fs.lookup q = some .directory →
      (fs.put l .directory).lookup q = some .directory := by
    intro q hq
    have hne : q ≠ l := fun heq => by simp [← heq, hq] at hnew
    rw [lookup_put_of_ne hne, hq]
  obtain ⟨n, hn⟩ := dir.parts_withoutTrailing
  have hwalk : fs.walk (fs.start dir.withoutTrailing) dir.withoutTrailing.parts = .ok l := by
    have hfault := fault?_of_locate h
    rw [locate_eq, hfault] at h
    exact h
  by_cases hslashes : dir.withoutTrailing.parts = []
  · rw [hslashes, List.nil_append] at hn
    have hcurrent : l = fs.current := by
      rw [hslashes, start, Path.isAbsolute, hslashes] at hwalk
      exact (Except.ok.inj hwalk).symm
    have hstart : (fs.put l .directory).lookup (fs.start dir) = some .directory := by
      unfold start
      split_ifs
      · rfl
      · rw [← hcurrent, hput]
    refine ⟨fs.start dir, houses_of_walk hdir ?_ hstart⟩
    rw [hn]
    exact walk_slashes hstart n
  · refine ⟨l, houses_of_walk hdir ?_ hput⟩
    have hstart : (fs.put l .directory).start dir = fs.start dir.withoutTrailing := by
      rw [start, start, Path.isAbsolute_withoutTrailing hslashes]
      rfl
    rw [hn, walk_append, hstart, walk_mono hmono hwalk]
    exact walk_slashes hput n

/-- Whatever is tried, in the end a directory is made or it is there. -/
lemma unlessThere_of_makeBelow {above : List Path} (h : fs.makeBelow dir above = .ok fs') :
    ∃ before : FileSystem, before.unlessThere dir (before.makeDirectory dir) = .ok fs' := by
  cases above with
  | nil => exact ⟨fs, h⟩
  | cons nearest rest =>
    unfold makeBelow at h
    cases hmade : fs.makeDirectory dir with
    | ok made =>
      rw [hmade] at h
      exact ⟨fs, hmade ▸ h⟩
    | error e =>
      cases hbelow : fs.makeBelow nearest rest with
      | ok between => 
        rw [hmade, hbelow] at h
        cases e with
        | notFound => exact ⟨between, h⟩
        | _ => exact ⟨fs, hmade ▸ h⟩
      | error e' =>
        rw [hmade, hbelow] at h
        cases e with
        | notFound => cases h
        | _ => exact ⟨fs, hmade ▸ h⟩

lemma houses_of_unlessThere (hdir : dir.parts ≠ [""])
    (h : fs.unlessThere dir (fs.makeDirectory dir) = .ok fs') : ∃ home, fs'.Houses dir home := by
  unfold unlessThere at h
  split at h
  · rename_i made hmade
    cases h
    unfold makeDirectory at hmade
    split at hmade
    · cases hmade
    · rename_i l hl
      split at hmade
      · cases hmade
        exact houses_of_made hdir hl ‹_›
      · cases hmade
  · split_ifs at h with hthere
    cases h
    exact houses_of_isDirectory hdir hthere

/-- Without the slashes at its end, the path of a directory leads to something too. -/
lemma Houses.locate_withoutTrailing (h : fs.Houses dir home) (hfault : fault? dir = none)
    (hworking : fs.lookup fs.current = some .directory) :
    ∃ l, fs.locate dir.withoutTrailing = .ok l ∧ fs.lookup l ≠ none := by
  have hplace := h.locate_self
  rw [hfault, locate_eq, hfault] at hplace
  have hparts : dir.withoutTrailing.parts ≠ [""] := fun heq =>
    dir.getLast?_withoutTrailing (by rw [heq]; rfl)
  rw [locate_eq, fault?_of_prefix hparts dir.toString_withoutTrailing hfault]
  obtain ⟨n, hn⟩ := dir.parts_withoutTrailing
  by_cases hslashes : dir.withoutTrailing.parts = []
  · refine ⟨fs.current, ?_, by simp [hworking]⟩
    rw [hslashes, Path.isAbsolute, hslashes]
    rfl
  · rw [Path.isAbsolute_withoutTrailing hslashes]
    rw [hn, walk_append] at hplace
    dsimp only at hplace ⊢
    cases hwalk : fs.walk (if dir.isAbsolute then [] else fs.current) dir.withoutTrailing.parts with
    | error e =>
      rw [hwalk] at hplace
      cases hplace
    | ok l =>
      rw [hwalk] at hplace
      have hl : fs.lookup l = some .directory := directory_of_walk_slashes hplace h.directory
      exact ⟨l, rfl, by simp [hl]⟩

end FileSystem

namespace DirectoryStore
open FileSystem
variable {fs : FileSystem} {dir : Path} {home : Location} {s : DirectoryStore}

theorem houses_of_open (hdir : dir.parts ≠ [""]) (h : DirectoryStore.open dir fs = .ok s) :
    s.dir = dir ∧ ∃ home, s.files.Houses dir home := by
  unfold DirectoryStore.open makeDirectories at h
  rw [if_neg hdir] at h
  cases hmade : fs.makeBelow dir dir.above with
  | error e => simp [hmade] at h
  | ok files =>
    rw [hmade] at h
    cases h
    obtain ⟨before, hthere⟩ := unlessThere_of_makeBelow hmade
    exact ⟨rfl, houses_of_unlessThere hdir hthere⟩

/-- To open a directory that is there changes nothing. -/
theorem open_of_houses (h : fs.Houses dir home) (hfault : fault? dir = none)
    (hworking : fs.lookup fs.current = some .directory) :
    DirectoryStore.open dir fs = .ok ⟨dir, fs⟩ := by
  have hthere : fs.isDirectory dir := by
    simp [isDirectory, stat, h.locate_self, hfault, h.directory]
  obtain ⟨l, hl, hsome⟩ := h.locate_withoutTrailing hfault hworking
  have hmade : fs.makeDirectory dir = .error .alreadyExists := by
    obtain ⟨entry, hentry⟩ := Option.ne_none_iff_exists'.mp hsome
    simp only [makeDirectory, hl, hentry]
  have hkept : fs.unlessThere dir (fs.makeDirectory dir) = .ok fs := by
    rw [hmade, unlessThere, if_pos hthere]
  have hbelow : fs.makeBelow dir dir.above = .ok fs := by
    cases dir.above with
    | nil => exact hkept
    | cons nearest rest =>
      unfold makeBelow
      rw [hmade] at hkept ⊢
      exact hkept
  unfold DirectoryStore.open makeDirectories
  rw [hbelow]
  split_ifs <;> rfl

end DirectoryStore
end Synod
