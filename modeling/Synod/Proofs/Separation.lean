import Synod.Proofs.Neighbours

/-!
# The sides do not interfere

Clusters are alike to a side if its acceptors remember the same over media that differ at most outside
their places, and the side holds the same. A deed of the other side leaves a cluster alike; a deed of
the side itself finds out the same in clusters that are alike, and leaves them so. What a side does in
a session therefore is what it does in the session without the turns of the other one.
-/
namespace Synod
open FileSystem Medium

namespace Medium
variable {home : Location} {m : Medium} {files files' : FileSystem} {except : Location → Prop}

/-- The place of a medium is there as long as the directories are. -/
lemma at_mount (h : (m.mount files).At home) (hagree : Agree except files files') :
    (m.mount files').At home := by
  cases m with
  | memory s => exact trivial
  | directory s => exact hagree.houses h

lemma akin_mount (h : (m.mount files).At home)
    (hagree : Agree (fun l => ¬Inside home l) files files') :
    Akin home (m.mount files) (m.mount files') := by
  cases m with
  | memory s => exact .memory s
  | directory s => exact .directory rfl h hagree

/-- Akin media stay so while files change elsewhere. -/
lemma Akin.remount {m' : Medium} {before after : FileSystem}
    (h : Akin home (m.mount files) (m'.mount before))
    (hm : Agree (fun l => ¬Inside home l) files files')
    (hm' : Agree (fun l => ¬Inside home l) before after) :
    Akin home (m.mount files') (m'.mount after) := by
  cases m with
  | memory s =>
    cases m' with
    | memory t => exact h
    | directory t => cases h
  | directory s =>
    cases m' with
    | memory t => cases h
    | directory t =>
      cases h with
      | directory dir there agree =>
        exact .directory dir (hm.houses there) (hm.symm.trans (agree.trans hm'))

end Medium

namespace Cluster

/-- Two clusters that are the same as far as a side can see. -/
structure Alike (side : Side) (homes : Side × Nat → Location) (c d : Cluster) : Prop where
  held : d.holdings side = c.holdings side
  twins : ∀ i (a b : Acceptor Medium), (c.space side).acceptors[i]? = some a →
    (d.space side).acceptors[i]? = some b →
    Acceptor.Twins (Akin (homes (side, i))) (c.mounted a) (d.mounted b)

variable {side side' : Side} {homes : Side × Nat → Location} {c d e : Cluster}

lemma Alike.trans (h : Alike side homes c d) (h' : Alike side homes d e) : Alike side homes c e := by
  refine ⟨h'.held.trans h.held, fun i a b ha hb => ?_⟩
  have hlength : (d.space side).acceptors.length = (c.space side).acceptors.length :=
    congrArg Holdings.acceptors h.held
  have hi : i < (d.space side).acceptors.length := by
    rw [hlength]
    exact (List.getElem?_eq_some_iff.mp ha).1
  have hmid := List.getElem?_eq_getElem hi
  have hfirst := h.twins i a _ ha hmid
  have hsecond := h'.twins i _ b hmid hb
  exact ⟨hsecond.known.trans hfirst.known, hfirst.store.trans hsecond.store⟩

/-- A cluster is alike to a side that holds the same, has the same acceptors, and finds the same in
their places. -/
lemma Wired.alike (h : c.Wired homes) (hheld : d.holdings side = c.holdings side)
    (hacceptors : (d.space side).acceptors = (c.space side).acceptors)
    (hfiles : ∀ i, Agree (fun l => ¬Inside (homes (side, i)) l) c.files d.files) :
    Alike side homes c d := by
  refine ⟨hheld, fun i a b ha hb => ?_⟩
  rw [hacceptors, ha] at hb
  cases hb
  exact ⟨rfl, akin_mount (h.placed side i a ha) (hfiles i)⟩

lemma Wired.of_undisturbed (h : c.Wired homes) (hd : Undisturbed c d) : d.Wired homes := by
  refine ⟨h.apart, fun side i a ha => ?_⟩
  rw [hd.acceptors] at ha
  rw [mounted, hd.files]
  exact h.placed side i a ha

/-- What is altered without a disturbance goes unnoticed by a side that holds what it held. -/
lemma Wired.alike_of_undisturbed (h : c.Wired homes) (hd : Undisturbed c d)
    (hheld : d.holdings side = c.holdings side) : Alike side homes c d :=
  h.alike hheld (hd.acceptors side) fun _ => hd.files ▸ .refl _ _

lemma Alike.of_undisturbed {c' d' : Cluster} (h : Alike side homes c d) (hc : Undisturbed c c')
    (hd : Undisturbed d d') (hheld : d'.holdings side = c'.holdings side) :
    Alike side homes c' d' := by
  refine ⟨hheld, fun i a b ha hb => ?_⟩
  rw [hc.acceptors] at ha
  rw [hd.acceptors] at hb
  rw [mounted, mounted, hc.files, hd.files]
  exact h.twins i a b ha hb

/-! ### Requests -/

@[simp] lemma mounted_setAcceptor (i : Nat) (a : Acceptor Medium) :
    (c.setAcceptor side i a).mounted a = a := by
  rw [mounted, files_setAcceptor, mount_files]

section
variable (i : Nat) (r : Request)

lemma ask_of_none (h : (c.space side).acceptors[i]? = none) : c.ask side i r = (none, c) := by
  rw [ask, h]

lemma ask_of_some {a : Acceptor Medium} (h : (c.space side).acceptors[i]? = some a) :
    c.ask side i r =
      (some ((c.mounted a).serve r).1, c.setAcceptor side i ((c.mounted a).serve r).2) := by
  rw [ask, h]

/-- What an acceptor does to the files is done in its place. -/
lemma Wired.agree_ask (h : c.Wired homes) (side : Side) :
    Agree (Inside (homes (side, i))) c.files (c.ask side i r).2.files := by
  cases ha : (c.space side).acceptors[i]? with
  | none =>
    rw [ask_of_none i r ha]
    exact .refl _ _
  | some a =>
    rw [ask_of_some i r ha]
    exact (Acceptor.serve_confined (h.placed side i a ha) r).agree_files

/-- Other places than that of the acceptor are as they were. -/
lemma Wired.agree_ask_of_ne (h : c.Wired homes) {p : Side × Nat} (hne : p ≠ (side, i)) :
    Agree (fun l => ¬Inside (homes p) l) c.files (c.ask side i r).2.files :=
  (h.agree_ask i r side).mono fun _ hl hp => hne (h.apart (hl.unique hp))

theorem Wired.ask (h : c.Wired homes) (side : Side) : (c.ask side i r).2.Wired homes := by
  have hagree := h.agree_ask i r side
  cases ha : (c.space side).acceptors[i]? with
  | none => rwa [ask_of_none i r ha]
  | some a =>
    have hplaced := h.placed side i a ha
    rw [ask_of_some i r ha] at hagree ⊢
    refine ⟨h.apart, fun side' j b hb => ?_⟩
    by_cases hside : side' = side
    · subst hside
      rw [acceptors_setAcceptor, List.getElem?_set] at hb
      split_ifs at hb with hij
      · subst hij
        cases hb
        rw [mounted_setAcceptor]
        exact (Acceptor.serve_confined hplaced r).at_home hplaced
      · exact at_mount (h.placed side' j b hb) hagree
    · rw [space_setAcceptor_of_ne _ _ _ hside] at hb
      exact at_mount (h.placed side' j b hb) hagree

lemma holdings_ask (side' : Side) : (c.ask side i r).2.holdings side' = c.holdings side' := by
  unfold Cluster.ask
  split
  · rfl
  · exact holdings_setAcceptor ..

/-- A request of the other side goes unnoticed. -/
theorem Wired.alike_ask_of_ne (h : c.Wired homes) (hside : side' ≠ side) :
    Alike side' homes c (c.ask side i r).2 := by
  refine h.alike (holdings_ask i r side') ?_ fun j =>
    h.agree_ask_of_ne i r fun heq => hside (congrArg Prod.fst heq)
  unfold Cluster.ask
  split
  · rfl
  · rw [space_setAcceptor_of_ne _ _ _ hside]

/-- A request is answered alike in clusters that are alike, and leaves them so. -/
theorem Alike.ask (h : Alike side homes c d) (hc : c.Wired homes) (hd : d.Wired homes) :
    (d.ask side i r).1 = (c.ask side i r).1 ∧ Alike side homes (c.ask side i r).2 (d.ask side i r).2 := by
  have hlength : (d.space side).acceptors.length = (c.space side).acceptors.length :=
    congrArg Holdings.acceptors h.held
  by_cases hi : i < (c.space side).acceptors.length
  · have hi' := hlength ▸ hi
    have ha := List.getElem?_eq_getElem hi
    have hb := List.getElem?_eq_getElem hi'
    have helsewhere : ∀ {e : Cluster}, e.Wired homes → ∀ j, i ≠ j →
        Agree (fun l => ¬Inside (homes (side, j)) l) e.files (e.ask side i r).2.files :=
      fun he j hij => he.agree_ask_of_ne i r fun heq => hij (congrArg Prod.snd heq).symm
    have hc' := helsewhere hc
    have hd' := helsewhere hd
    obtain ⟨hsame, hserved⟩ := (h.twins i _ _ ha hb).serve (indistinct_akin _) r
    rw [ask_of_some i r ha] at hc' ⊢
    rw [ask_of_some i r hb] at hd' ⊢
    refine ⟨congrArg some hsame, ?_, fun j x y hx hy => ?_⟩
    · rw [holdings_setAcceptor, holdings_setAcceptor, h.held]
    · rw [acceptors_setAcceptor, List.getElem?_set] at hx hy
      by_cases hij : i = j
      · subst hij
        rw [if_pos rfl, if_pos hi] at hx
        rw [if_pos rfl, if_pos hi'] at hy
        cases hx
        cases hy
        rwa [mounted_setAcceptor, mounted_setAcceptor]
      · rw [if_neg hij] at hx hy
        have hbefore := h.twins j x y hx hy
        exact ⟨hbefore.known, hbefore.store.remount (hc' j hij) (hd' j hij)⟩
  · rw [ask_of_none i r (List.getElem?_eq_none (by omega)),
      ask_of_none i r (List.getElem?_eq_none (by omega))]
    exact ⟨rfl, h⟩

end

end Cluster

/-! ### Deeds -/

section
open Cluster
variable {side side' : Side} {homes : Side × Nat → Location} {c d : Cluster} (act : Deed side)

theorem Deed.run_wired (h : c.Wired homes) : (act.run c).2.Wired homes := by
  cases act with
  | ask i r => exact h.ask i r side
  | tell change => exact h.of_undisturbed (undisturbed_tell c change)
  | alter i change => exact h.of_undisturbed (undisturbed_alter c i change)

/-- A deed of one side leaves the cluster as it was to the other. -/
theorem Deed.alike_of_ne (h : c.Wired homes) (hside : side' ≠ side) :
    Alike side' homes c (act.run c).2 := by
  cases act with
  | ask i r => exact h.alike_ask_of_ne i r hside
  | tell change =>
    exact h.alike_of_undisturbed (undisturbed_tell c change) (holdings_tell_of_ne c hside change)
  | alter i change =>
    exact h.alike_of_undisturbed (undisturbed_alter c i change) (holdings_alter_of_ne c i change hside)

/-- A deed does the same where its side sees the same. -/
theorem Cluster.Alike.deed (h : Alike side homes c d) (hc : c.Wired homes) (hd : d.Wired homes) :
    (act.run d).1 = (act.run c).1 ∧ Alike side homes (act.run c).2 (act.run d).2 := by
  cases act with
  | ask i r =>
    obtain ⟨hcall, hnext⟩ := h.ask i r hc hd
    simp only [Deed.run, hcall, h.held]
    exact ⟨trivial, hnext⟩
  | tell change =>
    simp only [Deed.run, h.held]
    refine ⟨trivial, h.of_undisturbed (undisturbed_tell c change) (undisturbed_tell d change) ?_⟩
    rw [holdings_tell, holdings_tell, h.held]
  | alter i change =>
    simp only [Deed.run, h.held]
    refine ⟨trivial, h.of_undisturbed (undisturbed_alter c i change) (undisturbed_alter d i change) ?_⟩
    rw [holdings_alter, holdings_alter, h.held]

end

/-! ### Sessions -/

namespace Task
open Cluster
variable {side side' : Side} {homes : Side × Nat → Location} {c d : Cluster} {α : Type}

lemma step_wired (t : Task side α) (h : c.Wired homes) : (t.step c).2.Wired homes := by
  cases t with
  | done a => exact h
  | act first next => exact first.run_wired h

lemma step_alike_of_ne (t : Task side α) (h : c.Wired homes) (hside : side' ≠ side) :
    Alike side' homes c (t.step c).2 := by
  cases t with
  | done a => exact h.alike rfl rfl fun _ => .refl _ _
  | act first next => exact first.alike_of_ne h hside

lemma step_alike (t : Task side α) (h : Alike side homes c d) (hc : c.Wired homes)
    (hd : d.Wired homes) :
    (t.step d).1 = (t.step c).1 ∧ Alike side homes (t.step c).2 (t.step d).2 := by
  cases t with
  | done a => exact ⟨rfl, h⟩
  | act first next =>
    obtain ⟨hfound, hnext⟩ := h.deed first hc hd
    exact ⟨congrArg next hfound, hnext⟩

end Task

namespace Session
open Cluster
variable {α : Side → Nat → Type} {side : Side} {homes : Side × Nat → Location} {s t : Session α}

/-- Two sessions that are the same as far as a side can see. -/
structure Alike (side : Side) (homes : Side × Nat → Location) (s t : Session α) : Prop where
  cluster : Cluster.Alike side homes s.cluster t.cluster
  jobs : t.jobs side = s.jobs side

lemma turn_wired (h : s.cluster.Wired homes) (side : Side) (k : Nat) :
    (s.turn side k).cluster.Wired homes :=
  (s.jobs side k).step_wired h

lemma run_wired (h : s.cluster.Wired homes) (turns : List (Side × Nat)) :
    (s.run turns).cluster.Wired homes := by
  induction turns generalizing s with
  | nil => exact h
  | cons next rest ih => exact ih (turn_wired h next.1 next.2)

/-- A turn of the other side is not noticed. -/
lemma Alike.turn_of_ne (h : Alike side homes s t) (ht : t.cluster.Wired homes) {side' : Side}
    (hside : side ≠ side') (k : Nat) : Alike side homes s (t.turn side' k) where
  cluster := h.cluster.trans ((t.jobs side' k).step_alike_of_ne ht hside)
  jobs := (Function.update_of_ne hside _ _).trans h.jobs

/-- A turn of the side itself is the same. -/
lemma Alike.turn (h : Alike side homes s t) (hs : s.cluster.Wired homes)
    (ht : t.cluster.Wired homes) (k : Nat) : Alike side homes (s.turn side k) (t.turn side k) := by
  obtain ⟨hnext, hcluster⟩ := (s.jobs side k).step_alike h.cluster hs ht
  unfold Session.turn
  rw [h.jobs]
  refine ⟨hcluster, ?_⟩
  simp only [Function.update_self, hnext]

/-- What a side does is what it does without the turns of the other one: induction on the turns. -/
theorem Alike.run (h : Alike side homes s t) (hs : s.cluster.Wired homes)
    (ht : t.cluster.Wired homes) (turns : List (Side × Nat)) :
    Alike side homes (s.run (turns.filter (·.1 = side))) (t.run turns) := by
  induction turns generalizing s t with
  | nil => exact h
  | cons next rest ih =>
    obtain ⟨side', k⟩ := next
    by_cases hside : side' = side
    · subst hside
      rw [List.filter_cons_of_pos (by simp)]
      exact ih (h.turn hs ht k) (turn_wired hs _ k) (turn_wired ht _ k)
    · rw [List.filter_cons_of_neg (by simpa using hside)]
      exact ih (h.turn_of_ne ht (Ne.symm hside) k) hs (turn_wired ht _ k)

end Session

/-- Nothing of a side can be told apart in clusters that are alike to it. -/
theorem Cluster.Alike.view {side : Side} {homes : Side × Nat → Location} {c d : Cluster}
    (h : Alike side homes c d) : d.view side = c.view side := by
  have hlength : (d.space side).acceptors.length = (c.space side).acceptors.length :=
    congrArg Holdings.acceptors h.held
  have htwins : ∀ i (hd : i < (d.space side).acceptors.length)
      (hc : i < (c.space side).acceptors.length),
      Acceptor.Twins (Akin (homes (side, i))) (c.mounted (c.space side).acceptors[i])
        (d.mounted (d.space side).acceptors[i]) := fun i hd hc =>
    h.twins i _ _ (List.getElem?_eq_getElem hc) (List.getElem?_eq_getElem hd)
  have hremembered : (d.space side).acceptors.map (·.known) =
      (c.space side).acceptors.map (·.known) := by
    refine List.ext_getElem (by simpa using hlength) fun i hd hc => ?_
    rw [List.getElem_map, List.getElem_map]
    exact (htwins i _ _).known
  have hstored : (d.view side).stored = (c.view side).stored := by
    refine List.ext_getElem (by simpa [Cluster.view] using hlength) fun i hd hc => ?_
    simp only [Cluster.view, List.getElem_map]
    funext slot
    exact ((indistinct_akin _).load (htwins i _ _).store slot).1
  simp only [Cluster.view, h.held, hremembered] at hstored ⊢
  rw [hstored]

end Synod
