import Synod.Proofs.Opening
import Synod.Proofs.Sides

/-!
# The directories of a cluster

To open a directory only adds to the files, so one that was opened is still there when all have been.
The paths to the directories of a cluster differ in the names of a node and of a space, which are the
last two on the way, so that each acceptor keeps its records in a place of its own.
-/
namespace Synod

namespace FileSystem
variable {fs fs' fs'' : FileSystem} {p : Path} {home home' l target : Location} {name : String}

/-- Files that were added to: what stood where stands there still. -/
structure Widens (fs fs' : FileSystem) : Prop where
  current : fs'.current = fs.current
  lookup : ∀ l e, fs.lookup l = some e → fs'.lookup l = some e

namespace Widens

theorem refl (fs : FileSystem) : Widens fs fs := ⟨rfl, fun _ _ h => h⟩

theorem trans (h : Widens fs fs') (h' : Widens fs' fs'') : Widens fs fs'' :=
  ⟨h'.current.trans h.current, fun l e hl => h'.lookup l e (h.lookup l e hl)⟩

theorem houses (h : Widens fs fs') (hh : fs.Houses p home) : fs'.Houses p home := by
  refine ⟨?_, h.lookup _ _ hh.directory⟩
  rw [h.current]
  exact walk_mono (fun l hl => h.lookup l _ hl) hh.walk

lemma put (hl : fs.lookup l = none) (e : Entry) : Widens fs (fs.put l e) := by
  refine ⟨rfl, fun q f hq => ?_⟩
  have hne : q ≠ l := by
    rintro rfl
    rw [hl] at hq
    cases hq
  rw [lookup_put_of_ne hne, hq]

end Widens

lemma widens_makeDirectory (h : fs.makeDirectory p = .ok fs') : Widens fs fs' := by
  unfold makeDirectory at h
  split at h
  · cases h
  · split at h
    · rename_i hnew
      cases h
      exact .put hnew _
    · cases h

lemma widens_unlessThere (h : fs.unlessThere p (fs.makeDirectory p) = .ok fs') : Widens fs fs' := by
  unfold unlessThere at h
  split at h
  · rename_i made hmade
    cases h
    exact widens_makeDirectory hmade
  · split_ifs at h
    cases h
    exact .refl fs

lemma widens_makeBelow {above : List Path} (h : fs.makeBelow p above = .ok fs') : Widens fs fs' := by
  induction above generalizing p fs' with
  | nil => exact widens_unlessThere h
  | cons nearest rest ih =>
    unfold makeBelow at h
    split at h
    · split at h
      · cases h
      · rename_i hbelow
        exact (ih hbelow).trans (widens_unlessThere h)
    · exact widens_unlessThere h

lemma widens_open {s : DirectoryStore} (h : DirectoryStore.open p fs = .ok s) :
    Widens fs s.files := by
  unfold DirectoryStore.open makeDirectories at h
  split at h
  · cases h
  · rename_i made hmade
    cases h
    split_ifs at hmade
    · cases hmade
      exact .refl fs
    · exact widens_makeBelow hmade

theorem Houses.unique (h : fs.Houses p home) (h' : fs.Houses p home') : home' = home :=
  Except.ok.inj (h'.walk.symm.trans h.walk)

/-- A name that leads somewhere, however long it is. -/
def Leads (name : String) : Prop := name ≠ "" ∧ name ≠ "." ∧ name ≠ ".."

instance (name : String) : Decidable (Leads name) :=
  inferInstanceAs (Decidable (name ≠ "" ∧ name ≠ "." ∧ name ≠ ".."))

lemma eq_of_walk_name (hn : Leads name) (h : fs.walk l [name] = .ok target) :
    target = l ++ [name] := by
  obtain ⟨hempty, hdot, hdots⟩ := hn
  unfold walk at h
  split at h
  · cases h
  · cases h
  · rw [if_neg (by simp [hempty, hdot]), if_neg hdots] at h
    split_ifs at h
    exact (Except.ok.inj h).symm

/-- A directory of a name is in the directory above it, under that name. -/
theorem Houses.child (hn : Leads name) (h : fs.Houses (p.child name) home) :
    ∃ above, fs.Houses p above ∧ home = above ++ [name] := by
  have hbase : (p.child name).base = p.base ++ [name] := by
    rw [Path.base, Path.parts_child_eq]
    simp [hn.1]
  have hstart : (p.base ++ [name]).head? = some "" ↔ p.base.head? = some "" := by
    cases p.base with
    | nil => simp [hn.1]
    | cons part rest => simp
  have hwalk := h.walk
  rw [hbase, walk_append] at hwalk
  simp only [hstart] at hwalk
  cases habove : fs.walk (if p.base.head? = some "" then [] else fs.current) p.base with
  | error e =>
    rw [habove] at hwalk
    cases hwalk
  | ok above =>
    rw [habove] at hwalk
    have hplace : fs.walk above [name] = .ok home := hwalk
    exact ⟨above, ⟨habove, directory_of_walk_name hplace⟩, eq_of_walk_name hn hplace⟩

end FileSystem

/-- Where a medium keeps records: a directory has its place, and one in memory is anywhere. -/
def Medium.At (home : Location) : Medium → Prop
  | memory _ => True
  | directory s => s.files.Houses s.dir home

namespace Cluster
open FileSystem
variable {dataDir : String} {files files' : FileSystem} {space : String} {home : Location}

/-- The name of a node, as directories have it. -/
def nodeName (node : Nat) : String := s!"node-{node}"

lemma recordDir_eq (dataDir : String) (node : Nat) (space : String) :
    recordDir dataDir node space = ((Path.ofString dataDir).child (nodeName node)).child space := rfl

lemma nodeName_injective {i j : Nat} (h : nodeName i = nodeName j) : i = j := by
  have htexts : "node-" ++ toString i = "node-" ++ toString j := h
  have hdigits := congrArg String.toList htexts
  rw [String.toList_append, String.toList_append] at hdigits
  have hread := congrArg (Nat.ofDigitChars 10 · 0) (List.append_cancel_left hdigits)
  simpa [Nat.toString_eq_ofList_toDigits] using hread

lemma leads_nodeName (i : Nat) : Leads (nodeName i) := by
  have hlong : 5 ≤ (nodeName i).toList.length := by
    have hsplit : (nodeName i).toList = "node-".toList ++ (Nat.repr i).toList :=
      String.toList_append
    rw [hsplit, List.length_append]
    exact Nat.le_add_right _ _
  refine ⟨?_, ?_, ?_⟩ <;> (intro h; rw [h] at hlong; revert hlong; decide)

/-- Where the records of a node and a space are, below the place of the data. -/
lemma houses_recordDir {node : Nat} (hspace : Leads space)
    (h : files.Houses (recordDir dataDir node space) home) :
    ∃ root, files.Houses (.ofString dataDir) root ∧ home = root ++ [nodeName node, space] := by
  rw [recordDir_eq] at h
  obtain ⟨inner, hinner, rfl⟩ := h.child hspace
  obtain ⟨root, hroot, rfl⟩ := hinner.child (leads_nodeName node)
  exact ⟨root, hroot, by simp⟩

lemma recordDir_parts (hspace : Leads space) (node : Nat) :
    (recordDir dataDir node space).parts ≠ [""] := by
  rw [recordDir_eq, Path.parts_child_eq]
  intro h
  have hlast := congrArg List.getLast? h
  simp only [List.getLast?_append, List.getLast?_singleton, Option.some_or,
    Option.some.injEq] at hlast
  exact hspace.1 hlast

/-- What an acceptor starts with: an empty memory, or the directory of its node and space. -/
def Furnished (dataDir : Option String) (space : String) (node : Nat) (files : FileSystem)
    (a : Acceptor Medium) : Prop :=
  match dataDir with
  | none => a = .start (.memory MemoryStore.empty)
  | some dataDir => ∃ store : DirectoryStore, a = .start (.directory store) ∧
      store.dir = recordDir dataDir node space ∧ ∃ home, files.Houses store.dir home

lemma Furnished.widens {dataDir : Option String} {node : Nat} {a : Acceptor Medium}
    (h : Furnished dataDir space node files a) (hwidens : files.Widens files') :
    Furnished dataDir space node files' a := by
  cases dataDir with
  | none => exact h
  | some dataDir =>
    obtain ⟨store, ha, hdir, home, hhome⟩ := h
    exact ⟨store, ha, hdir, home, hwidens.houses hhome⟩

/-- Every acceptor that was opened is furnished when all have been. Induction on those left. -/
lemma openAcceptors_furnished {dataDir : Option String} (hspace : Leads space) {left node : Nat}
    {acceptors : List (Acceptor Medium)}
    (h : openAcceptors dataDir space left node files = (.ok acceptors, files')) :
    files.Widens files' ∧
    ∀ k a, acceptors[k]? = some a → Furnished dataDir space (node + k) files' a := by
  induction left generalizing node files acceptors with
  | zero =>
    cases h
    exact ⟨.refl _, by simp⟩
  | succ left ih =>
    unfold openAcceptors at h
    cases dataDir with
    | none =>
      rcases hrest : openAcceptors none space left (node + 1) files with ⟨_ | rest, files''⟩
      · simp [hrest, Except.map] at h
      · simp only [hrest, Except.map, Prod.mk.injEq, Except.ok.injEq] at h
        obtain ⟨rfl, rfl⟩ := h
        obtain ⟨hwidens, hothers⟩ := ih hrest
        refine ⟨hwidens, fun k a ha => ?_⟩
        cases k with
        | zero => exact (Option.some.inj ha).symm
        | succ k => exact hothers k a ha
    | some dataDir =>
      cases hopen : DirectoryStore.open (recordDir dataDir node space) files with
      | error e => simp [hopen] at h
      | ok store =>
        obtain ⟨hdir, home, hhome⟩ :=
          DirectoryStore.houses_of_open (recordDir_parts hspace node) hopen
        rcases hrest : openAcceptors (some dataDir) space left (node + 1) store.files with
          ⟨_ | rest, files''⟩
        · simp [hopen, hrest, Except.map] at h
        · simp only [hopen, hrest, Except.map, Prod.mk.injEq, Except.ok.injEq] at h
          obtain ⟨rfl, rfl⟩ := h
          obtain ⟨hwidens, hothers⟩ := ih hrest
          refine ⟨(widens_open hopen).trans hwidens, fun k a ha => ?_⟩
          cases k with
          | zero =>
            refine ⟨store, (Option.some.inj ha).symm, hdir, home, ?_⟩
            rw [hdir]
            exact hwidens.houses hhome
          | succ k =>
            have hother := hothers k a ha
            rwa [Nat.add_right_comm] at hother

variable {config : Config} {uuids : Nat → String} {c : Cluster}

/-- What a cluster that has started was put together from. -/
lemma start_ok (h : start config uuids files = (.ok c, files')) :
    (∃ between, openAcceptors config.dataDir leadershipName config.nodes.toNat 0 files =
        (.ok c.leadership.acceptors, between) ∧
      openAcceptors config.dataDir transactionsName config.nodes.toNat 0 between =
        (.ok c.transactions.acceptors, c.files)) ∧
    ∃ quorum nodes, (List.range config.nodes.toNat).mapM
      (fun i => makeNode config quorum (uuids i)) = .ok nodes ∧ c.nodes = introduce nodes := by
  unfold start at h
  split at h
  · cases h
  rename_i quorum hquorum
  dsimp only at h
  split at h
  · cases h
  rename_i leadership between hleadership
  split at h
  · cases h
  rename_i transactions after htransactions
  split at h
  · cases h
  rename_i nodes hnodes
  obtain ⟨hopened, rfl⟩ := Prod.mk.inj h
  obtain rfl := Except.ok.inj hopened
  exact ⟨⟨between, hleadership, htransactions⟩, quorum, nodes, hnodes, rfl⟩

/-- In a cluster that has started, all acceptors of both sides are furnished. -/
theorem start_furnished (h : start config uuids files = (.ok c, files')) (side : Side) (i : Nat)
    (a : Acceptor Medium) (ha : (c.space side).acceptors[i]? = some a) :
    Furnished config.dataDir side.name i c.files a := by
  obtain ⟨⟨between, hleadership, htransactions⟩, _⟩ := start_ok h
  obtain ⟨_, hfirst⟩ := openAcceptors_furnished (by decide) hleadership
  obtain ⟨hwidens, hsecond⟩ := openAcceptors_furnished (by decide) htransactions
  rw [← Nat.zero_add i]
  cases side with
  | leadership => exact (hfirst i a ha).widens hwidens
  | transactions => exact hsecond i a ha

lemma mem_mapM {α β : Type} {f : α → Except Failure β} {xs : List α} {ys : List β}
    (h : xs.mapM f = .ok ys) {y : β} (hy : y ∈ ys) : ∃ x ∈ xs, f x = .ok y := by
  induction xs generalizing ys with
  | nil =>
    cases h
    cases hy
  | cons x xs ih =>
    rw [List.mapM_cons] at h
    cases hx : f x with
    | error e => simp [hx, bind, Except.bind] at h
    | ok z =>
      cases hrest : xs.mapM f with
      | error e => simp [hx, hrest, bind, Except.bind] at h
      | ok zs =>
        simp only [hx, hrest, bind, Except.bind, pure, Except.pure, Except.ok.injEq] at h
        subst h
        rcases List.mem_cons.mp hy with rfl | hy
        · exact ⟨x, List.mem_cons_self, hx⟩
        · obtain ⟨w, hw, hfw⟩ := ih hrest hy
          exact ⟨w, List.mem_cons_of_mem _ hw, hfw⟩

lemma proposer_foldl_addPeer {β : Type} (others : List (β × Nat)) (candidate : Candidate Nat) :
    (others.foldl (fun c (_, i) => c.addPeer i) candidate).proposer = candidate.proposer := by
  induction others generalizing candidate with
  | nil => rfl
  | cons other rest ih => exact ih (candidate.addPeer other.2)

/-- Both proposers of a node start with the same name and the same round. -/
theorem start_proposers (h : start config uuids files = (.ok c, files')) :
    ∀ node ∈ c.nodes, node.leadership.proposer = node.transactions.proposer := by
  obtain ⟨_, quorum, nodes, hnodes, hintroduced⟩ := start_ok h
  rw [hintroduced]
  intro node hnode
  obtain ⟨made, hmade, rfl⟩ := List.mem_map.mp hnode
  obtain ⟨i, _, hi⟩ := mem_mapM hnodes hmade
  dsimp only
  rw [proposer_foldl_addPeer]
  unfold makeNode at hi
  cases hproposer : Proposer.make (uuids i) quorum config.nodes.toNat config.roundFloor with
  | error e => simp [hproposer, bind, Except.bind] at hi
  | ok proposer =>
    simp only [hproposer, bind, Except.bind, pure, Except.pure, Except.ok.injEq] at hi
    subst hi
    rfl

/-- Every acceptor keeps its records at a place of its own, of those that there are for the nodes on
either side. -/
structure Wired (homes : Side × Nat → Location) (c : Cluster) : Prop where
  apart : Function.Injective homes
  placed : ∀ side i (a : Acceptor Medium), (c.space side).acceptors[i]? = some a →
    (c.mounted a).store.At (homes (side, i))

lemma leads_name (side : Side) : Leads side.name := by
  cases side <;> decide

/-- Places below one root, by the names of the node and of the space. -/
lemma homes_injective (root : Location) :
    Function.Injective fun p : Side × Nat => root ++ [nodeName p.2, p.1.name] := by
  rintro ⟨side, i⟩ ⟨side', j⟩ h
  have hnames := List.append_cancel_left h
  simp only [List.cons.injEq, and_true] at hnames
  have hside : side = side' := by
    have hname := hnames.2
    revert hname
    cases side <;> cases side' <;> decide
  rw [hside, nodeName_injective hnames.1]

theorem start_wired (h : start config uuids files = (.ok c, files')) : ∃ homes, c.Wired homes := by
  have hfurnished := start_furnished h
  cases hdata : config.dataDir with
  | none =>
    refine ⟨_, homes_injective [], fun side i a ha => ?_⟩
    have ha' := hfurnished side i a ha
    rw [hdata] at ha'
    rw [show a = .start (.memory MemoryStore.empty) from ha']
    exact trivial
  | some dataDir =>
    obtain ⟨root, hroot⟩ : ∃ root, ∀ root', c.files.Houses (.ofString dataDir) root' → root' = root := by
      by_cases hthere : ∃ root, c.files.Houses (.ofString dataDir) root
      · obtain ⟨root, hroot⟩ := hthere
        exact ⟨root, fun root' hroot' => hroot.unique hroot'⟩
      · exact ⟨[], fun root' hroot' => absurd ⟨root', hroot'⟩ hthere⟩
    refine ⟨_, homes_injective root, fun side i a ha => ?_⟩
    have ha' := hfurnished side i a ha
    rw [hdata] at ha'
    obtain ⟨store, rfl, hdir, home, hhome⟩ := ha'
    obtain ⟨root', hroot', rfl⟩ := houses_recordDir (leads_name side) (hdir ▸ hhome)
    rw [hroot root' hroot'] at hhome
    exact hhome

end Cluster
end Synod
