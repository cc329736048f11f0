import Mathlib.Tactic.Lemma
import Synod.Proofs.Candidacy

/-!
# Whom a candidate takes for the leader

A peer may restart, and then goes by another name. The candidate learns of it when it asks for names
the next time, which it does when it knows no peer by the leader's name. `History` follows a candidate
through its calls beside the list of all names that were given to it; anything may happen to the
peers meanwhile. What the candidate goes by is the last name that each peer gave. So a peer that keeps
it from standing has given the leader's name the last time it was asked; what name it has by now
nobody looks at.
-/
namespace Synod

variable {π ω : Type}

/-- A name that was given: the number of the peer, the world in which it was asked, and the name. -/
structure Introduction (ω : Type) where
  peer : Nat
  asked : ω
  name : String

/-- The last name that a peer gave, if the list begins with what was given last. -/
def latest? (given : List (Introduction ω)) (i : Nat) : Option (Introduction ω) :=
  given.find? (·.peer = i)

namespace Peer

/-- The names that are given when all peers are asked; some may not answer. -/
def introductions (identify : π → ω → Option String × ω) :
    (index : Nat) → List (Peer π) → ω → List (Introduction ω)
  | _, [], _ => []
  | index, peer :: rest, w =>
    ((identify peer.address w).1.map (⟨index, w, ·⟩)).toList ++
      introductions identify (index + 1) rest (identify peer.address w).2

variable {identify : π → ω → Option String × ω} {index : Nat} {peers : List (Peer π)} {w : ω}

lemma given_of_mem_introductions {a : Introduction ω}
    (h : a ∈ introductions identify index peers w) :
    ∃ i peer, a.peer = index + i ∧ peers[i]? = some peer ∧
      (identify peer.address a.asked).1 = some a.name := by
  induction peers generalizing index w with
  | nil => cases h
  | cons peer rest ih =>
    unfold introductions at h
    rcases List.mem_append.mp h with h | h
    · obtain ⟨name, hname, rfl⟩ := Option.map_eq_some_iff.mp (Option.mem_toList.mp h)
      exact ⟨0, peer, rfl, rfl, hname⟩
    · obtain ⟨i, peer', hnumber, hpeer, hname⟩ := ih h
      exact ⟨i + 1, peer', by omega, hpeer, hname⟩

/-- What the first peer said last it said first, since each peer is asked once. -/
lemma latest?_introductions_cons (peer : Peer π) (rest : List (Peer π)) (w : ω) (i : Nat) :
    latest? (introductions identify index (peer :: rest) w) i =
      if i = index then (identify peer.address w).1.map (⟨index, w, ·⟩)
      else latest? (introductions identify (index + 1) rest (identify peer.address w).2) i := by
  unfold latest?
  rw [introductions, List.find?_append]
  split
  · rename_i hi
    have hrest : (introductions identify (index + 1) rest (identify peer.address w).2).find?
        (·.peer = i) = none := by
      refine List.find?_eq_none.mpr fun a ha => ?_
      obtain ⟨k, -, hnumber, -⟩ := given_of_mem_introductions ha
      simp only [decide_eq_true_eq]
      omega
    rw [hrest, Option.or_none]
    cases (identify peer.address w).1 <;> simp [hi]
  · rename_i hi
    cases (identify peer.address w).1 <;> simp [Ne.symm hi]

/-- Whoever is asked and answers goes by that name afterwards. -/
lemma peers_refresh (identify : π → ω → Option String × ω) (index : Nat) (peers : List (Peer π))
    (w : ω) (i : Nat) :
    (refresh identify index peers w).2.1[i]? = peers[i]?.map fun peer =>
      { peer with uuid :=
        ((latest? (introductions identify index peers w) (index + i)).map (·.name)).or peer.uuid } := by
  induction peers generalizing index w i with
  | nil => rfl
  | cons peer rest ih =>
    rw [latest?_introductions_cons]
    rcases hasked : identify peer.address w with ⟨answer, w₁⟩
    unfold refresh
    cases i with
    | zero => cases answer <;> simp [hasked]
    | succ i =>
      have hrest := ih (index + 1) w₁ i
      have hi : index + 1 + i = index + (i + 1) := by omega
      rw [hi] at hrest
      cases answer <;> simp [hasked, hrest]

lemma mem_restarted_cons (peer : Peer π) (rest : List (Peer π)) (w : ω) (i : Nat) :
    i ∈ (refresh identify index (peer :: rest) w).1 ↔
      (i = index ∧ ∃ old new, peer.uuid = some old ∧ (identify peer.address w).1 = some new ∧
        new ≠ old) ∨
      i ∈ (refresh identify (index + 1) rest (identify peer.address w).2).1 := by
  rcases hasked : identify peer.address w with ⟨_ | new, w₁⟩
  · simp [refresh, hasked]
  · cases hbefore : peer.uuid with
    | none => simp [refresh, hasked, hbefore]
    | some old =>
      by_cases hsame : old = new
      · simp [refresh, hasked, hbefore, hsame]
      · simp [refresh, hasked, hbefore, hsame, Ne.symm hsame]

lemma le_of_mem_restarted {i : Nat} (h : i ∈ (refresh identify index peers w).1) : index ≤ i := by
  induction peers generalizing index w with
  | nil => cases h
  | cons peer rest ih =>
    rcases (mem_restarted_cons peer rest w i).mp h with ⟨rfl, -⟩ | h
    · exact le_rfl
    · exact (Nat.le_succ index).trans (ih h)

/-- Those are said to have restarted that went by another name before. -/
lemma mem_restarted_iff (identify : π → ω → Option String × ω) (index : Nat) (peers : List (Peer π))
    (w : ω) (i : Nat) :
    index + i ∈ (refresh identify index peers w).1 ↔ ∃ peer old new, peers[i]? = some peer ∧
      peer.uuid = some old ∧ latest? (introductions identify index peers w) (index + i) = some new ∧
      new.name ≠ old := by
  induction peers generalizing index w i with
  | nil => simp [refresh]
  | cons peer rest ih =>
    rw [mem_restarted_cons, latest?_introductions_cons]
    cases i with
    | zero =>
      have hrest : index ∉ (refresh identify (index + 1) rest (identify peer.address w).2).1 :=
        fun h => Nat.not_succ_le_self index (le_of_mem_restarted h)
      simp [hrest]
    | succ i =>
      have hi : index + 1 + i = index + (i + 1) := by omega
      have hrest := ih (index + 1) (identify peer.address w).2 i
      rw [hi] at hrest
      simp [hrest]

end Peer

namespace Candidate
variable {s : Surroundings π ω} {c c' : Candidate π} {w w' : ω} {given : List (Introduction ω)}

/-- The names that are given while the peer of this name is looked for. -/
def sought (s : Surroundings π ω) (uuid : String) (c : Candidate π) (w : ω) :
    List (Introduction ω) :=
  match c.peerNamed? uuid with
  | some _ => []
  | none => Peer.introductions s.identify 0 c.peers w

/-- The names that are given in an attempt to become leader. -/
def asks (s : Surroundings π ω) (c : Candidate π) (w : ω) : List (Introduction ω) :=
  match (s.learner w).leader? with
  | none => []
  | some (_, leader) => if leader = c.uuid then [] else c.sought s leader w

/-- A candidate that has just been made, or that went through calls, and the names given to it. Each
call may find the world changed in any way. -/
inductive History (s : Surroundings π ω) : Candidate π → List (Introduction ω) → Prop
  | new (proposer : Proposer) : History s (new proposer) []
  | addPeer {c : Candidate π} {given : List (Introduction ω)} (earlier : History s c given)
      (address : π) : History s (c.addPeer address) given
  | refresh {c : Candidate π} {given : List (Introduction ω)} (earlier : History s c given) (w : ω) :
      History s (c.refresh s w).2.1 (Peer.introductions s.identify 0 c.peers w ++ given)
  | tryAcquire {c : Candidate π} {given : List (Introduction ω)} (earlier : History s c given)
      (w : ω) : History s (c.tryAcquire s w).2.1 (c.asks s w ++ given)

/-- All names were given by the peers that they are said to be from, and each peer goes by the last
one that it gave. -/
structure Acquainted (s : Surroundings π ω) (peers : List (Peer π)) (given : List (Introduction ω)) :
    Prop where
  given_by : ∀ a ∈ given, ∃ peer, peers[a.peer]? = some peer ∧
    (s.identify peer.address a.asked).1 = some a.name
  goes_by : ∀ i peer, peers[i]? = some peer → peer.uuid = (latest? given i).map (·.name)

lemma Acquainted.addPeer (h : Acquainted s c.peers given) (address : π) :
    Acquainted s (c.addPeer address).peers given where
  given_by a ha := by
    obtain ⟨peer, hpeer, hname⟩ := h.given_by a ha
    exact ⟨peer, List.getElem?_append_left (List.getElem?_eq_some_iff.mp hpeer).1 ▸ hpeer, hname⟩
  goes_by i peer hpeer := by
    rcases Nat.lt_or_ge i c.peers.length with hold | hnew
    · exact h.goes_by i peer (List.getElem?_append_left hold ▸ hpeer)
    · -- nobody has given a name under this number
      have hnobody : latest? given i = none := by
        refine List.find?_eq_none.mpr fun a ha => ?_
        obtain ⟨peer', hpeer', -⟩ := h.given_by a ha
        have hlt := (List.getElem?_eq_some_iff.mp hpeer').1
        simp only [decide_eq_true_eq]
        omega
      rw [hnobody]
      obtain rfl : peer = ⟨address, none⟩ := by
        have hlast := List.mem_of_getElem? (List.getElem?_append_right hnew ▸ hpeer)
        exact List.mem_singleton.mp hlast
      rfl

lemma Acquainted.refresh (h : Acquainted s c.peers given) (w : ω) :
    Acquainted s (c.refresh s w).2.1.peers
      (Peer.introductions s.identify 0 c.peers w ++ given) where
  given_by a ha := by
    have hasked : ∃ peer, c.peers[a.peer]? = some peer ∧
        (s.identify peer.address a.asked).1 = some a.name := by
      rcases List.mem_append.mp ha with ha | ha
      · obtain ⟨i, peer, hnumber, hpeer, hname⟩ := Peer.given_of_mem_introductions ha
        rw [Nat.zero_add] at hnumber
        exact ⟨peer, hnumber ▸ hpeer, hname⟩
      · exact h.given_by a ha
    obtain ⟨peer, hpeer, hname⟩ := hasked
    have hafter := Peer.peers_refresh s.identify 0 c.peers w a.peer
    exact ⟨_, hafter.trans (congrArg (Option.map _) hpeer), hname⟩
  goes_by i peer hpeer := by
    have hafter := Peer.peers_refresh s.identify 0 c.peers w i
    obtain ⟨before, hbefore, rfl⟩ := Option.map_eq_some_iff.mp (hafter.symm.trans hpeer)
    rw [h.goes_by i before hbefore, Nat.zero_add, latest?, latest?, latest?, List.find?_append,
      Option.map_or]

/-- Peers are asked for the leader only if none goes by its name. -/
lemma Acquainted.locate {uuid : String} {address : Option π} (h : Acquainted s c.peers given)
    (hlocate : c.locate s uuid w = (address, c', w')) :
    Acquainted s c'.peers (c.sought s uuid w ++ given) ∧ c'.peerNamed? uuid = address := by
  unfold Candidate.locate at hlocate
  unfold sought
  cases hnamed : c.peerNamed? uuid with
  | some _ =>
    rw [hnamed] at hlocate
    cases hlocate
    exact ⟨h, hnamed⟩
  | none =>
    rw [hnamed] at hlocate
    cases hlocate
    exact ⟨h.refresh w, rfl⟩

/-- The peer of a name is one that went by it when it was asked last. -/
lemma Acquainted.peerNamed {uuid : String} {address : π} (h : Acquainted s c.peers given)
    (hnamed : c.peerNamed? uuid = some address) :
    ∃ i a, c.peers[i]? = some ⟨address, some uuid⟩ ∧ latest? given i = some a ∧ a.name = uuid ∧
      (s.identify address a.asked).1 = some uuid := by
  obtain ⟨⟨place, name⟩, hfound, rfl⟩ := Option.map_eq_some_iff.mp hnamed
  obtain rfl : name = some uuid := by simpa using List.find?_some hfound
  obtain ⟨i, hi⟩ := List.mem_iff_getElem?.mp (List.mem_of_find?_eq_some hfound)
  obtain ⟨a, hlatest, hname⟩ := Option.map_eq_some_iff.mp (h.goes_by i _ hi).symm
  obtain ⟨peer, hpeer, hidentify⟩ := h.given_by a (List.mem_of_find?_eq_some hlatest)
  obtain rfl : a.peer = i := by simpa using List.find?_some hlatest
  obtain rfl : peer = ⟨place, some uuid⟩ := Option.some.inj (hpeer.symm.trans hi)
  exact ⟨a.peer, a, hi, hlatest, hname, hname ▸ hidentify⟩

lemma peers_of_isLeader {l : Learner} {leads : Bool} (h : c.isLeader l = (leads, c')) :
    c'.peers = c.peers := by
  unfold isLeader at h
  split at h
  · cases h
    rfl
  · split at h <;> cases h <;> rfl

lemma peers_of_weigh {known : Option (Slot × String)} {alive : Bool} {course : Except Fault Course}
    (h : c.weigh known alive = (course, c')) : c'.peers = c.peers := by
  unfold weigh at h
  split at h
  · cases h
    rfl
  · split at h <;> cases h <;> rfl

lemma peers_stand (generation : Slot) : (c.stand s generation w).2.1.peers = c.peers := by
  unfold stand
  split
  · rfl
  · split <;> rfl

/-- A leader that is found to be alive is one whose peer answered that it leads. -/
lemma Acquainted.leaderIsAlive {uuid : String} {alive : Bool} (h : Acquainted s c.peers given)
    (halive : c.leaderIsAlive s uuid w = (alive, c', w')) :
    Acquainted s c'.peers (c.sought s uuid w ++ given) ∧
    (alive = true → ∃ address w₁, c'.peerNamed? uuid = some address ∧
      s.ping address w₁ = (some true, w')) := by
  unfold Candidate.leaderIsAlive at halive
  rcases hlocate : c.locate s uuid w with ⟨_ | address, c₁, w₁⟩
  · simp only [hlocate] at halive
    cases halive
    exact ⟨(h.locate hlocate).1, nofun⟩
  · rcases hping : s.ping address w₁ with ⟨answer, w₂⟩
    simp only [hlocate, hping] at halive
    cases halive
    refine ⟨(h.locate hlocate).1, fun htrue => ⟨address, w₁, (h.locate hlocate).2, ?_⟩⟩
    cases answer with
    | none => cases htrue
    | some leads =>
      cases htrue
      exact hping

lemma Acquainted.course {course : Except Fault Course} (h : Acquainted s c.peers given)
    (hcourse : c.course s w = (course, c', w')) :
    Acquainted s c'.peers (c.asks s w ++ given) ∧
    (course = .ok (.settled .notLeading) → ∃ generation leader address w₁,
      (s.learner w).leader? = some (generation, leader) ∧ leader ≠ c.uuid ∧
      c'.peerNamed? leader = some address ∧ s.ping address w₁ = (some true, w')) := by
  rw [course_eq] at hcourse
  unfold asks
  rcases hleads : c.isLeader (s.learner w) with ⟨_ | _, c₁⟩
  · have hpeers := peers_of_isLeader hleads
    rcases hhail : c₁.hail s (s.learner w).leader? w with ⟨alive, c₂, w₂⟩
    rcases hweigh : c₂.weigh (s.learner w).leader? alive with ⟨course', c₃⟩
    simp only [hleads, hhail, hweigh] at hcourse
    cases hcourse
    have hkept : c'.peers = c₂.peers := peers_of_weigh hweigh
    cases hknown : (s.learner w).leader? with
    | none =>
      rw [hknown] at hhail hweigh
      cases hhail
      refine ⟨hkept ▸ hpeers ▸ h, fun hsettled => ?_⟩
      subst hsettled
      cases (settled_of_weigh hweigh).1
    | some known =>
      obtain ⟨generation, leader⟩ := known
      rw [hknown] at hhail
      have hother : leader ≠ c.uuid := by
        rintro rfl
        have hself : (c.isLeader (s.learner w)).1 = true := by
          unfold isLeader
          rw [hknown, Option.map_some, if_pos rfl]
        rw [hleads] at hself
        cases hself
      have hsought : c₁.sought s leader w = c.sought s leader w := by
        unfold sought peerNamed?
        rw [hpeers]
      obtain ⟨hacquainted, hheard⟩ := (hpeers ▸ h).leaderIsAlive (c := c₁) hhail
      rw [hsought] at hacquainted
      simp only [if_neg hother]
      refine ⟨hkept ▸ hacquainted, fun hsettled => ?_⟩
      subst hsettled
      obtain ⟨address, w₁, hnamed, hping⟩ := hheard (settled_of_weigh hweigh).1
      exact ⟨generation, leader, address, w₁, rfl, hother,
        by rwa [peerNamed?, hkept], hping⟩
  · simp only [hleads] at hcourse
    cases hcourse
    obtain ⟨generation, hleader⟩ := isLeader_eq_true (congrArg Prod.fst hleads)
    rw [hleader]
    simp only [if_true]
    exact ⟨peers_of_isLeader hleads ▸ h, nofun⟩

lemma Acquainted.tryAcquire (h : Acquainted s c.peers given) (w : ω) :
    Acquainted s (c.tryAcquire s w).2.1.peers (c.asks s w ++ given) := by
  rcases hcourse : c.course s w with ⟨course, c₁, w₁⟩
  have hacquainted := (h.course hcourse).1
  unfold Candidate.tryAcquire
  rcases course with e | state | generation
  · simpa only [hcourse] using hacquainted
  · simpa only [hcourse] using hacquainted
  · simp only [hcourse]
    rw [peers_stand]
    exact hacquainted

/-- Induction on the calls. -/
theorem acquainted (h : History s c given) : Acquainted s c.peers given := by
  induction h with
  | new proposer => exact ⟨nofun, nofun⟩
  | addPeer _ address ih => exact ih.addPeer address
  | refresh _ w ih => exact ih.refresh w
  | tryAcquire _ w ih => exact ih.tryAcquire w

/-! ### What keeps a candidate from standing -/

/-- After any calls, with any changes of the world in between, each peer goes by the name that it gave
last. A refresh says that just those restarted that give another name than before, and nobody keeps
the name of before. If an attempt ends without a round because another node is taken for the leader,
then a peer of this attempt answered that it leads, and the last name that was given at its address,
in this attempt or before, is the name of the leader known when the attempt began. So it is this
leader that has answered, if the node at the address is the one that was asked then. -/
theorem heeds_names_last_given {name : π → ω → Option String}
    (honest : ∀ address w uuid, (s.identify address w).1 = some uuid → name address w = some uuid)
    (h : History s c given) :
    (∀ i peer, c.peers[i]? = some peer → peer.uuid = (latest? given i).map (·.name)) ∧
    (∀ w i, i ∈ (c.refresh s w).1 ↔ ∃ old new, latest? given i = some old ∧
      latest? (Peer.introductions s.identify 0 c.peers w) i = some new ∧ new.name ≠ old.name) ∧
    ∀ w c' w', c.course s w = (.ok (.settled .notLeading), c', w') →
      c.tryAcquire s w = (.ok .notLeading, c', w') ∧
      ∃ generation leader i address a w₁,
        (s.learner w).leader? = some (generation, leader) ∧ leader ≠ c.uuid ∧
        c'.peers[i]? = some ⟨address, some leader⟩ ∧ s.ping address w₁ = (some true, w') ∧
        latest? (c.asks s w ++ given) i = some a ∧ name address a.asked = some leader ∧
        (name address w₁ = name address a.asked → name address w₁ = some leader) := by
  have hacquainted := acquainted h
  refine ⟨hacquainted.goes_by, fun w i => ?_, fun w c' w' hcourse => ⟨?_, ?_⟩⟩
  · have hrestarted := Peer.mem_restarted_iff s.identify 0 c.peers w i
    rw [Nat.zero_add] at hrestarted
    refine hrestarted.trans ⟨?_, ?_⟩
    · rintro ⟨peer, old, new, hpeer, hold, hnew, hne⟩
      have hlast := (hacquainted.goes_by i peer hpeer).symm.trans hold
      obtain ⟨a, ha, rfl⟩ := Option.map_eq_some_iff.mp hlast
      exact ⟨a, new, ha, hnew, hne⟩
    · rintro ⟨a, new, ha, hnew, hne⟩
      obtain ⟨peer, hpeer, -⟩ := hacquainted.given_by a (List.mem_of_find?_eq_some ha)
      obtain rfl : a.peer = i := by simpa using List.find?_some ha
      exact ⟨peer, a.name, new, hpeer, by rw [hacquainted.goes_by _ peer hpeer, ha]; rfl, hnew, hne⟩
  · unfold tryAcquire
    rw [hcourse]
  · obtain ⟨hafter, hheard⟩ := hacquainted.course hcourse
    obtain ⟨generation, leader, address, w₁, hleader, hother, hnamed, hping⟩ := hheard rfl
    obtain ⟨i, a, hpeer, hlatest, -, hidentify⟩ := hafter.peerNamed hnamed
    have hname := honest address a.asked leader hidentify
    exact ⟨generation, leader, i, address, a, w₁, hleader, hother, hpeer, hping, hlatest, hname,
      fun hsame => hsame.trans hname⟩

/-- A place where one node after the other runs, each of which says that it leads. A world is the name
of the node that runs there and what the candidate's learner has heard; there are no acceptors. -/
def lodging : Surroundings Unit (String × Learner) where
  transport :=
    { prepare := fun _ _ w => ([], w)
      accept := fun _ _ w => ([], w)
      notify := fun _ _ w => w }
  learner w := w.2
  record slot value w := ((w.2.record slot value).1, w.1, (w.2.record slot value).2)
  ping _ w := (some true, w)
  identify _ w := (some w.1, w)

/-- A candidate that has asked for the name of the node there. -/
def lodger (w : String × Learner) : Candidate Unit :=
  (((new ⟨"a", Quorum.single, 0⟩).addPeer ()).refresh lodging w).2.1

lemma history_lodger (w : String × Learner) : History lodging (lodger w) [⟨0, w, w.1⟩] :=
  ((History.new _).addPeer ()).refresh w

/-- While the leader that was asked for its name still runs there, it is the one that answers. -/
theorem heeds_names_last_given_unchanged :
    let w : String × Learner :=
      ("b", (Learner.empty.record ⟨0⟩ ⟨⟨0, "b"⟩, ⟨0⟩, Text.toBytes "b"⟩).2)
    let attempt := (lodger w).tryAcquire lodging w
    (∀ address w uuid, (lodging.identify address w).1 = some uuid → some w.1 = some uuid) ∧
      History lodging (lodger w) [⟨0, w, "b"⟩] ∧ attempt.1 = .ok .notLeading ∧
      ∃ i address a, latest? ((lodger w).asks lodging w ++ [⟨0, w, "b"⟩]) i = some a ∧
        attempt.2.1.peers[i]? = some ⟨address, some "b"⟩ ∧ a.asked.1 = "b" := by
  intro w attempt
  have honest : ∀ (address : Unit) (w : String × Learner) uuid,
      (lodging.identify address w).1 = some uuid → some w.1 = some uuid := fun _ _ _ h => h
  have hcourse : (lodger w).course lodging w =
      (.ok (.settled .notLeading), ((lodger w).course lodging w).2) := Prod.ext (by decide) rfl
  obtain ⟨-, -, hverdict⟩ := heeds_names_last_given honest (history_lodger w)
  obtain ⟨hattempt, generation, leader, i, address, a, w₁, hleader, -, hpeer, -, hlatest, hname, -⟩ :=
    hverdict w _ _ hcourse
  have hknown : (lodging.learner w).leader? = some (⟨0⟩, "b") := by decide
  obtain ⟨-, rfl⟩ := Prod.mk.inj (Option.some.inj (hleader.symm.trans hknown))
  have hattempt' : attempt = (lodger w).tryAcquire lodging w := rfl
  rw [hattempt', hattempt]
  exact ⟨honest, history_lodger w, rfl, i, address, a, hlatest, hpeer, Option.some.inj hname⟩

/-- Once another node runs there, that one is taken for the leader: the peer still goes by the name
of before, so that nobody asks for names again. -/
theorem heeds_node_under_former_name :
    let l := (Learner.empty.record ⟨0⟩ ⟨⟨0, "b"⟩, ⟨0⟩, Text.toBytes "b"⟩).2
    let c := lodger ("b", l)
    History lodging c [⟨0, ("b", l), "b"⟩] ∧
      (c.course lodging ("c", l)).1 = .ok (.settled .notLeading) ∧
      (c.tryAcquire lodging ("c", l)).1 = .ok .notLeading ∧
      (lodging.learner ("c", l)).leader? = some (⟨0⟩, "b") ∧
      (lodging.ping () ("c", l)).1 = some true ∧ (lodging.identify () ("c", l)).1 = some "c" := by
  intro l c
  exact ⟨history_lodger _, by decide, by decide, by decide, rfl, rfl⟩

end Candidate
end Synod
