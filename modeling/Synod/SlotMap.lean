import Synod.Proposal

/-!
# Finite maps over slots

Acceptors, learners and commit tables each keep at most one thing per slot. The entries stand
in descending slot order, an invariant of the type: most slots are filled in ascending order, so
that what is looked for mostly comes first. The view is `get?`; `get?_insert` says all about
insertion.
-/
namespace Synod

/-- At most one `α` per slot, the greatest slot first. -/
structure SlotMap (α : Type) where
  descending : List (Slot × α)
  pairwise : descending.Pairwise (fun a b => b.1 < a.1)
  deriving Repr

namespace SlotMap
variable {α : Type}

def empty : SlotMap α := ⟨[], .nil⟩

instance : EmptyCollection (SlotMap α) := ⟨empty⟩
instance : Inhabited (SlotMap α) := ⟨empty⟩

instance [DecidableEq α] : DecidableEq (SlotMap α) := fun a b =>
  decidable_of_iff (a.descending = b.descending) (by cases a; cases b; simp)

/-- The entry of a slot in a list of entries; it does not stand behind those of smaller slots. -/
def find? (slot : Slot) : List (Slot × α) → Option α
  | [] => none
  | (s, a) :: rest => if slot < s then find? slot rest else if s = slot then some a else none

def get? (m : SlotMap α) (slot : Slot) : Option α :=
  find? slot m.descending

/-- Puts an entry in its place, instead of an older one of the same slot. -/
def place (slot : Slot) (a : α) : List (Slot × α) → List (Slot × α)
  | [] => [(slot, a)]
  | (s, b) :: rest =>
    if slot < s then (s, b) :: place slot a rest
    else if slot = s then (slot, a) :: rest
    else (slot, a) :: (s, b) :: rest

theorem fst_mem_place {slot : Slot} {a : α} {es : List (Slot × α)} {e : Slot × α}
    (h : e ∈ place slot a es) : e = (slot, a) ∨ e ∈ es := by
  induction es with
  | nil => simpa [place] using h
  | cons head rest ih =>
    obtain ⟨s, b⟩ := head
    unfold place at h
    split at h
    · rcases List.mem_cons.mp h with h | h
      · exact .inr (h ▸ List.mem_cons_self)
      · exact (ih h).imp_right (List.mem_cons_of_mem _)
    · split at h
      · rcases List.mem_cons.mp h with h | h
        · exact .inl h
        · exact .inr (List.mem_cons_of_mem _ h)
      · simpa using h

theorem pairwise_place {slot : Slot} {a : α} {es : List (Slot × α)}
    (h : es.Pairwise (fun x y => y.1 < x.1)) :
    (place slot a es).Pairwise (fun x y => y.1 < x.1) := by
  induction es with
  | nil => exact List.pairwise_singleton _ _
  | cons head rest ih =>
    obtain ⟨s, b⟩ := head
    obtain ⟨hs, hrest⟩ := List.pairwise_cons.mp h
    unfold place
    split
    · rename_i hlt
      refine List.pairwise_cons.mpr ⟨fun e he => ?_, ih hrest⟩
      rcases fst_mem_place he with rfl | he
      · exact hlt
      · exact hs e he
    · split
      · rename_i heq
        exact List.pairwise_cons.mpr ⟨fun e he => by simpa [heq] using hs e he, hrest⟩
      · rename_i hlt hne
        have hgt : s < slot := by
          rcases Slot.lt_or_eq_or_gt slot s with h | h | h
          · exact absurd h hlt
          · exact absurd h hne
          · exact h
        refine List.pairwise_cons.mpr ⟨fun e he => ?_, h⟩
        rcases List.mem_cons.mp he with rfl | he
        · exact hgt
        · exact Slot.lt_trans (hs e he) hgt

def insert (m : SlotMap α) (slot : Slot) (a : α) : SlotMap α :=
  ⟨place slot a m.descending, pairwise_place m.pairwise⟩

/-- The entries in ascending slot order. -/
def entries (m : SlotMap α) : List (Slot × α) := m.descending.reverse

/-- The entry of the greatest slot. -/
def greatest? (m : SlotMap α) : Option α :=
  m.descending.head?.map (·.2)

/-- The entries at or after a slot, in slot order. -/
def since (m : SlotMap α) (slot : Slot) : List α :=
  (m.entries.filter (fun e => decide (slot ≤ e.1))).map (·.2)

@[simp] theorem get?_empty (slot : Slot) : (∅ : SlotMap α).get? slot = none := rfl

theorem find?_place (slot : Slot) (a : α) (es : List (Slot × α)) (s : Slot) :
    find? s (place slot a es) = if slot = s then some a else find? s es := by
  induction es with
  | nil =>
    unfold place find? find?
    by_cases hs : slot = s
    · subst hs
      simp [Slot.lt_irrefl]
    · simp [hs]
  | cons head rest ih =>
    obtain ⟨t, b⟩ := head
    unfold place
    split
    · rename_i hlt
      unfold find?
      rw [ih]
      by_cases hs : slot = s
      · subst hs
        simp [hlt]
      · simp [hs]
    · split
      · rename_i heq
        subst heq
        by_cases hs : slot = s
        · subst hs
          simp [find?, Slot.lt_irrefl]
        · simp [find?, hs]
      · rename_i hlt hne
        have hgt : t < slot := by
          rcases Slot.lt_or_eq_or_gt slot t with h | h | h
          · exact absurd h hlt
          · exact absurd h hne
          · exact h
        by_cases hs : slot = s
        · subst hs
          simp [find?, Slot.lt_irrefl]
        · rcases Slot.lt_or_eq_or_gt s slot with h | h | h
          · rw [find?, if_pos h, if_neg hs]
          · exact absurd h.symm hs
          · have hts : t < s := Slot.lt_trans hgt h
            have hst : ¬ s < t := fun hst => Slot.lt_irrefl s (Slot.lt_trans hst hts)
            have hsl : ¬ s < slot := fun hsl => Slot.lt_irrefl s (Slot.lt_trans hsl h)
            have hne : ¬ t = s := fun heq => Slot.lt_irrefl s (heq ▸ hts)
            simp [find?, hs, hst, hsl, hne]

theorem mem_of_find? {slot : Slot} {a : α} {es : List (Slot × α)} (h : find? slot es = some a) :
    (slot, a) ∈ es := by
  induction es with
  | nil => cases h
  | cons head rest ih =>
    obtain ⟨s, b⟩ := head
    unfold find? at h
    split at h
    · exact List.mem_cons_of_mem _ (ih h)
    · split at h
      · rename_i heq
        cases h
        rw [heq]
        exact List.mem_cons_self
      · cases h

/-- What a map holds is found among its entries. -/
theorem get?_eq_some_iff {m : SlotMap α} {slot : Slot} {a : α} :
    m.get? slot = some a ↔ (slot, a) ∈ m.descending := by
  refine ⟨mem_of_find?, fun h => ?_⟩
  obtain ⟨entries, hpairwise⟩ := m
  unfold get?
  induction entries with
  | nil => cases h
  | cons head rest ih =>
    obtain ⟨hhead, hrest⟩ := List.pairwise_cons.mp hpairwise
    unfold find?
    rcases List.mem_cons.mp h with rfl | h
    · simp [Slot.lt_irrefl]
    · rw [if_pos (hhead _ h)]
      exact ih hrest h

theorem pairwise_entries (m : SlotMap α) : m.entries.Pairwise (fun a b => a.1 < b.1) :=
  List.pairwise_reverse.mpr m.pairwise

theorem mem_entries {m : SlotMap α} {slot : Slot} {a : α} :
    (slot, a) ∈ m.entries ↔ m.get? slot = some a := by
  rw [get?_eq_some_iff, entries, List.mem_reverse]

theorem mem_since {m : SlotMap α} {slot : Slot} {a : α} :
    a ∈ m.since slot ↔ ∃ s, slot ≤ s ∧ m.get? s = some a := by
  simp only [since, List.mem_map, List.mem_filter, decide_eq_true_eq, Prod.exists, mem_entries]
  constructor
  · rintro ⟨s, a, ⟨hget, hle⟩, rfl⟩
    exact ⟨s, hle, hget⟩
  · rintro ⟨s, hle, hget⟩
    exact ⟨s, a, ⟨hget, hle⟩, rfl⟩

/-- The greatest entry is one of the entries, and no slot that is filled lies above it. -/
theorem greatest?_spec {m : SlotMap α} {a : α} (h : m.greatest? = some a) :
    ∃ slot, m.get? slot = some a ∧ ∀ s b, m.get? s = some b → ¬slot < s := by
  obtain ⟨entries, hpairwise⟩ := m
  cases entries with
  | nil => cases h
  | cons head rest =>
    obtain ⟨slot, b⟩ := head
    cases h
    refine ⟨slot, by simp [get?, find?, Slot.lt_irrefl], fun s b hs hlt => ?_⟩
    rcases List.mem_cons.mp (mem_of_find? hs) with heq | hmem
    · cases heq
      exact Slot.lt_irrefl _ hlt
    · exact Slot.lt_irrefl _ (Slot.lt_trans hlt ((List.pairwise_cons.mp hpairwise).1 _ hmem))

/-- A map in which some slot is filled has a greatest entry. -/
theorem exists_greatest? {m : SlotMap α} {slot : Slot} {a : α} (h : m.get? slot = some a) :
    ∃ b, m.greatest? = some b := by
  obtain ⟨entries, hpairwise⟩ := m
  cases entries with
  | nil => cases h
  | cons head rest => exact ⟨head.2, rfl⟩

/-- The entry that no filled slot lies above is the greatest. -/
theorem greatest?_of_last {m : SlotMap α} {slot : Slot} {a : α} (h : m.get? slot = some a)
    (hlast : ∀ s b, m.get? s = some b → ¬slot < s) : m.greatest? = some a := by
  obtain ⟨b, hb⟩ := exists_greatest? h
  obtain ⟨s, hs, hgreatest⟩ := greatest?_spec hb
  have hsame : slot = s := by
    rcases Slot.lt_or_eq_or_gt slot s with hlt | heq | hgt
    · exact absurd hlt (hlast s b hs)
    · exact heq
    · exact absurd hgt (hgreatest slot a h)
  subst hsame
  rw [hb, ← hs, h]

@[simp] theorem get?_insert (m : SlotMap α) (slot : Slot) (a : α) (s : Slot) :
    (m.insert slot a).get? s = if slot = s then some a else m.get? s :=
  find?_place slot a m.descending s

end SlotMap
end Synod
