import Mathlib.Data.List.Forall2
import Mathlib.Data.List.Perm.Basic
import Synod.Proofs.Spellings

/-!
# Variants of what is written

A variant of a value has the members of its objects in any order, and any members of other names among
them. A form is readable if all variants of what it writes are read as the value written. Numbers and
texts have no variants but themselves; lists and structures are read item by item and field by field.
-/
namespace Synod
open JsonForm

namespace Json

/-- A member that can be put beside some others: its name is none of theirs, and its value is any
well-formed one. -/
structure Foreign (members : List (List UInt8 × Json)) (m : List UInt8 × Json) : Prop where
  key : IsInside m.1
  value : m.2.WellFormed
  name : ∃ name, text? m.1 = some name ∧ ∀ m' ∈ members, text? m'.1 ≠ some name

/-- At any depth, members may change their places, and foreign ones may be put in. -/
inductive Variant : Json → Json → Prop
  | null : Variant .null .null
  | bool (b : Bool) : Variant (.bool b) (.bool b)
  | number (lexeme : List UInt8) : Variant (.number lexeme) (.number lexeme)
  | string (raw : List UInt8) : Variant (.string raw) (.string raw)
  | array {items items'} (inner : List.Forall₂ Variant items items') :
      Variant (.array items) (.array items')
  | object {members values added members'} (inner : List.Forall₂ Variant (members.map (·.2)) values)
      (foreign : ∀ m ∈ added, Foreign members m)
      (order : members'.Perm ((members.map (·.1)).zip values ++ added)) :
      Variant (.object members) (.object members')

/-- Nothing else than null is a variant of null. -/
lemma Variant.ne_null {j j' : Json} (h : Variant j j') (hj : j ≠ .null) : j' ≠ .null := by
  cases h with
  | null => exact absurd rfl hj
  | _ => nofun

mutual

theorem Variant.refl : ∀ j : Json, Variant j j
  | .null => .null
  | .bool b => .bool b
  | .number lexeme => .number lexeme
  | .string raw => .string raw
  | .array items => .array (Variant.refl_items items)
  | .object members => by
    refine .object (Variant.refl_members members) (fun _ hm => absurd hm List.not_mem_nil) ?_
    rw [List.zip_map', List.append_nil]
    exact .of_eq (List.map_id' members).symm

theorem Variant.refl_items : ∀ items : List Json, List.Forall₂ Variant items items
  | [] => .nil
  | j :: rest => .cons (Variant.refl j) (Variant.refl_items rest)

theorem Variant.refl_members : ∀ members : List (List UInt8 × Json),
    List.Forall₂ Variant (members.map (·.2)) (members.map (·.2))
  | [] => .nil
  | (_, j) :: rest => .cons (Variant.refl j) (Variant.refl_members rest)

end

mutual

theorem WellFormed.variant : ∀ {j j' : Json}, j.WellFormed → Variant j j' → j'.WellFormed
  | .null, _, _, .null => .null
  | .bool _, _, _, .bool b => .bool b
  | .number _, _, h, .number _ | .string _, _, h, .string _ => h
  | .array _, _, .array h, .array hinner => .array (WellFormed.variant_items h hinner)
  | .object _, _, .object hkeys hvalues, .object hinner hforeign horder => by
    have hkept := WellFormed.variant_members hvalues hinner
    refine .object (fun m hm => ?_) (fun m hm => ?_)
    · rcases List.mem_append.mp (horder.mem_iff.mp hm) with hm | hm
      · obtain ⟨m', hm', heq⟩ := List.mem_map.mp (List.of_mem_zip hm).1
        exact heq ▸ hkeys m' hm'
      · exact (hforeign m hm).key
    · rcases List.mem_append.mp (horder.mem_iff.mp hm) with hm | hm
      · exact hkept m.2 (List.of_mem_zip hm).2
      · exact (hforeign m hm).value

theorem WellFormed.variant_items : ∀ {items items' : List Json}, (∀ j ∈ items, j.WellFormed) →
    List.Forall₂ Variant items items' → ∀ j ∈ items', j.WellFormed
  | [], _, _, .nil => fun _ hj => absurd hj List.not_mem_nil
  | j :: _, _, h, .cons hj hrest => by
    have hhead := WellFormed.variant (h j List.mem_cons_self) hj
    have htail := WellFormed.variant_items (fun i hi => h i (List.mem_cons_of_mem _ hi)) hrest
    exact List.forall_mem_cons.mpr ⟨hhead, htail⟩

theorem WellFormed.variant_members : ∀ {members : List (List UInt8 × Json)} {values : List Json},
    (∀ m ∈ members, m.2.WellFormed) → List.Forall₂ Variant (members.map (·.2)) values →
    ∀ j ∈ values, j.WellFormed
  | [], _, _, .nil => fun _ hj => absurd hj List.not_mem_nil
  | (_, j) :: _, _, h, .cons hj hrest => by
    have hhead := WellFormed.variant (h (_, j) List.mem_cons_self) hj
    have htail := WellFormed.variant_members (fun m hm => h m (List.mem_cons_of_mem _ hm)) hrest
    exact List.forall_mem_cons.mpr ⟨hhead, htail⟩

end

/-! ### The fields of a structure -/

lemma mapM_of_forall₂ {α β : Type} {f : α → Option β} {as : List α} {bs : List β}
    (h : List.Forall₂ (fun a b => f a = some b) as bs) : as.mapM f = some bs := by
  induction h with
  | nil => rfl
  | cons hab _ ih => simp [List.mapM_cons, hab, ih]

lemma mapM_of_mem {α β : Type} {f : α → Option β} {g : α → β} {as : List α}
    (h : ∀ a ∈ as, f a = some (g a)) : as.mapM f = some (as.map g) := by
  refine mapM_of_forall₂ ?_
  rw [List.forall₂_map_right_iff, List.forall₂_same]
  exact h

lemma filter_name {ps : List (String × Json)} (hnodup : (ps.map (·.1)).Nodup) {p : String × Json}
    (hp : p ∈ ps) : ps.filter (·.1 = p.1) = [p] := by
  induction ps with
  | nil => cases hp
  | cons q rest ih =>
    obtain ⟨hq, hrest⟩ := List.nodup_cons.mp hnodup
    rcases List.mem_cons.mp hp with rfl | hp
    · have hnone : rest.filter (·.1 = p.1) = [] := by
        rw [List.filter_eq_nil_iff]
        intro r hr heq
        exact hq (List.mem_map.mpr ⟨r, hr, of_decide_eq_true heq⟩)
      rw [List.filter_cons_of_pos (by simp), hnone]
    · have hne : q.1 ≠ p.1 := fun heq => hq (List.mem_map.mpr ⟨p, hp, heq.symm⟩)
      rw [List.filter_cons_of_neg (by simpa using hne), ih hrest hp]

/-- A member that no other one has the name of is found wherever it stands. -/
lemma only?_of_perm {members ps added : List (String × Json)} (horder : members.Perm (ps ++ added))
    (hnodup : (ps.map (·.1)).Nodup) {p : String × Json} (hp : p ∈ ps)
    (hadded : ∀ q ∈ added, q.1 ≠ p.1) : only? members p.1 = some (some p.2) := by
  have hfilter : (members.filter (·.1 = p.1)).Perm [p] := by
    have hperm := horder.filter (·.1 = p.1)
    have hnone : added.filter (·.1 = p.1) = [] := by simpa using hadded
    rwa [List.filter_append, filter_name hnodup hp, hnone, List.append_nil] at hperm
  simp [only?, List.perm_singleton.mp hfilter]

/-- A member with its name, the key being text. -/
def named (m : List UInt8 × Json) : String × Json := ((text? m.1).getD "", m.2)

lemma named_ofText (name : String) (j : Json) : named (ofText name, j) = (name, j) := by
  simp [named]

lemma namedMembers?_eq {members : List (List UInt8 × Json)}
    (h : ∀ m ∈ members, ∃ name, text? m.1 = some name) :
    namedMembers? members = some (members.map named) := by
  refine mapM_of_mem fun m hm => ?_
  obtain ⟨name, hname⟩ := h m hm
  simp [named, hname]

/-- A foreign member has a name, and none of the fields' names. -/
lemma Foreign.named_ne {members : List (List UInt8 × Json)} {m m' : List UInt8 × Json}
    (h : Foreign members m) (hm' : m' ∈ members) {name : String} (hname : text? m'.1 = some name) :
    (named m).1 ≠ name := by
  obtain ⟨own, hown, hother⟩ := h.name
  simp only [named, hown, Option.getD_some]
  rintro rfl
  exact hother m' hm' hname

/-- The fields of a structure are found in every variant of its form. -/
theorem fields?_of_variant (names : List String) (hnodup : names.Nodup) (short : Bool)
    {fields : List (String × Json)} (hfields : fields.map (·.1) = names) {j : Json}
    (h : Variant (ofFields fields) j) :
    ∃ values, List.Forall₂ Variant (fields.map (·.2)) values ∧
      fields? names short j = some (values.map some) := by
  subst hfields
  unfold ofFields at h
  cases h with
  | @object _ values added members' hinner hforeign horder =>
    simp only [List.map_map, Function.comp_def] at hinner horder
    have hlength : (fields.map (·.1)).length = values.length := by
      simpa using hinner.length_eq
    refine ⟨values, hinner, ?_⟩
    let ps : List (String × Json) := (fields.map (·.1)).zip values
    have hnames : ps.map (·.1) = fields.map (·.1) := List.map_fst_zip (Nat.le_of_eq hlength)
    have hvalues : ps.map (·.2) = values := List.map_snd_zip (Nat.le_of_eq hlength.symm)
    have hkept : (fields.map fun f => ofText f.1).zip values = ps.map fun p => (ofText p.1, p.2) := by
      simp only [ps, List.zip_map_left, List.map_map]
      rfl
    rw [hkept] at horder
    have htext : ∀ m ∈ members', ∃ name, text? m.1 = some name := by
      intro m hm
      rcases List.mem_append.mp (horder.mem_iff.mp hm) with hm | hm
      · obtain ⟨p, _, rfl⟩ := List.mem_map.mp hm
        exact ⟨p.1, text?_ofText p.1⟩
      · obtain ⟨name, hname, _⟩ := (hforeign m hm).name
        exact ⟨name, hname⟩
    have hperm : (members'.map named).Perm (ps ++ added.map named) := by
      simpa [Function.comp_def, named_ofText] using horder.map named
    have honly : ∀ p ∈ ps, only? (members'.map named) p.1 = some (some p.2) := by
      intro p hp
      refine only?_of_perm hperm (hnames ▸ hnodup) hp fun q hq => ?_
      obtain ⟨m, hm, rfl⟩ := List.mem_map.mp hq
      obtain ⟨f, hf, hfp⟩ := List.mem_map.mp (hnames ▸ List.mem_map_of_mem hp)
      rw [← hfp]
      exact (hforeign m hm).named_ne (List.mem_map_of_mem hf) (text?_ofText f.1)
    have hall : (ps.map (·.1)).mapM (only? (members'.map named)) = some (ps.map fun p => some p.2) := by
      refine mapM_of_forall₂ ?_
      rw [List.forall₂_map_left_iff, List.forall₂_map_right_iff, List.forall₂_same]
      exact honly
    rw [hnames] at hall
    simp only [fields?, namedMembers?_eq htext, Option.bind_eq_bind, Option.bind_some, hall]
    rw [← hvalues, List.map_map]
    rfl

end Json
end Synod
