import Synod.Config
import Synod.Proofs.Variants

/-!
# Forms that lose nothing

A form is lawful if what it writes is well-formed and every variant of it is read as the value
written. Numbers and texts are so because they have no variants but themselves, lists and optional
values if their items are, and structures because all of their fields are found in a variant. From a
lawful form follows what its texts owe: they are read back, however they are laid out.
-/
namespace Synod
open JsonForm

/-- A form whose variants are read as the value written. -/
class LawfulForm (α : Type) [JsonForm α] : Prop where
  wellFormed : ∀ a : α, (toJson a).WellFormed
  ofJson?_of_variant : ∀ {a : α} {j : Json}, Json.Variant (toJson a) j → ofJson? j = some a

namespace LawfulForm
open Json
variable {α : Type} [JsonForm α] [LawfulForm α]

lemma below?_of_variant {bound n : Nat} (hn : n < bound) {j : Json} (h : Variant (ofNat n) j) :
    j.below? bound = some n := by
  unfold ofNat at h
  cases h
  exact below?_ofNat hn

instance : LawfulForm UInt64 where
  wellFormed n := .number (isNumber_decimal n.toNat)
  ofJson?_of_variant {n j} h := by
    simp [JsonForm.ofJson?, below?_of_variant n.toNat_lt_size h]

instance : LawfulForm UInt32 where
  wellFormed n := .number (isNumber_decimal n.toNat)
  ofJson?_of_variant {n j} h := by
    simp [JsonForm.ofJson?, below?_of_variant n.toNat_lt_size h]

instance : LawfulForm UInt8 where
  wellFormed n := .number (isNumber_decimal n.toNat)
  ofJson?_of_variant {n j} h := by
    simp [JsonForm.ofJson?, below?_of_variant n.toNat_lt_size h]

instance : LawfulForm Bool where
  wellFormed b := .bool b
  ofJson?_of_variant {b j} h := by
    cases h
    rfl

instance : LawfulForm String where
  wellFormed s := .string (isInside_escape (Text.toBytes s))
  ofJson?_of_variant {s j} h := by
    cases h
    exact text?_ofText s

instance : LawfulForm (List α) where
  wellFormed as := by
    refine .array fun j hj => ?_
    obtain ⟨a, _, rfl⟩ := List.mem_map.mp hj
    exact wellFormed a
  ofJson?_of_variant {as j} h := by
    cases h with
    | array hinner =>
      rw [List.forall₂_map_left_iff] at hinner
      refine mapM_of_forall₂ ?_
      exact (hinner.imp fun _ _ h => ofJson?_of_variant h).flip

/-- A form in which nothing is written as null, so that null can stand for nothing. -/
class NeverNull (α : Type) [JsonForm α] : Prop where
  toJson_ne_null : ∀ a : α, toJson a ≠ .null

instance : NeverNull String := ⟨fun _ => nofun⟩

instance [NeverNull α] : LawfulForm (Option α) where
  wellFormed
    | none => .null
    | some a => wellFormed a
  ofJson?_of_variant {x j} h := by
    cases x with
    | none =>
      cases h
      rfl
    | some a =>
      have hread : ofJson? j = some a := ofJson?_of_variant h
      have hnull : j ≠ .null := h.ne_null (NeverNull.toJson_ne_null a)
      cases j with
      | null => exact absurd rfl hnull
      | _ => exact congrArg (Option.map some) hread

/-! ### Structures -/

lemma wellFormed_ofFields {fields : List (String × Json)} (h : ∀ f ∈ fields, f.2.WellFormed) :
    (ofFields fields).WellFormed := by
  refine .object (fun m hm => ?_) (fun m hm => ?_)
  · obtain ⟨f, _, rfl⟩ := List.mem_map.mp hm
    exact isInside_escape (Text.toBytes f.1)
  · obtain ⟨f, hf, rfl⟩ := List.mem_map.mp hm
    exact h f hf

lemma required?_of_variant {a : α} {j : Json} (h : Variant (toJson a) j) :
    required? (some j) = some a :=
  ofJson?_of_variant h

lemma orElse?_of_variant (missing : α) {a : α} {j : Json} (h : Variant (toJson a) j) :
    orElse? missing (some j) = some a :=
  ofJson?_of_variant h

instance : LawfulForm Slot where
  wellFormed s := wellFormed s.sequence
  ofJson?_of_variant {s j} h := by
    have hread : ofJson? j = some s.sequence := ofJson?_of_variant h
    exact congrArg (Option.map Slot.mk) hread

instance : NeverNull ProposalId := ⟨fun _ => nofun⟩

instance : LawfulForm ProposalId where
  wellFormed i := wellFormed_ofFields (by simp [wellFormed])
  ofJson?_of_variant {i j} h := by
    obtain ⟨_, hvalues, hfields⟩ :=
      fields?_of_variant ProposalId.fieldNames (by decide) false rfl h
    rcases hvalues with _ | ⟨hround, _ | ⟨htiebreaker, _ | _⟩⟩
    simp only [JsonForm.ofJson?, hfields]
    simp [required?_of_variant hround, required?_of_variant htiebreaker]

instance : NeverNull ProposalValue := ⟨fun _ => nofun⟩

instance : LawfulForm ProposalValue where
  wellFormed v := wellFormed_ofFields (by simp [wellFormed])
  ofJson?_of_variant {v j} h := by
    obtain ⟨_, hvalues, hfields⟩ :=
      fields?_of_variant ProposalValue.fieldNames (by decide) false rfl h
    rcases hvalues with _ | ⟨hid, _ | ⟨hslot, _ | ⟨hpayload, _ | _⟩⟩⟩
    simp only [JsonForm.ofJson?, hfields]
    simp [required?_of_variant hid, required?_of_variant hslot, required?_of_variant hpayload]

instance : LawfulForm Promise where
  wellFormed p := wellFormed_ofFields (by simp [wellFormed])
  ofJson?_of_variant {p j} h := by
    obtain ⟨_, hvalues, hfields⟩ :=
      fields?_of_variant Promise.fieldNames (by decide) false rfl h
    rcases hvalues with _ | ⟨haccepted, _ | ⟨hid, _ | ⟨hpriorId, _ | ⟨hpriorValue, _ | _⟩⟩⟩⟩
    simp only [JsonForm.ofJson?, hfields]
    simp [required?_of_variant haccepted, required?_of_variant hid,
      orElse?_of_variant none hpriorId, orElse?_of_variant none hpriorValue]

instance : LawfulForm Acceptance where
  wellFormed a := wellFormed_ofFields (by simp [wellFormed])
  ofJson?_of_variant {a j} h := by
    obtain ⟨_, hvalues, hfields⟩ :=
      fields?_of_variant Acceptance.fieldNames (by decide) false rfl h
    rcases hvalues with _ | ⟨haccepted, _ | ⟨hpromised, _ | _⟩⟩
    simp only [JsonForm.ofJson?, hfields]
    simp [required?_of_variant haccepted, required?_of_variant hpromised]

instance : LawfulForm AcceptorRecord where
  wellFormed r := wellFormed_ofFields (by simp [wellFormed])
  ofJson?_of_variant {r j} h := by
    obtain ⟨_, hvalues, hfields⟩ :=
      fields?_of_variant AcceptorRecord.fieldNames (by decide) false rfl h
    rcases hvalues with _ | ⟨hpromised, _ | ⟨haccepted, _ | _⟩⟩
    simp only [JsonForm.ofJson?, hfields]
    simp [required?_of_variant hpromised, orElse?_of_variant none haccepted]

instance : LawfulForm RetryPolicy where
  wellFormed p := wellFormed_ofFields (by simp [wellFormed])
  ofJson?_of_variant {p j} h := by
    obtain ⟨_, hvalues, hfields⟩ :=
      fields?_of_variant RetryPolicy.fieldNames (by decide) true rfl h
    rcases hvalues with _ | ⟨hattempts, _ | ⟨hinitial, _ | ⟨hmax, _ | _⟩⟩⟩
    simp only [JsonForm.ofJson?, hfields]
    simp [orElse?_of_variant _ hattempts, orElse?_of_variant _ hinitial, orElse?_of_variant _ hmax]

instance : NeverNull QuorumSettings := ⟨fun _ => nofun⟩

instance : LawfulForm QuorumSettings where
  wellFormed q := wellFormed_ofFields (by simp [wellFormed])
  ofJson?_of_variant {q j} h := by
    obtain ⟨_, hvalues, hfields⟩ :=
      fields?_of_variant QuorumSettings.fieldNames (by decide) false rfl h
    rcases hvalues with _ | ⟨hprepare, _ | ⟨haccept, _ | _⟩⟩
    simp only [JsonForm.ofJson?, hfields]
    simp [required?_of_variant hprepare, required?_of_variant haccept]

instance : LawfulForm Config where
  wellFormed c := wellFormed_ofFields (by simp [wellFormed])
  ofJson?_of_variant {c j} h := by
    obtain ⟨_, hvalues, hfields⟩ :=
      fields?_of_variant Config.fieldNames (by decide) true rfl h
    rcases hvalues with _ | ⟨hnodes, _ | ⟨hthresholds, _ | ⟨hrpc, _ | ⟨hping, _ | ⟨hfloor, _ |
      ⟨hretry, _ | ⟨hdir, _ | _⟩⟩⟩⟩⟩⟩⟩
    simp only [JsonForm.ofJson?, hfields]
    simp [orElse?_of_variant _ hnodes, orElse?_of_variant _ hthresholds, orElse?_of_variant _ hrpc,
      orElse?_of_variant _ hping, orElse?_of_variant _ hfloor, orElse?_of_variant _ hretry,
      orElse?_of_variant _ hdir]

end LawfulForm

/-! ### Texts -/

/-- What is written in a form is read back, compact or indented, and so is every text with the tokens
of a variant. Writing again what was read from a text changes nothing any more. -/
structure Lossless (α : Type) [JsonForm α] : Prop where
  compact : ∀ a : α, read? (compact a) = some a
  pretty : ∀ a : α, read? (pretty a) = some a
  relaxed : ∀ (a : α) {j : Json} {text : List UInt8}, Json.Variant (toJson a) j →
    Json.LaysOut j.tokens text → read? text = some a
  compact_again : ∀ {text text' : List UInt8},
    (read? text : Option α).map JsonForm.compact = some text' →
    (read? text' : Option α) = read? text ∧
      (read? text' : Option α).map JsonForm.compact = some text'
  pretty_again : ∀ {text text' : List UInt8},
    (read? text : Option α).map JsonForm.pretty = some text' →
    (read? text' : Option α) = read? text ∧
      (read? text' : Option α).map JsonForm.pretty = some text'

/-- Texts that are read back are settled once they are written anew. -/
lemma settled_of_read?_write {α : Type} [JsonForm α] {write : α → List UInt8}
    (hwrite : ∀ a, read? (write a) = some a) {text text' : List UInt8}
    (h : (read? text : Option α).map write = some text') :
    (read? text' : Option α) = read? text ∧ (read? text' : Option α).map write = some text' := by
  obtain ⟨a, ha, rfl⟩ := Option.map_eq_some_iff.mp h
  rw [hwrite, ha]
  exact ⟨rfl, rfl⟩

namespace LawfulForm
variable {α : Type} [JsonForm α] [LawfulForm α]

theorem read?_of_variant {a : α} {j : Json} {text : List UInt8} (h : Json.Variant (toJson a) j)
    (htext : Json.LaysOut j.tokens text) : read? text = some a := by
  have hread : Json.read? text = some j := Json.read?_of_laysOut ((wellFormed a).variant h) htext
  rw [read?, hread, Option.bind_some, ofJson?_of_variant h]

theorem lossless : Lossless α := by
  have hcompact : ∀ a : α, read? (compact a) = some a := fun a =>
    read?_of_variant (.refl _) (Json.laysOut_compact (toJson a))
  have hpretty : ∀ a : α, read? (pretty a) = some a := fun a =>
    read?_of_variant (.refl _) (Json.laysOut_pretty (toJson a))
  exact
    { compact := hcompact
      pretty := hpretty
      relaxed := fun _ _ _ h htext => read?_of_variant h htext
      compact_again := settled_of_read?_write hcompact
      pretty_again := settled_of_read?_write hpretty }

end LawfulForm

open Json

/-- All that is stored, sent and configured is read back as it was written. -/
theorem forms_lossless :
    Lossless Slot ∧ Lossless ProposalId ∧ Lossless ProposalValue ∧ Lossless Promise ∧
      Lossless Acceptance ∧ Lossless AcceptorRecord ∧ Lossless RetryPolicy ∧
      Lossless QuorumSettings ∧ Lossless Config :=
  ⟨LawfulForm.lossless, LawfulForm.lossless, LawfulForm.lossless, LawfulForm.lossless,
    LawfulForm.lossless, LawfulForm.lossless, LawfulForm.lossless, LawfulForm.lossless,
    LawfulForm.lossless⟩

/-- An id with its members in the other order, a foreign one between them, indented. -/
theorem forms_lossless_rearranged :
    (read? (ofFields [("tiebreaker", toJson "a"), ("later", .array [.null]),
      ("round", toJson (7 : UInt64))]).pretty : Option ProposalId) = some ⟨7, "a"⟩ := by
  have hforeign : Foreign [(ofText "round", toJson (7 : UInt64)), (ofText "tiebreaker", toJson "a")]
      (ofText "later", .array [.null]) :=
    { key := isInside_escape _
      value := .array (List.forall_mem_singleton.mpr .null)
      name := ⟨"later", text?_ofText "later", by simp⟩ }
  have hvariant : Variant (toJson (⟨7, "a"⟩ : ProposalId)) (ofFields [("tiebreaker", toJson "a"),
      ("later", .array [.null]), ("round", toJson (7 : UInt64))]) :=
    .object (Variant.refl_items [toJson (7 : UInt64), toJson "a"])
      (List.forall_mem_singleton.mpr hforeign) (List.perm_append_singleton _ [_, _])
  exact forms_lossless.2.1.relaxed ⟨7, "a"⟩ hvariant (laysOut_pretty _)

end Synod
