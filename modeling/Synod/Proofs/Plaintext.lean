import Synod.Proofs.Spellings

/-!
# What is written is text

A file is read only if its bytes are text. Bytes below 128 are text, and escaping a text leaves text:
it only replaces such bytes, since all bytes of other characters lie above them. So a layout is text
if its strings are those of texts and its numbers are written with digits.
-/
namespace Synod

namespace Text

/-- The bytes of some text. -/
def IsText (bytes : List UInt8) : Prop := ∃ s, toBytes s = bytes

lemma IsText.ofBytes? {bytes : List UInt8} (h : IsText bytes) : ∃ s, ofBytes? bytes = some s := by
  obtain ⟨s, rfl⟩ := h
  exact ⟨s, ofBytes?_toBytes s⟩

lemma IsText.nil : IsText [] := ⟨"", rfl⟩

lemma IsText.append {bytes bytes' : List UInt8} (h : IsText bytes) (h' : IsText bytes') :
    IsText (bytes ++ bytes') := by
  obtain ⟨s, rfl⟩ := h
  obtain ⟨s', rfl⟩ := h'
  exact ⟨s ++ s', by simp [toBytes]⟩

lemma IsText.flatMap {α : Type} {f : α → List UInt8} {as : List α} (h : ∀ a ∈ as, IsText (f a)) :
    IsText (as.flatMap f) := by
  induction as with
  | nil => exact .nil
  | cons a rest ih =>
    have hrest := ih fun b hb => h b (List.mem_cons_of_mem _ hb)
    exact (h a List.mem_cons_self).append hrest

lemma isText_char (c : Char) : IsText (String.utf8EncodeChar c) :=
  ⟨String.ofList [c], (toBytes_ofList [c]).trans (List.flatMap_singleton ..)⟩

lemma isText_of_ascii {bytes : List UInt8} (h : bytes.all (· < 128)) : IsText bytes := by
  have hone : ∀ n : Fin 128, toBytes (String.singleton (Char.ofNat n)) = [UInt8.ofNat n] := by decide
  have hbyte : ∀ b ∈ bytes, IsText [b] := fun b hb => by
    have hlt : b < 128 := by simpa using List.all_eq_true.mp h b hb
    have hb' := hone ⟨b.toNat, UInt8.lt_iff_toNat_lt.mp hlt⟩
    rw [UInt8.ofNat_toNat] at hb'
    exact ⟨_, hb'⟩
  simpa using IsText.flatMap hbyte

/-- A character is one byte below 128, or all of its bytes are not below. -/
lemma utf8EncodeChar_cases (c : Char) :
    (∃ b, b < 128 ∧ String.utf8EncodeChar c = [b]) ∨ ∀ b ∈ String.utf8EncodeChar c, 128 ≤ b := by
  have hhigh : ∀ n, 128 ≤ n → n < 256 → 128 ≤ UInt8.ofNat n := fun n hle hlt => by
    rw [UInt8.le_iff_toNat_le, UInt8.toNat_ofNat_of_lt' hlt]
    exact hle
  unfold String.utf8EncodeChar
  dsimp only
  split_ifs with hone _ _
  · refine .inl ⟨_, ?_, rfl⟩
    rw [UInt8.lt_iff_toNat_lt, UInt8.toNat_ofNat_of_lt' (Nat.lt_of_le_of_lt hone (by decide))]
    exact Nat.lt_succ_of_le hone
  all_goals
    right
    simp only [List.forall_mem_cons, List.not_mem_nil, false_implies, implies_true, and_true]
    and_intros <;> exact hhigh _ (by omega) (by omega)

end Text

namespace Json
open Text

lemma ascii_escapeByte {b : UInt8} (h : b < 128) : (escapeByte b).all (· < 128) := by
  have hall : ∀ n : Fin 128, (escapeByte (UInt8.ofNat n)).all (· < 128) := by decide
  have hb := hall ⟨b.toNat, UInt8.lt_iff_toNat_lt.mp h⟩
  rwa [UInt8.ofNat_toNat] at hb

lemma escapeByte_of_le {b : UInt8} (h : 128 ≤ b) : escapeByte b = [b] := by
  have hne : ∀ b' : UInt8, b' < 128 → b ≠ b' := fun b' hb' heq =>
    UInt8.not_le.mpr hb' (heq ▸ h)
  have hcontrol : ¬b < 32 := fun hb => UInt8.not_le.mpr (UInt8.lt_trans hb (by decide)) h
  simp [escapeByte, hne, hcontrol]

/-- Only characters of one byte are escaped. -/
lemma isText_escape_char (c : Char) : IsText (escape (String.utf8EncodeChar c)) := by
  rcases utf8EncodeChar_cases c with ⟨b, hb, heq⟩ | hhigh
  · rw [heq]
    have hsingle : escape [b] = escapeByte b := List.flatMap_singleton ..
    exact isText_of_ascii (hsingle ▸ ascii_escapeByte hb)
  · have hsame : ∀ bytes : List UInt8, (∀ b ∈ bytes, 128 ≤ b) → escape bytes = bytes := by
      intro bytes hbytes
      induction bytes with
      | nil => rfl
      | cons b rest ih =>
        have hsplit : escape (b :: rest) = escapeByte b ++ escape rest := rfl
        rw [hsplit, escapeByte_of_le (hbytes b List.mem_cons_self),
          ih fun b' hb' => hbytes b' (List.mem_cons_of_mem _ hb'), List.singleton_append]
    rw [hsame _ hhigh]
    exact isText_char c

theorem isText_ofText (s : String) : IsText (ofText s) := by
  have hs : Text.toBytes s = s.toList.flatMap String.utf8EncodeChar := by
    rw [← toBytes_ofList, String.ofList_toList]
  rw [ofText, hs, escape, List.flatMap_assoc]
  exact .flatMap fun c _ => isText_escape_char c

/-! ### Layouts that are text -/

lemma isText_blanks {blanks : List UInt8} (h : ∀ b ∈ blanks, isBlank b) : IsText blanks := by
  refine isText_of_ascii (List.all_eq_true.mpr fun b hb => ?_)
  have hblank := h b hb
  simp only [isBlank, Bool.or_eq_true, beq_iff_eq] at hblank
  rcases hblank with ((rfl | rfl) | rfl) | rfl <;> decide

lemma isText_of_laysOut {ts : List Token} {text : List UInt8} (h : LaysOut ts text)
    (hts : ∀ t ∈ ts, IsText t.spell) : IsText text := by
  induction h with
  | nil hblank => exact isText_blanks hblank
  | @cons blanks t ts text hblank _ ih =>
    have hrest := ih fun t' ht' => hts t' (List.mem_cons_of_mem _ ht')
    exact ((isText_blanks hblank).append (hts t List.mem_cons_self)).append hrest

/-- All tokens of a value are text. -/
def Textual (j : Json) : Prop := ∀ t ∈ j.tokens, IsText t.spell

lemma textual_null : Textual .null := by
  intro t ht
  obtain rfl := List.mem_singleton.mp ht
  exact isText_of_ascii (by decide)

lemma textual_ofNat (n : Nat) : Textual (ofNat n) := by
  intro t ht
  obtain rfl := List.mem_singleton.mp ht
  refine isText_of_ascii (List.all_eq_true.mpr fun b hb => ?_)
  have hdigit := Numeral.isDigit_of_mem_decimal n b hb
  simp only [Numeral.isDigit, decide_eq_true_eq] at hdigit ⊢
  exact UInt8.lt_of_le_of_lt hdigit.2 (by decide)

lemma isText_spell_string {raw : List UInt8} (h : IsText raw) :
    IsText (Token.spell (.string raw)) := by
  have hquote : IsText [34] := isText_of_ascii (by decide)
  exact (hquote.append h).append hquote

lemma textual_string (s : String) : Textual (.string (ofText s)) := by
  intro t ht
  obtain rfl := List.mem_singleton.mp ht
  exact isText_spell_string (isText_ofText s)

lemma isText_key {raw : List UInt8} (h : IsText raw) :
    ∀ t ∈ [Token.string raw, .colon], IsText t.spell := by
  simp only [List.forall_mem_cons, List.not_mem_nil, false_implies, implies_true, and_true]
  exact ⟨isText_spell_string h, isText_of_ascii (by decide)⟩

lemma textual_moreMembers {members : List (List UInt8 × Json)}
    (h : ∀ m ∈ members, IsText m.1 ∧ m.2.Textual) : ∀ t ∈ moreMembers members, IsText t.spell := by
  induction members with
  | nil =>
    intro t ht
    obtain rfl := List.mem_singleton.mp ht
    exact isText_of_ascii (by decide)
  | cons m rest ih =>
    obtain ⟨key, j⟩ := m
    obtain ⟨⟨hkey, hj⟩, hrest⟩ := List.forall_mem_cons.mp h
    have hcomma : IsText Token.comma.spell := isText_of_ascii (by decide)
    have hmember := List.forall_mem_append.mpr ⟨isText_key hkey, hj⟩
    exact List.forall_mem_cons.mpr
      ⟨hcomma, List.forall_mem_append.mpr ⟨hmember, ih hrest⟩⟩

lemma textual_object {members : List (List UInt8 × Json)}
    (h : ∀ m ∈ members, IsText m.1 ∧ m.2.Textual) : Textual (.object members) := by
  have hbrace : IsText Token.leftBrace.spell := isText_of_ascii (by decide)
  cases members with
  | nil => exact List.forall_mem_cons.mpr ⟨hbrace, textual_moreMembers h⟩
  | cons m rest =>
    obtain ⟨key, j⟩ := m
    obtain ⟨⟨hkey, hj⟩, hrest⟩ := List.forall_mem_cons.mp h
    have hmember := List.forall_mem_append.mpr ⟨isText_key hkey, hj⟩
    exact List.forall_mem_cons.mpr
      ⟨hbrace, List.forall_mem_append.mpr ⟨hmember, textual_moreMembers hrest⟩⟩

end Json
end Synod
