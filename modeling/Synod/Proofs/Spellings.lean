import Mathlib.Tactic.Lemma
import Synod.Json.Form
import Synod.Proofs.Layout

/-!
# Numbers and texts read back

Natural numbers and texts are written as the grammar has it, and what is written is read back.
Numbers lose their last digit at each step of the recursion, and texts go byte by byte.
-/
namespace Synod

namespace Numeral

lemma toNat_digit (n : Nat) : (digit n).toNat = 48 + n % 10 := by
  rw [digit, UInt8.toNat_ofNat']
  omega

lemma isDigit_digit (n : Nat) : isDigit (digit n) := by
  simp only [isDigit, decide_eq_true_eq, UInt8.le_iff_toNat_le, toNat_digit, UInt8.reduceToNat]
  omega

lemma isDigit_of_mem_digits (fuel n : Nat) : ∀ b ∈ digits fuel n, isDigit b := by
  induction fuel generalizing n with
  | zero => simp [digits]
  | succ fuel ih =>
    have hlast := isDigit_digit n
    have hmore := ih (n / 10)
    unfold digits
    split
    · simpa using hlast
    · intro b hb
      rcases List.mem_append.mp hb with hb | hb
      · exact hmore b hb
      · rwa [List.mem_singleton.mp hb]

lemma ofDigits_append_digit (bs : List UInt8) (n : Nat) :
    ofDigits (bs ++ [digit n]) = ofDigits bs * 10 + n % 10 := by
  simp only [ofDigits, List.foldl_append, List.foldl_cons, List.foldl_nil, toNat_digit]
  omega

lemma ofDigits_digits {fuel n : Nat} (h : n < fuel) : ofDigits (digits fuel n) = n := by
  induction fuel generalizing n with
  | zero => exact absurd h (Nat.not_lt_zero n)
  | succ fuel ih =>
    unfold digits
    split
    · have hone := ofDigits_append_digit [] n
      simp only [List.nil_append] at hone
      rw [hone]
      simp only [ofDigits, List.foldl_nil]
      omega
    · have hless : n / 10 < fuel := by omega
      rw [ofDigits_append_digit, ih hless]
      omega

/-- A number that is not zero does not begin with a zero. -/
lemma head?_digits {fuel n : Nat} (h : n < fuel) (hn : n ≠ 0) :
    ∃ d, (digits fuel n).head? = some d ∧ d ≠ 48 := by
  induction fuel generalizing n with
  | zero => exact absurd h (Nat.not_lt_zero n)
  | succ fuel ih =>
    unfold digits
    split
    · refine ⟨digit n, rfl, fun heq => ?_⟩
      have hvalue := toNat_digit n
      rw [heq] at hvalue
      simp only [UInt8.reduceToNat] at hvalue
      omega
    · obtain ⟨d, hd, hne⟩ := ih (n := n / 10) (by omega) (by omega)
      exact ⟨d, by simp [List.head?_append, hd], hne⟩

@[simp] theorem ofDigits_decimal (n : Nat) : ofDigits (decimal n) = n :=
  ofDigits_digits (Nat.lt_succ_self n)

lemma isDigit_of_mem_decimal (n : Nat) : ∀ b ∈ decimal n, isDigit b := isDigit_of_mem_digits (n + 1) n

end Numeral

namespace Json
open Numeral

lemma isWhole_decimal (n : Nat) : IsWhole (decimal n) := by
  have hdigits := isDigit_of_mem_decimal n
  by_cases hn : n = 0
  · subst hn
    exact ⟨⟨by decide, hdigits⟩, fun _ => rfl⟩
  · obtain ⟨d, hd, hne⟩ := head?_digits (Nat.lt_succ_self n) hn
    have hhead : (decimal n).head? = some d := hd
    refine ⟨⟨fun hnil => ?_, hdigits⟩, fun hzero => ?_⟩
    · rw [hnil] at hhead
      cases hhead
    · rw [hhead] at hzero
      exact absurd (Option.some.inj hzero) hne

/-- A natural number is written without sign, point and exponent. -/
theorem isNumber_decimal (n : Nat) : IsNumber (decimal n) :=
  ⟨[], decimal n, [], [], by simp, .inl rfl, isWhole_decimal n, .inl rfl, .inl rfl⟩

@[simp] theorem natural?_ofNat (n : Nat) : (ofNat n).natural? = some n := by
  have hdigits : (decimal n).all isDigit := List.all_eq_true.mpr (isDigit_of_mem_decimal n)
  simp [natural?, ofNat, hdigits]

theorem below?_ofNat {bound n : Nat} (h : n < bound) : (ofNat n).below? bound = some n := by
  simp [below?, h]

/-! ### Texts -/

lemma isHex_hexDigit (n : Nat) : isHex (hexDigit n) := by
  have h : ∀ m : Fin 16, isHex (hexDigit m) := by decide
  have hn := h ⟨n % 16, Nat.mod_lt n (by decide)⟩
  simpa [hexDigit] using hn

/-- Control characters are escaped by letters or by digits, quotes and backslashes by themselves. -/
lemma isInside_escapeByte (b : UInt8) : IsInside (escapeByte b) := by
  unfold escapeByte
  split_ifs with hquote hbackslash _ _ _ _ _ hcontrol
  · exact .escaped (by decide) .nil
  · exact .escaped (by decide) .nil
  · exact .escaped (by decide) .nil
  · exact .escaped (by decide) .nil
  · exact .escaped (by decide) .nil
  · exact .escaped (by decide) .nil
  · exact .escaped (by decide) .nil
  · exact .unicode (by decide) (by decide) (isHex_hexDigit _) (isHex_hexDigit _) .nil
  · exact .plain (UInt8.not_lt.mp hcontrol) hquote hbackslash .nil

theorem isInside_escape (bytes : List UInt8) : IsInside (escape bytes) := by
  induction bytes with
  | nil => exact .nil
  | cons b rest ih => exact (isInside_escapeByte b).append ih

lemma unescapeFrom_plain {b : UInt8} (h : b ≠ 92) (rest : List UInt8) :
    unescapeFrom none (b :: rest) = (unescapeFrom none rest).map (b :: ·) := by
  rw [unescapeFrom]
  · intro _ _ _ _ _ hb _
    exact h hb
  · intro _ _ hb _
    exact h hb

lemma unescapeFrom_letter {b : UInt8} (h : b ≠ 117) (rest : List UInt8) :
    unescapeFrom none (92 :: b :: rest) = (unescapeFrom none rest).map (unescapeLetter b :: ·) := by
  rw [unescapeFrom]
  intro _ _ _ _ _ hb _
  exact h hb

/-- A control character by its number. -/
lemma unescapeFrom_control {b : UInt8} (h : b < 32) (rest : List UInt8) :
    unescapeFrom none (92 :: 117 :: 48 :: 48 :: hexDigit (b.toNat / 16) :: hexDigit b.toNat :: rest) =
      (unescapeFrom none rest).map (b :: ·) := by
  have hnumber : ∀ n : Fin 32, hexValue4 48 48 (hexDigit (n / 16)) (hexDigit n) = n := by decide
  have hbytes : ∀ n : Fin 32, charBytes n = [UInt8.ofNat n] := by decide
  have hlt : b.toNat < 32 := UInt8.lt_iff_toNat_lt.mp h
  have hunit := hnumber ⟨b.toNat, hlt⟩
  have hchar := hbytes ⟨b.toNat, hlt⟩
  dsimp only at hunit hchar
  rw [UInt8.ofNat_toNat] at hchar
  rw [unescapeFrom]
  simp only [hunit, hchar]
  rw [if_neg (by omega), if_neg (by omega)]
  rfl

lemma unescapeFrom_escapeByte (b : UInt8) (rest : List UInt8) :
    unescapeFrom none (escapeByte b ++ rest) = (unescapeFrom none rest).map (b :: ·) := by
  unfold escapeByte
  split_ifs with hquote hbackslash hback htab hline hform hreturn hcontrol
  · subst hquote
    exact unescapeFrom_letter (b := 34) (by decide) rest
  · subst hbackslash
    exact unescapeFrom_letter (b := 92) (by decide) rest
  · subst hback
    exact unescapeFrom_letter (b := 98) (by decide) rest
  · subst htab
    exact unescapeFrom_letter (b := 116) (by decide) rest
  · subst hline
    exact unescapeFrom_letter (b := 110) (by decide) rest
  · subst hform
    exact unescapeFrom_letter (b := 102) (by decide) rest
  · subst hreturn
    exact unescapeFrom_letter (b := 114) (by decide) rest
  · exact unescapeFrom_control hcontrol rest
  · exact unescapeFrom_plain hbackslash rest

theorem unescape_escape (bytes : List UInt8) : unescape (escape bytes) = some bytes := by
  rw [unescape]
  induction bytes with
  | nil => simp [escape, unescapeFrom]
  | cons b rest ih =>
    have hsplit : escape (b :: rest) = escapeByte b ++ escape rest := rfl
    rw [hsplit, unescapeFrom_escapeByte, ih, Option.map_some]

/-- A text is read back from the inside of its string. -/
@[simp] theorem text?_ofText (s : String) : text? (ofText s) = some s := by
  simp [text?, ofText, unescape_escape]

end Json
end Synod
