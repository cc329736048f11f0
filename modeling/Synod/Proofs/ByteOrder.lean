import Mathlib.Tactic.Lemma
import Mathlib.Tactic.SplitIfs
import Synod.Text.Utf8

/-!
# The order of bytes

Texts are compared character by character. Their bytes compare in the same way: of two characters the
later one has no fewer bytes, and the first byte that differs is the greater one.
-/
namespace Synod.Text

/-- Bytes compare as the numbers that they are, and decide before what follows them. -/
lemma ofNat_cons_lt_iff {m n : Nat} (hm : m < 256) (hn : n < 256) {bytes bytes' : List UInt8} :
    UInt8.ofNat m :: bytes < UInt8.ofNat n :: bytes' ↔ m < n ∨ m = n ∧ bytes < bytes' := by
  rw [List.cons_lt_cons_iff, UInt8.ofNat_lt_iff_lt hm hn, ← UInt8.toNat_inj,
    UInt8.toNat_ofNat_of_lt' hm, UInt8.toNat_ofNat_of_lt' hn]

/-- Of two numbers the greater one has the greater quotient, or else the greater remainder. -/
lemma div_lt_or (k : Nat) {m n : Nat} (h : m < n) :
    m / k < n / k ∨ m / k = n / k ∧ m % k < n % k := by
  rcases Nat.lt_or_eq_of_le (Nat.div_le_div_right (c := k) (Nat.le_of_lt h)) with hlt | heq
  · exact .inl hlt
  · refine .inr ⟨heq, ?_⟩
    have hm := Nat.div_add_mod m k
    have hn := Nat.div_add_mod n k
    rw [heq] at hm
    omega

/-- Digits to the base 64 compare one by one, the highest first, and it does not come to the rest. -/
lemma digits_lt_or {m n : Nat} (h : m < n) (hn : n < 2097152) (rest : Prop) :
    m / 262144 % 8 < n / 262144 % 8 ∨ m / 262144 % 8 = n / 262144 % 8 ∧
      (m / 4096 % 64 < n / 4096 % 64 ∨ m / 4096 % 64 = n / 4096 % 64 ∧
        (m / 64 % 64 < n / 64 % 64 ∨ m / 64 % 64 = n / 64 % 64 ∧
          (m % 64 < n % 64 ∨ m % 64 = n % 64 ∧ rest))) := by
  rcases div_lt_or 262144 h with hfirst | ⟨hfirst, h⟩
  · exact .inl (by omega)
  refine .inr ⟨by omega, ?_⟩
  rcases div_lt_or 4096 h with hsecond | ⟨hsecond, h⟩
  · exact .inl (by omega)
  refine .inr ⟨by omega, ?_⟩
  rcases div_lt_or 64 h with hthird | ⟨hthird, h⟩
  · exact .inl (by omega)
  · exact .inr ⟨by omega, .inl (by omega)⟩

/-- The bytes of two characters decide, whatever follows them. -/
lemma utf8EncodeChar_append_lt {c d : Char} (h : c < d) (bytes bytes' : List UInt8) :
    String.utf8EncodeChar c ++ bytes < String.utf8EncodeChar d ++ bytes' := by
  have hlt : c.val.toNat < d.val.toNat := UInt32.lt_iff_toNat_lt.mp (Char.lt_def.mp h)
  have hd : d.val.toNat < 1114112 := by
    have hvalid := d.valid
    simp only [UInt32.isValidChar, Nat.isValidChar] at hvalid
    omega
  unfold String.utf8EncodeChar
  dsimp only
  generalize c.val.toNat = m at *
  generalize d.val.toNat = n at *
  -- one case for each two lengths; the earlier character cannot have the greater one
  split_ifs <;> try omega
  all_goals
    simp (disch := omega) only [List.cons_append, List.nil_append, ofNat_cons_lt_iff,
      Nat.add_lt_add_iff_right, Nat.add_right_cancel_iff]
  rotate_right
  · exact digits_lt_or hlt (Nat.lt_trans hd (by decide)) _
  all_goals omega

lemma flatMap_utf8EncodeChar_lt {cs ds : List Char} (h : cs < ds) :
    cs.flatMap String.utf8EncodeChar < ds.flatMap String.utf8EncodeChar := by
  induction h with
  | @nil d ds =>
    obtain ⟨b, rest, hb⟩ := List.exists_cons_of_ne_nil (String.utf8EncodeChar_ne_nil (c := d))
    rw [List.flatMap_nil, List.flatMap_cons, hb]
    exact List.nil_lt_cons ..
  | rel h => exact utf8EncodeChar_append_lt h _ _
  | cons _ ih => exact List.append_left_lt ih

lemma toBytes_lt {s t : String} (h : s < t) : toBytes s < toBytes t := by
  rw [← String.ofList_toList (s := s), ← String.ofList_toList (s := t), toBytes_ofList, toBytes_ofList]
  exact flatMap_utf8EncodeChar_lt (String.lt_iff.mp h)

/-- Texts compare as their bytes do. -/
theorem toBytes_lt_iff {s t : String} : toBytes s < toBytes t ↔ s < t := by
  refine ⟨fun h => ?_, toBytes_lt⟩
  by_cases hst : s < t
  · exact hst
  by_cases hts : t < s
  · exact absurd (toBytes_lt hts) (List.lt_asymm h)
  · rw [String.le_antisymm hts hst] at h
    exact absurd h (List.lt_irrefl _)

end Synod.Text
