/-!
# Numerals

Numbers as bytes and as decimal text. `padded` has a fixed width, as file names need it, and
`decimal` has no leading zero; `bigEndian` is the fixed-width binary form. Each has its reader.
-/
namespace Synod.Numeral

/-- The character of one decimal digit, as a byte. -/
def digit (n : Nat) : UInt8 := UInt8.ofNat (48 + n % 10)

/-- The last `width` decimal digits. -/
def padded : (width : Nat) → Nat → List UInt8
  | 0, _ => []
  | width + 1, n => padded width (n / 10) ++ [digit n]

/-- Decimal digits without leading zeros, at most `fuel` of them. -/
def digits : (fuel : Nat) → Nat → List UInt8
  | 0, _ => []
  | fuel + 1, n => if n < 10 then [digit n] else digits fuel (n / 10) ++ [digit n]

def decimal (n : Nat) : List UInt8 := digits (n + 1) n

def isDigit (b : UInt8) : Bool := decide (48 ≤ b ∧ b ≤ 57)

/-- The number that decimal digits write. -/
def ofDigits (bs : List UInt8) : Nat := bs.foldl (fun n b => n * 10 + (b.toNat - 48)) 0

/-- The word that decimal digits write, which a plus sign may precede. -/
def word? (text : List Char) : Option UInt64 :=
  let digits := match text with
    | '+' :: rest => rest
    | _ => text
  if digits ≠ [] ∧ digits.all Char.isDigit then
    let n := digits.foldl (fun n c => n * 10 + (c.toNat - 48)) 0
    if n < UInt64.size then some (UInt64.ofNat n) else none
  else none

/-- The last `width` bytes of a number, most significant first. -/
def bigEndian : (width : Nat) → Nat → List UInt8
  | 0, _ => []
  | width + 1, n => bigEndian width (n / 256) ++ [UInt8.ofNat n]

def ofBigEndian (bs : List UInt8) : Nat := bs.foldl (fun n b => n * 256 + b.toNat) 0

@[simp] theorem length_bigEndian (width n : Nat) : (bigEndian width n).length = width := by
  induction width generalizing n with
  | zero => rfl
  | succ w ih => simp [bigEndian, ih]

@[simp] theorem length_padded (width n : Nat) : (padded width n).length = width := by
  induction width generalizing n with
  | zero => rfl
  | succ w ih => simp [padded, ih]

theorem ofBigEndian_bigEndian (width n : Nat) (h : n < Nat.pow 256 width) :
    ofBigEndian (bigEndian width n) = n := by
  induction width generalizing n with
  | zero =>
    have : n = 0 := Nat.lt_one_iff.mp h
    simp [bigEndian, ofBigEndian, this]
  | succ w ih =>
    have hn : n / 256 < Nat.pow 256 w := Nat.div_lt_of_lt_mul (Nat.mul_comm .. ▸ h)
    have := ih (n / 256) hn
    simp only [ofBigEndian] at this
    simp only [bigEndian, ofBigEndian, List.foldl_append, List.foldl_cons, List.foldl_nil, this,
      UInt8.toNat_ofNat']
    omega

end Synod.Numeral
