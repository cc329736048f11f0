/-!
# Words

Rounds, slots, timestamps, thresholds and pauses are 64-bit words. A sum or a product that
leaves the words is an outcome of its own, never a wrapped number: `Word.add` and `Word.mul`
answer `Overflow`, and `Word.saturatingMul` stops at the last word.
-/
namespace Synod

/-- The operation whose exact result is no word. -/
inductive Overflow
  | add
  | multiply
  deriving DecidableEq, Repr

def Overflow.message : Overflow → String
  | .add => "attempt to add with overflow"
  | .multiply => "attempt to multiply with overflow"

namespace Word

/-- The last word. -/
def last : UInt64 := 0xFFFFFFFFFFFFFFFF

@[simp] theorem toNat_last : last.toNat = UInt64.size - 1 := rfl

def add (a b : UInt64) : Except Overflow UInt64 :=
  if a.toNat + b.toNat < UInt64.size then .ok (a + b) else .error .add

def mul (a b : UInt64) : Except Overflow UInt64 :=
  if a.toNat * b.toNat < UInt64.size then .ok (a * b) else .error .multiply

/-- The successor, absent after the last word. -/
def next? (a : UInt64) : Option UInt64 :=
  if a = last then none else some (a + 1)

def saturatingMul (a b : UInt64) : UInt64 :=
  if a.toNat * b.toNat < UInt64.size then a * b else last

theorem toNat_of_add_eq_ok {a b c : UInt64} (h : add a b = .ok c) :
    c.toNat = a.toNat + b.toNat := by
  unfold add at h
  split at h
  · cases h
    rw [UInt64.toNat_add, Nat.mod_eq_of_lt (by assumption)]
  · cases h

theorem toNat_of_mul_eq_ok {a b c : UInt64} (h : mul a b = .ok c) :
    c.toNat = a.toNat * b.toNat := by
  unfold mul at h
  split at h
  · cases h
    rw [UInt64.toNat_mul, Nat.mod_eq_of_lt (by assumption)]
  · cases h

theorem le_of_add_eq_error {a b : UInt64} {o : Overflow} (h : add a b = .error o) :
    UInt64.size ≤ a.toNat + b.toNat := by
  unfold add at h
  split at h
  · cases h
  · exact Nat.le_of_not_lt (by assumption)

theorem le_of_mul_eq_error {a b : UInt64} {o : Overflow} (h : mul a b = .error o) :
    UInt64.size ≤ a.toNat * b.toNat := by
  unfold mul at h
  split at h
  · cases h
  · exact Nat.le_of_not_lt (by assumption)

theorem toNat_max (a b : UInt64) : (max a b).toNat = max a.toNat b.toNat := by
  change (if a ≤ b then b else a).toNat = max a.toNat b.toNat
  split
  · rename_i h
    exact (Nat.max_eq_right (UInt64.le_iff_toNat_le.mp h)).symm
  · rename_i h
    exact (Nat.max_eq_left (Nat.le_of_lt (UInt64.lt_iff_toNat_lt.mp (UInt64.not_le.mp h)))).symm

theorem toNat_min (a b : UInt64) : (min a b).toNat = min a.toNat b.toNat := by
  change (if a ≤ b then a else b).toNat = min a.toNat b.toNat
  split
  · rename_i h
    exact (Nat.min_eq_left (UInt64.le_iff_toNat_le.mp h)).symm
  · rename_i h
    exact (Nat.min_eq_right (Nat.le_of_lt (UInt64.lt_iff_toNat_lt.mp (UInt64.not_le.mp h)))).symm

theorem toNat_saturatingMul (a b : UInt64) :
    (saturatingMul a b).toNat = min (a.toNat * b.toNat) (UInt64.size - 1) := by
  unfold saturatingMul
  have hsize : UInt64.size = 18446744073709551616 := rfl
  split
  · rw [UInt64.toNat_mul]
    omega
  · rw [toNat_last]
    omega

theorem eq_last_iff {a : UInt64} : a = last ↔ a.toNat = UInt64.size - 1 := by
  rw [← UInt64.toNat_inj, toNat_last]

theorem next?_eq_some_iff {a b : UInt64} : next? a = some b ↔ b.toNat = a.toNat + 1 := by
  have ha := a.toNat_lt
  have hb := b.toNat_lt
  have hsize : UInt64.size = 18446744073709551616 := rfl
  unfold next?
  split
  · rename_i h
    rw [eq_last_iff] at h
    simp only [reduceCtorEq, false_iff]
    omega
  · rename_i h
    rw [eq_last_iff] at h
    rw [Option.some_inj, ← UInt64.toNat_inj, UInt64.toNat_add, UInt64.toNat_one]
    omega

end Word
end Synod
