import Mathlib.Algebra.Group.Nat.Defs

/-!
# Sums and differences of machine words

The exact value of a sum or a difference of two 64-bit words: a sum that fits is the sum of
the numbers, a difference that is not negative is their difference, and one that is
negative has wrapped once.
-/

set_option autoImplicit false

namespace MmapShield.Computation

variable {a b c : UInt64}

/-- INTERNAL: a sum that fits does not wrap. -/
theorem toNat_add_of_fits (h : a.toNat + b.toNat < 2 ^ 64) :
    (a + b).toNat = a.toNat + b.toNat := by
  rw [UInt64.toNat_add]
  exact Nat.mod_eq_of_lt h

/-- INTERNAL: a sum that is not above a word as a number is not above it as a word. -/
theorem add_le_of_fits (h : a.toNat + b.toNat ≤ c.toNat) : a + b ≤ c := by
  have hc := UInt64.toNat_lt c
  rw [UInt64.le_iff_toNat_le, toNat_add_of_fits (by omega)]
  exact h

/-- INTERNAL: one stride further, in the arithmetic of words. -/
theorem add_mul_succ (a b : UInt64) (k : ℕ) :
    a + UInt64.ofNat k * b + b = a + UInt64.ofNat (k + 1) * b := by
  have hsucc : UInt64.ofNat (k + 1) = UInt64.ofNat k + 1 := by
    rw [UInt64.ofNat_add]
    rfl
  rw [hsucc, UInt64.add_mul, UInt64.one_mul, UInt64.add_assoc]

/-- INTERNAL: a word that divides one that is not null is not above it. -/
theorem toNat_le_of_dvd (hdvd : a.toNat ∣ b.toNat) (hb : b ≠ 0) : a.toNat ≤ b.toNat := by
  apply Nat.le_of_dvd _ hdvd
  apply Nat.pos_of_ne_zero
  intro hzero
  exact hb (UInt64.toNat_inj.mp hzero)

/-- INTERNAL: the difference of a word and one that is not larger. -/
theorem toNat_sub_of_ge (h : a ≤ b) : (b - a).toNat = b.toNat - a.toNat := by
  rw [UInt64.le_iff_toNat_le] at h
  have hb := UInt64.toNat_lt b
  rw [UInt64.toNat_sub]
  omega

/-- INTERNAL: the difference of a word and a larger one wraps. -/
theorem toNat_sub_of_gt (h : b < a) : (b - a).toNat = 2 ^ 64 + b.toNat - a.toNat := by
  rw [UInt64.lt_iff_toNat_lt] at h
  have ha := UInt64.toNat_lt a
  rw [UInt64.toNat_sub]
  omega

/-- INTERNAL: a word in the upper half is a negative number as a signed one. -/
theorem toInt64_negative (h : 2 ^ 63 ≤ a.toNat) : a.toInt64.toInt < 0 := by
  have hlt := UInt64.toNat_lt a
  rw [← UInt64.ofNat_toNat (x := a), UInt64.toInt64_ofNat', Int64.toInt_ofNat', Int.bmod_def]
  simp only [Int64.size]
  omega

end MmapShield.Computation
