import Mathlib.Algebra.Order.Floor.Div
import MmapShield.Computation.Words

/-!
# Rounding to pages

`roundDown page n` and `roundUp page n` are the multiples of `page` next to `n`, below and
above. On machine words, code rounds with the mask `!(page - 1)` of a power of two;
`toNat_maskDown` says that this is `roundDown`. A range of bytes is rounded out to whole
pages in two ways, by the length or by the end, and `roundOut_len` says that they agree.
-/

set_option autoImplicit false

namespace MmapShield.Computation

/-- The last multiple of `page` that is not above `n`. -/
def roundDown (page n : ℕ) : ℕ := page * (n / page)

/-- The first multiple of `page` that is not below `n`. -/
def roundUp (page n : ℕ) : ℕ := page * (n ⌈/⌉ page)

variable {page n m : ℕ}

/-- INTERNAL: rounding down goes down. -/
theorem roundDown_le (page n : ℕ) : roundDown page n ≤ n := Nat.mul_div_le n page

/-- INTERNAL: rounding down takes away the remainder. -/
theorem roundDown_add_mod (page n : ℕ) : roundDown page n + n % page = n := Nat.div_add_mod n page

/-- INTERNAL: rounding down goes down by less than a page. -/
theorem lt_roundDown_add (hpage : 0 < page) (n : ℕ) : n < roundDown page n + page := by
  have hmod := Nat.mod_lt n hpage
  have hsum := roundDown_add_mod page n
  omega

/-- INTERNAL: rounding up is rounding down from the last byte of the next page. -/
theorem roundUp_eq : roundUp page n = roundDown page (n + page - 1) := by
  rw [roundUp, roundDown, Nat.ceilDiv_eq_add_pred_div]

/-- INTERNAL: rounding up goes up. -/
theorem le_roundUp (hpage : 0 < page) (n : ℕ) : n ≤ roundUp page n := by
  have h := lt_roundDown_add hpage (n + page - 1)
  rw [roundUp_eq]
  omega

/-- INTERNAL: rounding down is monotone. -/
theorem roundDown_mono (h : n ≤ m) : roundDown page n ≤ roundDown page m :=
  Nat.mul_le_mul_left page (Nat.div_le_div_right h)

/-- INTERNAL: rounding up is monotone. -/
theorem roundUp_mono (h : n ≤ m) : roundUp page n ≤ roundUp page m := by
  rw [roundUp_eq, roundUp_eq]
  apply roundDown_mono
  omega

/-- INTERNAL: a rounding down is below a rounding up of anything above. -/
theorem roundDown_le_roundUp (hpage : 0 < page) (h : n ≤ m) :
    roundDown page n ≤ roundUp page m :=
  (roundDown_le page n).trans (h.trans (le_roundUp hpage m))

/-- INTERNAL: a page starts at or after the start of another as soon as one of its bytes does. -/
theorem roundDown_le_roundDown_iff (hpage : 0 < page) :
    roundDown page n ≤ roundDown page m ↔ roundDown page n ≤ m := by
  refine ⟨fun h => h.trans (roundDown_le page m), ?_⟩
  intro h
  apply Nat.mul_le_mul_left
  rw [Nat.le_div_iff_mul_le hpage, Nat.mul_comm]
  exact h

/-- INTERNAL: a page starts before the end of a range as soon as one of its bytes is. -/
theorem roundDown_lt_roundUp_iff (hpage : 0 < page) :
    roundDown page n < roundUp page m ↔ n < roundUp page m := by
  rw [roundDown, roundUp, Nat.mul_lt_mul_left hpage, Nat.div_lt_iff_lt_mul hpage, Nat.mul_comm]

/-- INTERNAL: whole pages can be taken out of a rounding. -/
theorem roundDown_add (hpage : 0 < page) (hdvd : page ∣ n) (m : ℕ) :
    roundDown page (n + m) = n + roundDown page m := by
  obtain ⟨c, rfl⟩ := hdvd
  rw [roundDown, roundDown, Nat.mul_add_div hpage, Nat.mul_add]

/-- INTERNAL: **the two ways to round a range out agree.** The length rounded up from the
start of the first page ends where the end of the range does. -/
theorem roundOut_len (hpage : 0 < page) :
    roundDown page (m + (n - roundDown page n) + page - 1) =
      roundUp page (n + m) - roundDown page n := by
  have hsum := roundDown_add_mod page n
  have hsplit : n + m + page - 1 = page * (n / page) + (m + (n - roundDown page n) + page - 1) := by
    have hdown : roundDown page n = page * (n / page) := rfl
    omega
  rw [roundUp_eq, hsplit, roundDown, roundDown, roundDown, Nat.mul_add_div hpage, Nat.mul_add]
  exact (Nat.add_sub_cancel_left _ _).symm

variable {a b word : UInt64}

/-- INTERNAL: the bits of a number above the lowest `k`. -/
theorem and_high_bits {n k : ℕ} (hn : n < 2 ^ 64) :
    n &&& (2 ^ 64 - (2 ^ k - 1 + 1)) = roundDown (2 ^ k) n := by
  by_cases hk : k < 64
  · apply Nat.eq_of_testBit_eq
    intro i
    have hlow : 2 ^ k - 1 < 2 ^ 64 :=
      (Nat.sub_le _ _).trans_lt (Nat.pow_lt_pow_right (by omega) hk)
    rw [roundDown, Nat.mul_comm, Nat.testBit_and, Nat.testBit_two_pow_sub_succ hlow,
      Nat.testBit_two_pow_sub_one, Nat.testBit_mul_two_pow, Nat.testBit_div_two_pow]
    by_cases hi : k ≤ i
    · by_cases hi' : i < 64
      · simp [hi, hi', Nat.not_lt.mpr hi]
      · have hzero : n.testBit i = false :=
          Nat.testBit_lt_two_pow (hn.trans_le (Nat.pow_le_pow_right (by omega) (by omega)))
        simp [hi, hi', hzero]
    · simp [hi, Nat.lt_of_not_le hi]
  · have hpow : 2 ^ 64 ≤ 2 ^ k := Nat.pow_le_pow_right (by omega) (by omega)
    rw [Nat.sub_add_cancel Nat.one_le_two_pow, Nat.sub_eq_zero_of_le hpow, Nat.and_zero,
      roundDown, Nat.div_eq_of_lt (hn.trans_le hpow), Nat.mul_zero]

/-- INTERNAL: **the mask of a page size rounds down.** -/
theorem toNat_maskDown {k : ℕ} (hword : word.toNat = 2 ^ k) :
    (a &&& ~~~(word - 1)).toNat = roundDown word.toNat a.toNat := by
  have hone : (1 : UInt64) ≤ word := by
    rw [UInt64.le_iff_toNat_le, hword]
    exact Nat.one_le_two_pow
  have hsub : (word - 1).toNat = 2 ^ k - 1 := by
    rw [toNat_sub_of_ge hone, hword]
    rfl
  rw [UInt64.toNat_and, UInt64.toNat_not, hsub, hword, ← and_high_bits a.toNat_lt]
  congr 1
  simp only [UInt64.size]
  omega

end MmapShield.Computation
