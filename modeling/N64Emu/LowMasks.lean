import Mathlib.Tactic.Common
import Mathlib.Data.Nat.Notation
import Mathlib.Data.Nat.Bitwise

/-!
# Low masks of machine words

A mask of the low bits takes a remainder, its complement rounds down, and a
single bit tells the parity of a quotient. Nothing here mentions a particular
program.
-/

set_option autoImplicit false

namespace LowMasks

variable {w n : ℕ}

/-- The low `n` bits. -/
def low (w n : ℕ) : BitVec w := BitVec.ofNat w (2 ^ n - 1)

theorem getLsbD_low (i : ℕ) (inside : i < w) : (low w n).getLsbD i = decide (i < n) := by
  rw [low, BitVec.getLsbD_ofNat, Nat.testBit_two_pow_sub_one]
  simp [inside]

theorem toNat_and_low (x : BitVec w) (fits : n ≤ w) : (x &&& low w n).toNat = x.toNat % 2 ^ n := by
  have small : 2 ^ n - 1 < 2 ^ w := by
    have grows := Nat.pow_le_pow_right (show 0 < 2 by decide) fits
    have positive := Nat.two_pow_pos n
    omega
  rw [BitVec.toNat_and, low, BitVec.toNat_ofNat, Nat.mod_eq_of_lt small,
    Nat.and_two_pow_sub_one_eq_mod]

theorem toNat_andNot_low (x : BitVec w) :
    (x &&& ~~~low w n).toNat = x.toNat / 2 ^ n * 2 ^ n := by
  apply Nat.eq_of_testBit_eq
  intro i
  rw [Nat.mul_comm, Nat.testBit_two_pow_mul, Nat.testBit_div_two_pow, BitVec.testBit_toNat,
    BitVec.testBit_toNat, BitVec.getLsbD_and, BitVec.getLsbD_not]
  by_cases inside : i < w
  · rw [getLsbD_low i inside]
    by_cases above : n ≤ i
    · simp [inside, above, Nat.sub_add_cancel above]
    · simp [above, Nat.lt_of_not_le above]
  · have outside : x.getLsbD i = false := BitVec.getLsbD_of_ge x i (Nat.le_of_not_lt inside)
    by_cases above : n ≤ i
    · simp [outside, Nat.sub_add_cancel above]
    · simp [outside, above]

theorem toNat_and_field {m : ℕ} (x : BitVec w) (fits : m ≤ w) :
    (x &&& (low w m &&& ~~~low w n)).toNat = x.toNat % 2 ^ m / 2 ^ n * 2 ^ n := by
  rw [← BitVec.and_assoc, toNat_andNot_low, toNat_and_low x fits]

theorem andNot_low_eq_iff (x y : BitVec w) :
    x &&& ~~~low w n = y &&& ~~~low w n ↔ x.toNat / 2 ^ n = y.toNat / 2 ^ n := by
  constructor
  · intro same
    have rounded := congrArg BitVec.toNat same
    rw [toNat_andNot_low, toNat_andNot_low] at rounded
    exact Nat.eq_of_mul_eq_mul_right (Nat.two_pow_pos n) rounded
  · intro same
    apply BitVec.eq_of_toNat_eq
    rw [toNat_andNot_low, toNat_andNot_low, same]

theorem bit_ne_zero_iff (x : BitVec w) (inside : n < w) :
    x &&& BitVec.ofNat w (2 ^ n) ≠ 0 ↔ x.toNat / 2 ^ n % 2 = 1 := by
  have small : 2 ^ n < 2 ^ w := Nat.pow_lt_pow_right (by decide) inside
  have value : (x &&& BitVec.ofNat w (2 ^ n)).toNat = (x.toNat.testBit n).toNat * 2 ^ n := by
    rw [BitVec.toNat_and, BitVec.toNat_ofNat, Nat.mod_eq_of_lt small, Nat.and_two_pow]
  have bit := Nat.testBit_eq_decide_div_mod_eq (x := x.toNat) (i := n)
  rw [Ne, ← BitVec.toNat_inj, value]
  by_cases odd : x.toNat / 2 ^ n % 2 = 1
  · rw [bit, decide_eq_true odd]
    have positive := Nat.two_pow_pos n
    simp [odd]
  · rw [bit, decide_eq_false odd]
    simp [odd]

theorem bit_eq_zero_iff (x : BitVec w) (inside : n < w) :
    x &&& BitVec.ofNat w (2 ^ n) = 0 ↔ x.toNat / 2 ^ n % 2 = 0 := by
  have bit := bit_ne_zero_iff x inside
  constructor
  · intro zero
    have clear := mt bit.mpr (not_not.mpr zero)
    omega
  · intro even
    by_contra set
    have odd := bit.mp set
    omega

/-- A multiple of `2 ^ n` and a word below it share no bit. -/
theorem toNat_or_low {x y : BitVec w} (aligned : x.toNat % 2 ^ n = 0) (below : y.toNat < 2 ^ n) :
    (x ||| y).toNat = x.toNat + y.toNat := by
  have multiple : x.toNat = 2 ^ n * (x.toNat / 2 ^ n) :=
    (Nat.mul_div_cancel' (Nat.dvd_of_mod_eq_zero aligned)).symm
  rw [BitVec.toNat_or, multiple]
  exact (Nat.two_pow_add_eq_or_of_lt below _).symm

theorem toNat_append {v : ℕ} (x : BitVec v) (y : BitVec w) :
    (x ++ y).toNat = x.toNat * 2 ^ w + y.toNat := by
  rw [BitVec.toNat_append, ← Nat.shiftLeft_add_eq_or_of_lt y.isLt, Nat.shiftLeft_eq]

end LowMasks
