import N64Emu.LowMasks
import Mathlib.Tactic.Common
import Mathlib.Tactic.Ring
import Mathlib.Data.Nat.Notation
import Mathlib.Tactic.Positivity
import Mathlib.Tactic.Linarith

/-!
# Products of two words

The product of two numbers of two digits by the four products of the digits, and
the product of two sign-extended words. Nothing here mentions a particular
program.
-/

set_option autoImplicit false

namespace WideProduct

theorem partial_products (b x1 x0 y1 y0 : ℕ) : (x1 * b + x0) * (y1 * b + y0) =
    x1 * y1 * (b * b) + (x0 * y1 + x1 * y0) * b + x0 * y0 := by ring

/-- What the lower digits of the four products carry into the upper ones. -/
def middle (b p0 p1 p2 : ℕ) : ℕ := p0 / b + p1 % b + p2 % b

theorem carried (b p0 p1 p2 p3 : ℕ) :
    (p3 + p1 / b + p2 / b + middle b p0 p1 p2 / b) * (b * b) +
      (middle b p0 p1 p2 % b * b + p0 % b) = p3 * (b * b) + (p1 + p2) * b + p0 := by
  have low := Nat.div_add_mod p0 b
  have first := Nat.div_add_mod p1 b
  have second := Nat.div_add_mod p2 b
  have carry := Nat.div_add_mod (middle b p0 p1 p2) b
  calc
    (p3 + p1 / b + p2 / b + middle b p0 p1 p2 / b) * (b * b) +
        (middle b p0 p1 p2 % b * b + p0 % b)
      = (p3 + p1 / b + p2 / b) * (b * b) +
          (b * (middle b p0 p1 p2 / b) + middle b p0 p1 p2 % b) * b + p0 % b := by ring
    _ = (p3 + p1 / b + p2 / b) * (b * b) + (p0 / b + p1 % b + p2 % b) * b + p0 % b := by
      rw [carry, middle]
    _ = p3 * (b * b) + ((b * (p1 / b) + p1 % b) + (b * (p2 / b) + p2 % b)) * b +
          (b * (p0 / b) + p0 % b) := by ring
    _ = p3 * (b * b) + (p1 + p2) * b + p0 := by rw [low, first, second]

section Signed

variable {w v : ℕ}

theorem toInt_abs_le (x : BitVec w) : |x.toInt| ≤ 2 ^ (w - 1) := by
  have low := BitVec.le_toInt x
  have high := BitVec.toInt_lt (x := x)
  exact abs_le.mpr ⟨low, Int.le_of_lt high⟩

theorem signed_product (x y : BitVec w) (positive : 0 < w) (fits : 2 * w ≤ v) :
    (x.signExtend v * y.signExtend v).toInt = x.toInt * y.toInt := by
  have first := toInt_abs_le x
  have second := toInt_abs_le y
  have product : |x.toInt * y.toInt| ≤ 2 ^ (2 * w - 2) := by
    have sum : 2 * w - 2 = (w - 1) + (w - 1) := by omega
    rw [abs_mul, sum, pow_add]
    exact mul_le_mul first second (abs_nonneg _) (by positivity)
  have room : (2 : ℤ) ^ (2 * w - 2) < 2 ^ (v - 1) := pow_lt_pow_right₀ (by decide) (by omega)
  obtain ⟨low, high⟩ := abs_le.mp product
  have exact_ : BitVec.ofInt v (x.toInt * y.toInt) = x.signExtend v * y.signExtend v := by
    rw [BitVec.ofInt_mul, ← BitVec.toInt_signExtend_of_le (x := x) (v := v) (by omega),
      ← BitVec.toInt_signExtend_of_le (x := y) (v := v) (by omega), BitVec.ofInt_toInt,
      BitVec.ofInt_toInt]
  rw [← exact_]
  exact BitVec.toInt_ofInt_eq_self (by omega) (by omega) (by omega)

theorem halves_append (r : BitVec (w + w)) : (r >>> w).setWidth w ++ r.setWidth w = r := by
  have high : r.toNat / 2 ^ w < 2 ^ w := by
    have whole := r.isLt
    rw [Nat.pow_add] at whole
    exact Nat.div_lt_of_lt_mul whole
  apply BitVec.eq_of_toNat_eq
  rw [LowMasks.toNat_append, BitVec.toNat_setWidth, BitVec.toNat_setWidth,
    BitVec.toNat_ushiftRight, Nat.shiftRight_eq_div_pow, Nat.mod_eq_of_lt high]
  exact Nat.div_add_mod' _ _

theorem halves_toInt (r : BitVec (w + w)) (positive : 0 < w) :
    ((r >>> w).setWidth w).toInt * 2 ^ w + (r.setWidth w).toNat = r.toInt := by
  have whole := congrArg BitVec.toInt (halves_append r)
  have nonzero : (w == 0) = false := by
    rw [beq_eq_false_iff_ne]
    omega
  rw [BitVec.toInt_append, nonzero, if_neg Bool.false_ne_true, Int.mul_comm] at whole
  exact whole

theorem halves_toNat (r : BitVec (w + w)) :
    ((r >>> w).setWidth w).toNat * 2 ^ w + (r.setWidth w).toNat = r.toNat := by
  have whole := congrArg BitVec.toNat (halves_append r)
  rwa [LowMasks.toNat_append] at whole

theorem unsigned_product (x y : BitVec w) :
    (x.setWidth (w + w) * y.setWidth (w + w)).toNat = x.toNat * y.toNat := by
  have room : x.toNat * y.toNat < 2 ^ (w + w) := by
    rw [Nat.pow_add]
    exact Nat.mul_lt_mul'' x.isLt y.isLt
  have wide (z : BitVec w) : (z.setWidth (w + w)).toNat = z.toNat := by
    have grows := Nat.pow_le_pow_right (show 0 < 2 by decide) (Nat.le_add_right w w)
    rw [BitVec.toNat_setWidth]
    exact Nat.mod_eq_of_lt (Nat.lt_of_lt_of_le z.isLt grows)
  rw [BitVec.toNat_mul, wide, wide]
  exact Nat.mod_eq_of_lt room

end Signed

section Division

/-- A quotient rounded to zero, with a remainder of the sign of the dividend. -/
structure Divides (num den q r : ℤ) : Prop where
  total : num = q * den + r
  small : |r| < |den|
  sign : r = 0 ∨ r.sign = num.sign

theorem truncated (num : ℤ) {den : ℤ} (nonzero : den ≠ 0) :
    Divides num den (num.tdiv den) (num.tmod den) where
  total := by
    rw [Int.mul_comm]
    exact (Int.mul_tdiv_add_tmod num den).symm
  small := by
    have positive : 0 < den.natAbs := Int.natAbs_pos.mpr nonzero
    rw [Int.abs_eq_natAbs, Int.abs_eq_natAbs, Int.natAbs_tmod]
    exact Int.ofNat_lt.mpr (Nat.mod_lt _ positive)
  sign := by
    by_cases zero : num.tmod den = 0
    · exact Or.inl zero
    · refine Or.inr ?_
      rcases lt_trichotomy num 0 with negative | nothing | positive
      · have below : num.tmod den ≤ 0 := by
          have mirrored := Int.tmod_nonneg den (show 0 ≤ -num by omega)
          rw [Int.neg_tmod] at mirrored
          omega
        rw [Int.sign_eq_neg_one_of_neg negative,
          Int.sign_eq_neg_one_of_neg (lt_of_le_of_ne below zero)]
      · rw [nothing, Int.zero_tmod] at zero
        exact absurd rfl zero
      · have above := Int.tmod_nonneg den (Int.le_of_lt positive)
        rw [Int.sign_eq_one_of_pos positive,
          Int.sign_eq_one_of_pos (lt_of_le_of_ne above (Ne.symm zero))]

section Words

variable {w : ℕ} (x y : BitVec w)

/-- The quotient modulo `2^w`; only that of the least word by -1 is out of range. -/
theorem sdiv_eq : x.sdiv y = BitVec.ofInt w (x.toInt.tdiv y.toInt) := by
  apply BitVec.eq_of_toInt_eq
  rw [BitVec.toInt_sdiv, BitVec.toInt_ofInt]

theorem srem_eq : x.srem y = BitVec.ofInt w (x.toInt.tmod y.toInt) := by
  rw [← BitVec.toInt_srem, BitVec.ofInt_toInt]

theorem udiv_eq : x / y = BitVec.ofInt w ((x.toNat : ℤ).tdiv y.toNat) := by
  rw [← Int.ofNat_tdiv, BitVec.ofInt_natCast, ← BitVec.toNat_udiv,
    BitVec.ofNat_toNat, BitVec.setWidth_eq]

theorem umod_eq : x % y = BitVec.ofInt w ((x.toNat : ℤ).tmod y.toNat) := by
  rw [← Int.ofNat_tmod, BitVec.ofInt_natCast, ← BitVec.toNat_umod,
    BitVec.ofNat_toNat, BitVec.setWidth_eq]

end Words

end Division

end WideProduct
