import Mathlib.Data.Nat.Sqrt
import Mathlib.Tactic.Common
import Mathlib.Tactic.Ring
import Mathlib.Tactic.Linarith

/-!
# Square roots by binary digits

A root is found one binary digit at a time, from the highest. What is left of
the number and twice the root times the weight of the next digit are kept, so
one comparison decides a digit. Nothing here mentions a particular program.
-/

set_option autoImplicit false

namespace DigitRoot

/-- With `d` digits of the root of `n` to come: the root found so far, what its
square leaves of `n`, and the root times `2 ^ d`. -/
structure Partial (n d root rest scaled : ℕ) : Prop where
  rest : rest + root * root = n
  scaled : scaled = root * 2 ^ d
  above : n < (root + 2 ^ d) * (root + 2 ^ d)
  aligned : 2 ^ d ∣ root

def weight (d : ℕ) : ℕ := 4 ^ d / 4

@[simp]
theorem weight_zero : weight 0 = 0 := rfl

@[simp]
theorem weight_succ (d : ℕ) : weight (d + 1) = 2 ^ d * 2 ^ d := by
  have square : 4 ^ d = 2 ^ d * 2 ^ d := Nat.mul_pow 2 2 d
  rw [weight, pow_succ, Nat.mul_div_cancel _ (by decide), square]

theorem weight_pos (d : ℕ) : 0 < weight (d + 1) := by
  rw [weight_succ]
  exact Nat.mul_pos (Nat.two_pow_pos d) (Nat.two_pow_pos d)

theorem weight_quarter (d : ℕ) : weight (d + 1) / 4 = weight d := by
  cases d with
  | zero => rfl
  | succ d =>
    rw [weight_succ, weight_succ, pow_succ]
    have four : 2 ^ d * 2 * (2 ^ d * 2) = 2 ^ d * 2 ^ d * 4 := by ring
    rw [four, Nat.mul_div_cancel _ (by decide)]

variable {n d root rest scaled : ℕ}

namespace Partial

theorem start (h : n < 2 ^ d * 2 ^ d) : Partial n d 0 n 0 where
  rest := by simp
  scaled := by simp
  above := by simpa using h
  aligned := dvd_zero _

theorem square_next (h : Partial n (d + 1) root rest scaled) :
    (root + 2 ^ d) * (root + 2 ^ d) = root * root + (scaled + weight (d + 1)) := by
  rw [h.scaled, weight_succ, pow_succ]
  ring

theorem fits_iff (h : Partial n (d + 1) root rest scaled) :
    scaled + weight (d + 1) ≤ rest ↔ (root + 2 ^ d) * (root + 2 ^ d) ≤ n := by
  have total := h.rest
  rw [h.square_next]
  omega

theorem half (h : Partial n (d + 1) root rest scaled) : scaled / 2 = root * 2 ^ d := by
  rw [h.scaled, pow_succ, ← Nat.mul_assoc, Nat.mul_div_cancel _ (by decide)]

theorem one (h : Partial n (d + 1) root rest scaled) (fits : scaled + weight (d + 1) ≤ rest) :
    Partial n d (root + 2 ^ d) (rest - (scaled + weight (d + 1)))
      (scaled / 2 + weight (d + 1)) where
  rest := by
    have total := h.rest
    rw [h.square_next]
    omega
  scaled := by
    rw [h.half, weight_succ]
    ring
  above := by
    have above := h.above
    rw [pow_succ] at above
    have same : root + 2 ^ d + 2 ^ d = root + 2 ^ d * 2 := by ring
    rwa [same]
  aligned := by
    have coarse : 2 ^ d ∣ 2 ^ (d + 1) := pow_dvd_pow 2 (Nat.le_succ d)
    exact Nat.dvd_add (coarse.trans h.aligned) (dvd_refl _)

theorem zero (h : Partial n (d + 1) root rest scaled) (large : ¬ scaled + weight (d + 1) ≤ rest) :
    Partial n d root rest (scaled / 2) where
  rest := h.rest
  scaled := h.half
  above := Nat.lt_of_not_le (mt h.fits_iff.mpr large)
  aligned := (pow_dvd_pow 2 (Nat.le_succ d)).trans h.aligned

theorem done (h : Partial n 0 root rest scaled) : scaled = Nat.sqrt n := by
  have value : scaled = root := by rw [h.scaled, pow_zero, mul_one]
  have total := h.rest
  have above := h.above
  rw [pow_zero] at above
  rw [value]
  exact Nat.eq_sqrt.mpr ⟨by omega, above⟩

/-- While the number fits in `w` pairs of bits, so does the next square. -/
theorem bounded {w : ℕ} (h : Partial n (d + 1) root rest scaled) (below : n < 2 ^ w * 2 ^ w)
    (digits : d + 1 ≤ w) : scaled + weight (d + 1) < 2 ^ w * 2 ^ w := by
  have square : root * root < 2 ^ w * 2 ^ w := by
    have total := h.rest
    omega
  have small : root < 2 ^ w := Nat.mul_self_lt_mul_self_iff.mp square
  obtain ⟨q, rfl⟩ := h.aligned
  obtain ⟨e, rfl⟩ : ∃ e, w = d + 1 + e := ⟨w - (d + 1), by omega⟩
  rw [pow_add 2 (d + 1) e] at small
  have quotient : q < 2 ^ e := Nat.lt_of_mul_lt_mul_left small
  have next : 2 ^ (d + 1) * q + 2 ^ d < 2 ^ (d + 1) * 2 ^ e := by
    have step : 2 ^ (d + 1) * (q + 1) ≤ 2 ^ (d + 1) * 2 ^ e := Nat.mul_le_mul_left _ quotient
    have half : 2 ^ d < 2 ^ (d + 1) := Nat.pow_lt_pow_right (by decide) (Nat.lt_succ_self d)
    rw [Nat.mul_add, Nat.mul_one] at step
    omega
  have squares := Nat.mul_self_lt_mul_self next
  rw [h.square_next] at squares
  rw [pow_add 2 (d + 1) e]
  omega

end Partial

end DigitRoot
