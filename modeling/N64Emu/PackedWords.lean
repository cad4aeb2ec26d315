import N64Emu.LowMasks

/-!
# Words packed from fields

A word made of shifted parts, and the bits of it from a place on. Parts that
fit their fields and do not overlap are read back as they were. Nothing here
mentions a particular program.
-/

set_option autoImplicit false

namespace PackedWords

variable {w : ℕ}

/-- The `n` bits of a word from bit `k` on. -/
def extract (x : BitVec w) (k n : ℕ) : ℕ := x.toNat / 2 ^ k % 2 ^ n

structure Piece (w : ℕ) where
  shift : ℕ
  width : ℕ
  value : BitVec w

namespace Piece

def placed (p : Piece w) : BitVec w := p.value <<< p.shift

def Fits (p : Piece w) : Prop := p.value.toNat < 2 ^ p.width ∧ p.shift + p.width ≤ w

def Apart (p q : Piece w) : Prop := p.shift + p.width ≤ q.shift ∨ q.shift + q.width ≤ p.shift

theorem Apart.symm {p q : Piece w} (apart : p.Apart q) : q.Apart p := Or.symm apart

end Piece

def packed : List (Piece w) → BitVec w
  | [] => 0#w
  | p :: ps => p.placed ||| packed ps

theorem extract_or (x y : BitVec w) (k n : ℕ) :
    extract (x ||| y) k n = extract x k n ||| extract y k n := by
  apply Nat.eq_of_testBit_eq
  intro i
  unfold extract
  rw [BitVec.toNat_or, Nat.testBit_or]
  simp only [Nat.testBit_mod_two_pow, Nat.testBit_div_two_pow, Nat.testBit_or,
    Bool.and_or_distrib_left]

theorem extract_zero (k n : ℕ) : extract 0#w k n = 0 := by
  unfold extract
  rw [BitVec.toNat_zero, Nat.zero_div, Nat.zero_mod]

theorem extract_low (x : BitVec w) {k n m : ℕ} (inside : k + n ≤ m) (fits : m ≤ w) :
    extract (x &&& LowMasks.low w m) k n = extract x k n := by
  obtain ⟨d, sum⟩ := Nat.exists_eq_add_of_le inside
  unfold extract
  rw [LowMasks.toNat_and_low x fits, sum, Nat.add_assoc, Nat.pow_add,
    Nat.mod_mul_right_div_self, Nat.pow_add]
  exact Nat.mod_mod_of_dvd _ (Nat.dvd_mul_right _ _)

theorem placed_toNat {p : Piece w} (fits : p.Fits) :
    p.placed.toNat = p.value.toNat * 2 ^ p.shift := by
  obtain ⟨small, inside⟩ := fits
  have room : p.value.toNat * 2 ^ p.shift < 2 ^ w := by
    calc
      p.value.toNat * 2 ^ p.shift < 2 ^ p.width * 2 ^ p.shift :=
        Nat.mul_lt_mul_of_pos_right small (Nat.two_pow_pos _)
      _ = 2 ^ (p.shift + p.width) := by rw [Nat.mul_comm, Nat.pow_add]
      _ ≤ 2 ^ w := Nat.pow_le_pow_right (by decide) inside
  unfold Piece.placed
  rw [BitVec.toNat_shiftLeft, Nat.shiftLeft_eq, Nat.mod_eq_of_lt room]

theorem extract_same {p : Piece w} (fits : p.Fits) :
    extract p.placed p.shift p.width = p.value.toNat := by
  unfold extract
  rw [placed_toNat fits, Nat.mul_div_cancel _ (Nat.two_pow_pos _), Nat.mod_eq_of_lt fits.1]

theorem extract_apart {p : Piece w} (fits : p.Fits) {k n : ℕ}
    (apart : p.shift + p.width ≤ k ∨ k + n ≤ p.shift) : extract p.placed k n = 0 := by
  unfold extract
  rw [placed_toNat fits]
  rcases apart with below | above
  · have small : p.value.toNat * 2 ^ p.shift < 2 ^ k := by
      calc
        p.value.toNat * 2 ^ p.shift < 2 ^ p.width * 2 ^ p.shift :=
          Nat.mul_lt_mul_of_pos_right fits.1 (Nat.two_pow_pos _)
        _ = 2 ^ (p.shift + p.width) := by rw [Nat.mul_comm, Nat.pow_add]
        _ ≤ 2 ^ k := Nat.pow_le_pow_right (by decide) below
    rw [Nat.div_eq_of_lt small, Nat.zero_mod]
  · obtain ⟨d, sum⟩ := Nat.exists_eq_add_of_le above
    rw [sum, Nat.add_assoc, Nat.pow_add, Nat.mul_left_comm, Nat.mul_div_cancel_left _
      (Nat.two_pow_pos _), Nat.pow_add, Nat.mul_left_comm]
    exact Nat.mul_mod_right _ _

/-- Parts that fit their fields, none over another. -/
structure Layout (ps : List (Piece w)) : Prop where
  fits : ∀ p ∈ ps, p.Fits
  apart : ps.Pairwise Piece.Apart

theorem extract_gap {ps : List (Piece w)} (fits : ∀ p ∈ ps, p.Fits) {k n : ℕ}
    (apart : ∀ p ∈ ps, p.shift + p.width ≤ k ∨ k + n ≤ p.shift) :
    extract (packed ps) k n = 0 := by
  induction ps with
  | nil => exact extract_zero k n
  | cons p ps ih =>
    rw [List.forall_mem_cons] at fits apart
    show extract (p.placed ||| packed ps) k n = 0
    rw [extract_or, extract_apart fits.1 apart.1, ih fits.2 apart.2, Nat.zero_or]

theorem extract_packed {ps : List (Piece w)} (layout : Layout ps) {p : Piece w} (member : p ∈ ps) :
    extract (packed ps) p.shift p.width = p.value.toNat := by
  obtain ⟨fits, apart⟩ := layout
  induction ps with
  | nil => exact absurd member List.not_mem_nil
  | cons q ps ih =>
    rw [List.forall_mem_cons] at fits
    rw [List.pairwise_cons] at apart
    show extract (q.placed ||| packed ps) p.shift p.width = _
    rw [extract_or]
    rcases List.mem_cons.mp member with rfl | later
    · rw [extract_same fits.1, extract_gap fits.2 fun q here => (apart.1 q here).symm, Nat.or_zero]
    · rw [extract_apart fits.1 (apart.1 p later), ih later fits.2 apart.2, Nat.zero_or]

end PackedWords
