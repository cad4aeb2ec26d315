import Mathlib.Tactic.Common
import Mathlib.Data.Nat.Notation
import Mathlib.Algebra.Order.Ring.Int

/-!
# Checked signed arithmetic

Sums and differences of words read as signed numbers, undefined where the exact
result is out of range. Nothing here mentions a particular program.
-/

set_option autoImplicit false

namespace CheckedSigned

def Fits (w : ℕ) (n : ℤ) : Prop := -2 ^ (w - 1) ≤ n ∧ n < 2 ^ (w - 1)

instance (w : ℕ) (n : ℤ) : Decidable (Fits w n) := inferInstanceAs (Decidable (_ ∧ _))

def checked (w : ℕ) (n : ℤ) : Option (BitVec w) :=
  if Fits w n then some (BitVec.ofInt w n) else none

def checkedAdd {w : ℕ} (a b : BitVec w) : Option (BitVec w) := checked w (a.toInt + b.toInt)

def checkedSub {w : ℕ} (a b : BitVec w) : Option (BitVec w) := checked w (a.toInt - b.toInt)

def checkedShl {w : ℕ} (a : BitVec w) (k : ℕ) : Option (BitVec w) := checked w (a.toInt * 2 ^ k)

def shortAnd (p q : Option Bool) : Option Bool := p.bind fun b => if b then q else some false

def shortOr (p q : Option Bool) : Option Bool := p.bind fun b => if b then some true else q

section Range

variable {w : ℕ} {n : ℤ}

theorem fits_toInt (a : BitVec w) : Fits w a.toInt := ⟨BitVec.le_toInt a, BitVec.toInt_lt⟩

theorem toInt_of_fits (positive : 0 < w) (fits : Fits w n) : (BitVec.ofInt w n).toInt = n :=
  BitVec.toInt_ofInt_eq_self positive fits.1 fits.2

theorem toInt_ofInt_iff (positive : 0 < w) : (BitVec.ofInt w n).toInt = n ↔ Fits w n := by
  constructor
  · intro same
    rw [← same]
    exact fits_toInt _
  · exact toInt_of_fits positive

end Range

section Evaluated

variable {w : ℕ} {a b : BitVec w}

theorem add_ofInt (a b : BitVec w) : a + b = BitVec.ofInt w (a.toInt + b.toInt) := by
  rw [BitVec.ofInt_add, BitVec.ofInt_toInt, BitVec.ofInt_toInt]

theorem sub_ofInt (a b : BitVec w) : a - b = BitVec.ofInt w (a.toInt - b.toInt) := by
  apply BitVec.eq_of_toInt_eq
  rw [BitVec.toInt_ofInt, BitVec.toInt_sub]

theorem toInt_add_of_fits (positive : 0 < w) (fits : Fits w (a.toInt + b.toInt)) :
    (a + b).toInt = a.toInt + b.toInt := by
  rw [add_ofInt]
  exact toInt_of_fits positive fits

theorem toInt_sub_of_fits (positive : 0 < w) (fits : Fits w (a.toInt - b.toInt)) :
    (a - b).toInt = a.toInt - b.toInt := by
  rw [sub_ofInt]
  exact toInt_of_fits positive fits

theorem checkedAdd_of_fits (fits : Fits w (a.toInt + b.toInt)) : checkedAdd a b = some (a + b) := by
  rw [checkedAdd, checked, if_pos fits, add_ofInt]

theorem checkedSub_of_fits (fits : Fits w (a.toInt - b.toInt)) : checkedSub a b = some (a - b) := by
  rw [checkedSub, checked, if_pos fits, sub_ofInt]

theorem fits_of_checkedAdd {v : BitVec w} (evaluated : checkedAdd a b = some v) :
    Fits w (a.toInt + b.toInt) := by
  by_contra outside
  rw [checkedAdd, checked, if_neg outside] at evaluated
  cases evaluated

theorem shl_ofInt (a : BitVec w) (k : ℕ) : BitVec.ofInt w (a.toInt * 2 ^ k) = a <<< k := by
  have power : BitVec.ofInt w (2 ^ k) = BitVec.twoPow w k := by
    apply BitVec.eq_of_toNat_eq
    rw [show (2 : ℤ) ^ k = ((2 ^ k : ℕ) : ℤ) from (Int.natCast_pow 2 k).symm,
      BitVec.ofInt_natCast, BitVec.toNat_ofNat, BitVec.toNat_twoPow]
  rw [BitVec.ofInt_mul, BitVec.ofInt_toInt, power, BitVec.shiftLeft_eq_mul_twoPow]

theorem checkedShl_of_fits {k : ℕ} (fits : Fits w (a.toInt * 2 ^ k)) :
    checkedShl a k = some (a <<< k) := by
  rw [checkedShl, checked, if_pos fits, shl_ofInt]

theorem toInt_shl_of_fits {k : ℕ} (positive : 0 < w) (fits : Fits w (a.toInt * 2 ^ k)) :
    (a <<< k).toInt = a.toInt * 2 ^ k := by
  rw [← shl_ofInt]
  exact toInt_of_fits positive fits

theorem shortAnd_of {p r : Bool} {q : Option Bool} (second : p = true → q = some r) :
    shortAnd (some p) q = some (p && r) := by
  cases p with
  | false => rfl
  | true => exact second rfl

theorem shortOr_some (p q : Bool) : shortOr (some p) (some q) = some (p || q) := by
  cases p with
  | false => rfl
  | true => rfl

end Evaluated

section Widened

variable {w v : ℕ} (a b : BitVec w)

theorem fits_wider (positive : 0 < w) (wider : w < v) :
    Fits v (a.toInt + b.toInt) ∧ Fits v (a.toInt - b.toInt) := by
  have first := fits_toInt a
  have second := fits_toInt b
  have double : (2 : ℤ) ^ (w - 1) + 2 ^ (w - 1) ≤ 2 ^ (v - 1) := by
    have grows : (2 : ℤ) ^ w ≤ 2 ^ (v - 1) := pow_le_pow_right₀ (by decide) (by omega)
    have halves : (2 : ℤ) ^ w = 2 ^ (w - 1) * 2 := by rw [← pow_succ, Nat.sub_add_cancel positive]
    omega
  unfold Fits at *
  omega

end Widened

end CheckedSigned
