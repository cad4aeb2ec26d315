import N64Emu.RspVector
import Mathlib.Tactic.Ring
import Mathlib.Tactic.Linarith

/-!
# Lanes and the accumulator

The lanes of an instruction do not see one another, and the hand-written 48-bit
wrap of the accumulator is the balanced remainder modulo 2^48.
-/

set_option autoImplicit false

namespace N64.RspVector

open Words

section Lanes

variable {α : Type} {body : Fin 8 → VectorStep → VectorStep}

/-- What a lane of the loop reads and writes, when no other lane touches it. -/
theorem forLanes_lane (view : VectorStep → Fin 8 → α) (f : Fin 8 → α → α)
    (own : ∀ l t, view (body l t) l = f l (view t l))
    (other : ∀ l m t, m ≠ l → view (body l t) m = view t m) (t : VectorStep) (m : Fin 8) :
    view (forLanes body t) m = f m (view t m) := by
  have each : ∀ (lanes : List (Fin 8)) (t : VectorStep), lanes.Nodup →
      view (lanes.foldl (fun t lane => body lane t) t) m =
        if m ∈ lanes then f m (view t m) else view t m := by
    intro lanes
    induction lanes with
    | nil => simp
    | cons l lanes ih =>
      intro t fresh
      obtain ⟨notLater, fresh⟩ := List.nodup_cons.mp fresh
      rw [List.foldl_cons, ih _ fresh]
      by_cases here : m = l
      · subst here
        simp [notLater, own]
      · simp [here, other l m t here]
  rw [forLanes, each _ t (List.nodup_finRange 8), if_pos (List.mem_finRange m)]

theorem forLanes_frame (view : VectorStep → α) (same : ∀ l t, view (body l t) = view t)
    (t : VectorStep) : view (forLanes body t) = view t := by
  have each : ∀ (lanes : List (Fin 8)) (t : VectorStep),
      view (lanes.foldl (fun t lane => body lane t) t) = view t := by
    intro lanes
    induction lanes with
    | nil => exact fun _ => rfl
    | cons l lanes ih => exact fun t => (ih _).trans (same l t)
  exact each _ t

end Lanes

section Wrap

theorem masked_toNat (v : ℤ) :
    (((BitVec.ofInt 64 v &&& kAccumulatorMask).toNat : ℕ) : ℤ) = v % 2 ^ 48 := by
  rw [BitVec.toNat_and, BitVec.toNat_ofInt, show kAccumulatorMask.toNat = 2 ^ 48 - 1 from rfl,
    Nat.and_two_pow_sub_one_eq_mod]
  push_cast
  omega

theorem sign_clear_iff {raw : U64} (small : raw.toNat < 2 ^ 48) :
    raw &&& kAccumulatorSign = 0 ↔ raw.toNat < 2 ^ 47 := by
  rw [show kAccumulatorSign = BitVec.twoPow 64 47 from rfl, BitVec.and_twoPow]
  have bit : raw.getLsbD 47 = decide (raw.toNat / 2 ^ 47 % 2 = 1) := by
    rw [BitVec.getLsbD, Nat.testBit_eq_decide_div_mod_eq]
  rw [bit]
  by_cases high : raw.toNat / 2 ^ 47 % 2 = 1
  · have set : BitVec.twoPow 64 47 ≠ 0 := by decide
    simp only [high, decide_true, if_true, set, false_iff]
    omega
  · simp only [high, decide_false, Bool.false_eq_true, if_false]
    exact iff_of_true rfl (by omega)

theorem wrapAccumulator_eq (v : ℤ) : wrapAccumulator v = Int.bmod v (2 ^ 48) := by
  have value := masked_toNat v
  have small : (BitVec.ofInt 64 v &&& kAccumulatorMask).toNat < 2 ^ 48 := by omega
  rw [wrapAccumulator, fromAccumulatorBits, Int.bmod_def]
  simp only [sign_clear_iff small, value, kAccumulatorModulus]
  push_cast
  split_ifs <;> omega

theorem wrapAccumulator_range (v : ℤ) :
    -2 ^ 47 ≤ wrapAccumulator v ∧ wrapAccumulator v < 2 ^ 47 := by
  rw [wrapAccumulator_eq]
  have low := Int.le_bmod (x := v) (m := 2 ^ 48) (by decide)
  have high := Int.bmod_lt (x := v) (m := 2 ^ 48) (by decide)
  omega

theorem wrapAccumulator_emod (v : ℤ) : wrapAccumulator v % 2 ^ 48 = v % 2 ^ 48 := by
  rw [wrapAccumulator_eq]
  exact Int.bmod_emod

theorem wrapAccumulator_of_range {v : ℤ} (low : -2 ^ 47 ≤ v) (high : v < 2 ^ 47) :
    wrapAccumulator v = v := by
  have range := wrapAccumulator_range v
  have same := wrapAccumulator_emod v
  omega

theorem accumulatorShift16_eq (acc : ℤ) : accumulatorShift16 acc = acc / 2 ^ 16 := by
  unfold accumulatorShift16
  split_ifs <;> omega

theorem laneBits_toNat (v : ℤ) : ((laneBits v).toNat : ℤ) = v % 2 ^ 16 := by
  rw [laneBits, BitVec.toNat_ofInt]
  omega

end Wrap

section Signed

theorem signedLane_eq (x : U16) :
    signedLane x = if x.toNat < 2 ^ 15 then (x.toNat : ℤ) else x.toNat - 2 ^ 16 := by
  rw [signedLane, BitVec.toInt_eq_toNat_cond]
  split_ifs <;> omega

theorem signedLane_range (x : U16) : -2 ^ 15 ≤ signedLane x ∧ signedLane x < 2 ^ 15 := by
  rw [signedLane_eq]
  have := x.isLt
  split_ifs <;> omega

end Signed

end N64.RspVector
