import N64Emu.VectorLanes
import N64Emu.Runs
import Mathlib.Algebra.Order.Ring.Abs

/-!
# Multiply and accumulate

Any sequence of the twelve multiply instructions against the exact sum of its
products, and the four that make a 32-bit product.
-/

set_option autoImplicit false

namespace N64.RspVector

open Words

/-- VMULF, VMULU, VMUDL, VMUDM, VMUDN, VMUDH, VMACF, VMACU, VMADL, VMADM, VMADN, VMADH. -/
def multiplyFunctions : List ℕ :=
  [0x00, 0x01, 0x04, 0x05, 0x06, 0x07, 0x08, 0x09, 0x0C, 0x0D, 0x0E, 0x0F]

def sourceS (v : VectorUnit) (insn : U32) (lane : Fin 8) : U16 := v.vpr (Insn.rd insn) lane

def sourceT (v : VectorUnit) (insn : U32) (lane : Fin 8) : U16 :=
  v.vpr (Insn.rt insn) (elementSelect (insn.extractLsb' 21 4) lane)

def product (function : ℕ) (s t : U16) : ℤ :=
  match function with
  | 0x00 | 0x01 => 2 * (s.toInt * t.toInt) + 2 ^ 15
  | 0x08 | 0x09 => 2 * (s.toInt * t.toInt)
  | 0x04 | 0x0C => (s.toNat * t.toNat : ℤ) / 2 ^ 16
  | 0x05 | 0x0D => s.toInt * t.toNat
  | 0x06 | 0x0E => s.toNat * t.toInt
  | _ => s.toInt * t.toInt * 2 ^ 16

/-- The functions below 8 start a sum, the others add to it. -/
def exactStep (insn : U32) (v : VectorUnit) (lane : Fin 8) (sum : ℤ) : ℤ :=
  let p := product (Insn.fn insn) (sourceS v insn lane) (sourceT v insn lane)
  if Insn.fn insn < 8 then p else sum + p

/-- The unbounded sum of the products since the last instruction that started one. -/
def exactSum (lane : Fin 8) : List U32 → VectorUnit → ℤ → ℤ
  | [], _, sum => sum
  | insn :: insns, v, sum => exactSum lane insns (execVector v insn) (exactStep insn v lane sum)

def temporaries (function : ℕ) (s t : U16) (acc : ℤ) : List ℤ :=
  let ss := signedLane s
  let st := signedLane t
  let us : ℤ := s.toNat
  let ut : ℤ := t.toNat
  let wrapped := wrapAccumulator (multiply function s t acc)
  (match function with
  | 0x00 | 0x01 => [ss * st, ss * st * 2, ss * st * 2 + 0x8000]
  | 0x08 | 0x09 => [ss * st, ss * st * 2, acc + ss * st * 2]
  | 0x04 => [us * ut, us * ut / 0x10000]
  | 0x0C => [us * ut, us * ut / 0x10000, acc + us * ut / 0x10000]
  | 0x05 => [ss * ut]
  | 0x0D => [ss * ut, acc + ss * ut]
  | 0x06 => [us * st]
  | 0x0E => [us * st, acc + us * st]
  | 0x07 => [ss * st, ss * st * 0x10000]
  | _ => [ss * st, ss * st * 0x10000, acc + ss * st * 0x10000]) ++
    [wrapped, -wrapped, -wrapped + 0xFFFF]

def FitsS64 (x : ℤ) : Prop := -2 ^ 63 ≤ x ∧ x < 2 ^ 63

section Step

variable {function : ℕ} (v : VectorUnit) (insn : U32) (lane : Fin 8)

theorem vectorFunction_multiply (h : function ∈ multiplyFunctions) (element : BitVec 4)
    (vs vt vd : BitVec 5) (ss st : Lanes) :
    vectorFunction function element vs vt vd ss st v =
      some (forLanes (multiplyLane function ss st) { unit := v }) := by
  simp only [multiplyFunctions, List.mem_cons, List.not_mem_nil, or_false] at h
  rcases h with rfl | rfl | rfl | rfl | rfl | rfl | rfl | rfl | rfl | rfl | rfl | rfl <;> rfl

theorem forLanes_multiply (ss st : Lanes) (t : VectorStep) :
    let acc := wrapAccumulator (multiply function (ss lane) (st lane) (t.unit.accumulator lane))
    ((forLanes (multiplyLane function ss st) t).unit.accumulator lane,
      (forLanes (multiplyLane function ss st) t).result lane) =
        (acc, multiplyResult function acc) := by
  refine forLanes_lane (fun t l => (t.unit.accumulator l, t.result l))
    (fun l x => (wrapAccumulator (multiply function (ss l) (st l) x.1),
      multiplyResult function (wrapAccumulator (multiply function (ss l) (st l) x.1)))) ?_ ?_ t lane
  · intro l t
    simp [multiplyLane, VectorStep.setAccumulator, VectorStep.setResult]
  · intro l m t apart
    simp [multiplyLane, VectorStep.setAccumulator, VectorStep.setResult, apart]

variable {insn}

/-- An instruction is the step of its function and a write of its result. -/
theorem execVector_step {t : VectorStep}
    (step : vectorFunction (Insn.fn insn) (insn.extractLsb' 21 4) (Insn.rd insn) (Insn.rt insn)
      (Insn.sa insn) (v.vpr (Insn.rd insn)) (sourceT v insn) v = some t) :
    execVector v insn =
      { t.unit with vpr := Function.update t.unit.vpr (Insn.sa insn) t.result } := by
  unfold sourceT at step
  simp only [execVector, step]

theorem execVector_multiply (h : Insn.fn insn ∈ multiplyFunctions) :
    let acc := wrapAccumulator
      (multiply (Insn.fn insn) (sourceS v insn lane) (sourceT v insn lane) (v.accumulator lane))
    (execVector v insn).accumulator lane = acc ∧
      (execVector v insn).vpr (Insn.sa insn) lane = multiplyResult (Insn.fn insn) acc := by
  have lanes := @forLanes_multiply (Insn.fn insn) lane (v.vpr (Insn.rd insn))
    (sourceT v insn) { unit := v }
  simp only [Prod.mk.injEq] at lanes
  rw [execVector_step v (vectorFunction_multiply v h _ _ _ _ _ _)]
  simp only [Function.update_self]
  exact lanes

theorem multiply_eq (h : function ∈ multiplyFunctions) (s t : U16) (acc : ℤ) :
    multiply function s t acc =
      if function < 8 then product function s t else acc + product function s t := by
  simp only [multiplyFunctions, List.mem_cons, List.not_mem_nil, or_false] at h
  rcases h with rfl | rfl | rfl | rfl | rfl | rfl | rfl | rfl | rfl | rfl | rfl | rfl <;>
    simp [multiply, product, signedLane, mul_comm]

theorem accumulator_step (h : Insn.fn insn ∈ multiplyFunctions) {sum : ℤ}
    (start : v.accumulator lane = wrapAccumulator sum) :
    (execVector v insn).accumulator lane = wrapAccumulator (exactStep insn v lane sum) := by
  rw [(execVector_multiply v lane h).1, multiply_eq h, exactStep, start]
  split_ifs
  · rfl
  · simp only [wrapAccumulator_eq, Int.bmod_add_bmod]

end Step

section Bounds

theorem mul_bound {a b : ℤ} (ha : |a| ≤ 2 ^ 16) (hb : |b| ≤ 2 ^ 16) :
    -2 ^ 32 ≤ a * b ∧ a * b ≤ 2 ^ 32 := by
  have bound : |a * b| ≤ 2 ^ 16 * 2 ^ 16 := by
    rw [abs_mul]
    exact mul_le_mul ha hb (abs_nonneg b) (by norm_num)
  rw [abs_le] at bound
  omega

theorem signedLane_abs (x : U16) : |signedLane x| ≤ 2 ^ 16 := by
  have := signedLane_range x
  rw [abs_le]
  omega

theorem toNat_abs (x : U16) : |(x.toNat : ℤ)| ≤ 2 ^ 16 := by
  have := x.isLt
  rw [abs_le]
  omega

theorem temporaries_fit (function : ℕ) (s t : U16) {acc : ℤ} (low : -2 ^ 47 ≤ acc)
    (high : acc < 2 ^ 47) : ∀ x ∈ temporaries function s t acc, FitsS64 x := by
  have ss := mul_bound (signedLane_abs s) (signedLane_abs t)
  have su := mul_bound (signedLane_abs s) (toNat_abs t)
  have us := mul_bound (toNat_abs s) (signedLane_abs t)
  have uu := mul_bound (toNat_abs s) (toNat_abs t)
  have wrapped := wrapAccumulator_range (multiply function s t acc)
  intro x member
  unfold FitsS64
  rcases List.mem_append.mp member with first | last
  · split at first
    all_goals
      simp only [List.mem_cons, List.not_mem_nil, or_false] at first
      omega
  · simp only [List.mem_cons, List.not_mem_nil, or_false] at last
    omega

end Bounds

section Run

variable {insns : List U32} {lane : Fin 8}

theorem accumulator_run (multiplies : ∀ i ∈ insns, Insn.fn i ∈ multiplyFunctions) (v : VectorUnit)
    {sum : ℤ} (start : v.accumulator lane = wrapAccumulator sum) :
    (Runs.run (fun i v => execVector v i) insns v).accumulator lane =
      wrapAccumulator (exactSum lane insns v sum) := by
  induction insns generalizing v sum with
  | nil => exact start
  | cons i insns ih =>
    refine ih (fun j later => multiplies j (List.mem_cons_of_mem i later)) _ ?_
    exact accumulator_step v lane (multiplies i List.mem_cons_self) start

theorem temporaries_run (multiplies : ∀ i ∈ insns, Insn.fn i ∈ multiplyFunctions) (v : VectorUnit)
    (low : -2 ^ 47 ≤ v.accumulator lane) (high : v.accumulator lane < 2 ^ 47) :
    Runs.Along (fun i v => execVector v i)
      (fun i v => ∀ x ∈ temporaries (Insn.fn i) (sourceS v i lane) (sourceT v i lane)
        (v.accumulator lane), FitsS64 x) insns v := by
  induction insns generalizing v with
  | nil => trivial
  | cons i insns ih =>
    refine ⟨temporaries_fit _ _ _ low high, ?_⟩
    have next := (execVector_multiply v lane (multiplies i List.mem_cons_self)).1
    have range := wrapAccumulator_range (multiply (Insn.fn i) (sourceS v i lane)
      (sourceT v i lane) (v.accumulator lane))
    rw [← next] at range
    exact ih (fun j later => multiplies j (List.mem_cons_of_mem i later)) _ range.1 range.2

end Run

section Double

variable {A B : U32}

def highHalf (x : U32) : U16 := x.extractLsb' 16 16

def lowHalf (x : U32) : U16 := x.setWidth 16

def saturate32 (x : ℤ) : U32 := BitVec.ofInt 32 (clamp x (-2 ^ 31) (2 ^ 31 - 1))

theorem halves (x : U32) : x.toInt = signedLane (highHalf x) * 2 ^ 16 + (lowHalf x).toNat := by
  have small := x.isLt
  have low : (lowHalf x).toNat = x.toNat % 2 ^ 16 := BitVec.toNat_setWidth _ _
  have high : (highHalf x).toNat = x.toNat / 2 ^ 16 % 2 ^ 16 := by
    rw [highHalf, BitVec.extractLsb'_toNat, Nat.shiftRight_eq_div_pow]
  rw [signedLane_eq, low, high, BitVec.toInt_eq_toNat_cond]
  split_ifs <;> omega

theorem partial_products (A B : U32) :
    ((lowHalf A).toNat * (lowHalf B).toNat : ℤ) / 2 ^ 16 +
        signedLane (highHalf A) * (lowHalf B).toNat + (lowHalf A).toNat * signedLane (highHalf B) +
        signedLane (highHalf A) * signedLane (highHalf B) * 2 ^ 16 =
      A.toInt * B.toInt / 2 ^ 16 := by
  rw [halves A, halves B]
  generalize signedLane (highHalf A) = a
  generalize signedLane (highHalf B) = b
  generalize ((lowHalf A).toNat : ℤ) = c
  generalize ((lowHalf B).toNat : ℤ) = d
  have expanded : (a * 2 ^ 16 + c) * (b * 2 ^ 16 + d) =
      c * d + (a * d + c * b + a * b * 2 ^ 16) * 2 ^ 16 := by ring
  rw [expanded, Int.add_mul_ediv_right _ _ (by norm_num)]
  ring

theorem product_range (A B : U32) :
    -2 ^ 46 ≤ A.toInt * B.toInt / 2 ^ 16 ∧ A.toInt * B.toInt / 2 ^ 16 ≤ 2 ^ 46 := by
  have word : ∀ x : U32, |x.toInt| ≤ 2 ^ 31 := by
    intro x
    have low := BitVec.le_toInt x
    have high := BitVec.toInt_lt (x := x)
    rw [abs_le]
    omega
  have bound : |A.toInt * B.toInt| ≤ 2 ^ 31 * 2 ^ 31 := by
    rw [abs_mul]
    exact mul_le_mul (word A) (word B) (abs_nonneg _) (by norm_num)
  rw [abs_le] at bound
  omega

theorem signedAccumulatorClamp_eq (acc : ℤ) :
    signedAccumulatorClamp acc = highHalf (saturate32 acc) := by
  rw [← BitVec.toNat_inj]
  have left := laneBits_toNat (clamp (acc / 2 ^ 16) (-32768) 32767)
  have right : ((saturate32 acc).toNat : ℤ) = clamp acc (-2 ^ 31) (2 ^ 31 - 1) % 2 ^ 32 := by
    rw [saturate32, BitVec.toNat_ofInt]
    omega
  have high : (highHalf (saturate32 acc)).toNat = (saturate32 acc).toNat / 2 ^ 16 % 2 ^ 16 := by
    rw [highHalf, BitVec.extractLsb'_toNat, Nat.shiftRight_eq_div_pow]
  rw [signedAccumulatorClamp, signedClamp, accumulatorShift16_eq, high]
  unfold clamp at left right
  unfold clamp
  split_ifs at left right ⊢ <;> omega

theorem accumulatorLowClamp_eq (acc : ℤ) : accumulatorLowClamp acc = lowHalf (saturate32 acc) := by
  rw [← BitVec.toNat_inj]
  have left := laneBits_toNat acc
  have right : ((saturate32 acc).toNat : ℤ) = clamp acc (-2 ^ 31) (2 ^ 31 - 1) % 2 ^ 32 := by
    rw [saturate32, BitVec.toNat_ofInt]
    omega
  have low : (lowHalf (saturate32 acc)).toNat = (saturate32 acc).toNat % 2 ^ 16 :=
    BitVec.toNat_setWidth _ _
  have ones : (0xFFFF : U16).toNat = 0xFFFF := rfl
  have zeros : (0 : U16).toNat = 0 := rfl
  rw [accumulatorLowClamp, low]
  simp only [accumulatorShift16_eq]
  unfold clamp at right
  split_ifs at right ⊢ <;> omega

end Double

abbrev runVector (insns : List U32) (v : VectorUnit) : VectorUnit :=
  Runs.run (fun i v => execVector v i) insns v

/-- VMUDL, VMADM, VMADN and VMADH on the halves of two words, then VMADN by zero. -/
structure LongMultiply (i₁ i₂ i₃ i₄ i₅ : U32) (v : VectorUnit) (lane : Fin 8)
    (A B : U32) : Prop where
  vmudl : Insn.fn i₁ = 0x04 ∧ sourceS v i₁ lane = lowHalf A ∧ sourceT v i₁ lane = lowHalf B
  vmadm : Insn.fn i₂ = 0x0D ∧ sourceS (runVector [i₁] v) i₂ lane = highHalf A ∧
    sourceT (runVector [i₁] v) i₂ lane = lowHalf B
  vmadn : Insn.fn i₃ = 0x0E ∧ sourceS (runVector [i₁, i₂] v) i₃ lane = lowHalf A ∧
    sourceT (runVector [i₁, i₂] v) i₃ lane = highHalf B
  vmadh : Insn.fn i₄ = 0x0F ∧ sourceS (runVector [i₁, i₂, i₃] v) i₄ lane = highHalf A ∧
    sourceT (runVector [i₁, i₂, i₃] v) i₄ lane = highHalf B
  byZero : Insn.fn i₅ = 0x0E ∧ (sourceS (runVector [i₁, i₂, i₃, i₄] v) i₅ lane = 0 ∨
    sourceT (runVector [i₁, i₂, i₃, i₄] v) i₅ lane = 0)

section Long

variable {i₁ i₂ i₃ i₄ i₅ : U32} {v : VectorUnit} {lane : Fin 8} {A B : U32}

theorem LongMultiply.sum (h : LongMultiply i₁ i₂ i₃ i₄ i₅ v lane A B) (sum : ℤ) :
    exactSum lane [i₁, i₂, i₃, i₄] v sum = A.toInt * B.toInt / 2 ^ 16 := by
  obtain ⟨f₁, s₁, t₁⟩ := h.vmudl
  obtain ⟨f₂, s₂, t₂⟩ := h.vmadm
  obtain ⟨f₃, s₃, t₃⟩ := h.vmadn
  obtain ⟨f₄, s₄, t₄⟩ := h.vmadh
  simp only [runVector, Runs.run] at s₂ t₂ s₃ t₃ s₄ t₄
  rw [← partial_products A B]
  simp [exactSum, exactStep, product, f₁, f₂, f₃, f₄, s₁, t₁, s₂, t₂, s₃, t₃, s₄, t₄, signedLane]

theorem LongMultiply.accumulator (h : LongMultiply i₁ i₂ i₃ i₄ i₅ v lane A B)
    (low : -2 ^ 47 ≤ v.accumulator lane) (high : v.accumulator lane < 2 ^ 47) :
    (runVector [i₁, i₂, i₃, i₄] v).accumulator lane = A.toInt * B.toInt / 2 ^ 16 := by
  have multiplies : ∀ i ∈ [i₁, i₂, i₃, i₄], Insn.fn i ∈ multiplyFunctions := by
    intro i member
    simp only [List.mem_cons, List.not_mem_nil, or_false] at member
    rcases member with rfl | rfl | rfl | rfl
    · rw [h.vmudl.1]; decide
    · rw [h.vmadm.1]; decide
    · rw [h.vmadn.1]; decide
    · rw [h.vmadh.1]; decide
  have range := product_range A B
  rw [accumulator_run multiplies v (wrapAccumulator_of_range low high).symm, h.sum]
  exact wrapAccumulator_of_range (by omega) (by omega)

theorem LongMultiply.results (h : LongMultiply i₁ i₂ i₃ i₄ i₅ v lane A B)
    (low : -2 ^ 47 ≤ v.accumulator lane) (high : v.accumulator lane < 2 ^ 47) :
    (runVector [i₁, i₂, i₃, i₄] v).vpr (Insn.sa i₄) lane =
        highHalf (saturate32 (A.toInt * B.toInt / 2 ^ 16)) ∧
      (runVector [i₁, i₂, i₃, i₄, i₅] v).vpr (Insn.sa i₅) lane =
        lowHalf (saturate32 (A.toInt * B.toInt / 2 ^ 16)) := by
  have value := h.accumulator low high
  constructor
  · have last := @execVector_multiply (runVector [i₁, i₂, i₃] v) i₄ lane
      (by rw [h.vmadh.1]; decide)
    have same : runVector [i₁, i₂, i₃, i₄] v = execVector (runVector [i₁, i₂, i₃] v) i₄ := rfl
    rw [same] at value ⊢
    rw [last.2, ← last.1, value, h.vmadh.1]
    exact signedAccumulatorClamp_eq _
  · have last := @execVector_multiply (runVector [i₁, i₂, i₃, i₄] v) i₅ lane
      (by rw [h.byZero.1]; decide)
    have same : runVector [i₁, i₂, i₃, i₄, i₅] v = execVector (runVector [i₁, i₂, i₃, i₄] v) i₅ :=
      rfl
    have range := product_range A B
    have kept : multiply 0x0E (sourceS (runVector [i₁, i₂, i₃, i₄] v) i₅ lane)
        (sourceT (runVector [i₁, i₂, i₃, i₄] v) i₅ lane) (A.toInt * B.toInt / 2 ^ 16) =
          A.toInt * B.toInt / 2 ^ 16 := by
      rcases h.byZero.2 with zero | zero
      · simp [multiply, zero]
      · simp [multiply, zero, signedLane]
    rw [same, last.2, h.byZero.1, value, kept, wrapAccumulator_of_range (by omega) (by omega)]
    exact accumulatorLowClamp_eq _

end Long

/-- Each lane is the exact sum of products modulo 2^48, no temporary overflows,
and the four partial products make the 32-bit product. -/
theorem multiply_accumulate_exact :
    (∀ (insns : List U32) (v : VectorUnit) (lane : Fin 8),
      (∀ i ∈ insns, Insn.fn i ∈ multiplyFunctions) →
      -2 ^ 47 ≤ v.accumulator lane → v.accumulator lane < 2 ^ 47 →
      (∀ z : ℤ, z = (runVector insns v).accumulator lane ↔
        (-2 ^ 47 ≤ z ∧ z < 2 ^ 47) ∧
          z % 2 ^ 48 = exactSum lane insns v (v.accumulator lane) % 2 ^ 48) ∧
      Runs.Along (fun i v => execVector v i)
        (fun i v => ∀ x ∈ temporaries (Insn.fn i) (sourceS v i lane) (sourceT v i lane)
          (v.accumulator lane), FitsS64 x) insns v) ∧
    ∀ (i₁ i₂ i₃ i₄ i₅ : U32) (v : VectorUnit) (lane : Fin 8) (A B : U32),
      -2 ^ 47 ≤ v.accumulator lane → v.accumulator lane < 2 ^ 47 →
      LongMultiply i₁ i₂ i₃ i₄ i₅ v lane A B →
      (runVector [i₁, i₂, i₃, i₄] v).accumulator lane = A.toInt * B.toInt / 2 ^ 16 ∧
      (runVector [i₁, i₂, i₃, i₄] v).vpr (Insn.sa i₄) lane =
        highHalf (saturate32 (A.toInt * B.toInt / 2 ^ 16)) ∧
      (runVector [i₁, i₂, i₃, i₄, i₅] v).vpr (Insn.sa i₅) lane =
        lowHalf (saturate32 (A.toInt * B.toInt / 2 ^ 16)) := by
  constructor
  · intro insns v lane multiplies low high
    refine ⟨fun z => ?_, temporaries_run multiplies v low high⟩
    rw [accumulator_run multiplies v (wrapAccumulator_of_range low high).symm]
    generalize exactSum lane insns v (v.accumulator lane) = sum
    have range := wrapAccumulator_range sum
    have same := wrapAccumulator_emod sum
    constructor
    · rintro rfl
      exact ⟨range, same⟩
    · rintro ⟨inside, congruent⟩
      omega
  · intro i₁ i₂ i₃ i₄ i₅ v lane A B low high long
    exact ⟨long.accumulator low high, long.results low high⟩

/-- Registers 1 to 4 hold the halves of -3 and 0x28000 in every lane. -/
def longOperands : VectorUnit :=
  { vpr := fun r _ =>
      if r = 1 then 0xFFFF else if r = 2 then 0xFFFD else if r = 3 then 2 else if r = 4 then 0x8000
      else 0 }

theorem multiply_accumulate_minus_three :
    (runVector [0x4A041144, 0x4A04094D, 0x4A03114E, 0x4A03094F] longOperands).accumulator 0 = -8 ∧
      (∀ z : ℤ, z = (runVector [0x4A041144] longOperands).accumulator 0 ↔
        (-2 ^ 47 ≤ z ∧ z < 2 ^ 47) ∧
          z % 2 ^ 48 =
            exactSum 0 [0x4A041144] longOperands (longOperands.accumulator 0) % 2 ^ 48) := by
  have long : LongMultiply 0x4A041144 0x4A04094D 0x4A03114E 0x4A03094F 0x4A00014E longOperands 0
      0xFFFFFFFD 0x28000 := by
    refine ⟨⟨rfl, ?_, ?_⟩, ⟨rfl, ?_, ?_⟩, ⟨rfl, ?_, ?_⟩, ⟨rfl, ?_, ?_⟩, ⟨rfl, Or.inl ?_⟩⟩
    all_goals decide +kernel
  have value : (0xFFFFFFFD#32).toInt * (0x28000#32).toInt / 2 ^ 16 = -8 := by decide +kernel
  have inside : -2 ^ 47 ≤ longOperands.accumulator 0 ∧ longOperands.accumulator 0 < 2 ^ 47 := by
    decide +kernel
  have product := multiply_accumulate_exact.2 0x4A041144 0x4A04094D 0x4A03114E 0x4A03094F 0x4A00014E
    longOperands 0 0xFFFFFFFD 0x28000 inside.1 inside.2 long
  have multiplies : ∀ i ∈ [(0x4A041144 : U32)], Insn.fn i ∈ multiplyFunctions := by
    intro i member
    rw [List.mem_singleton.mp member]
    decide
  have sum := multiply_accumulate_exact.1 [0x4A041144] longOperands 0 multiplies inside.1 inside.2
  exact ⟨product.1.trans value, sum.1⟩

end N64.RspVector
