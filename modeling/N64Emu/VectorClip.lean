import N64Emu.VectorAccumulate

/-!
# Vector clip

VCH and VCR against the clamp of a lane between a bound and its negative.
-/

set_option autoImplicit false

namespace N64.RspVector

open Words

section Low

theorem laneBits_fromAccumulatorBits (raw : U64) :
    laneBits (fromAccumulatorBits raw) = raw.setWidth 16 := by
  have masked : (raw &&& kAccumulatorMask).toNat = raw.toNat % 2 ^ 48 := by
    rw [BitVec.toNat_and, show kAccumulatorMask.toNat = 2 ^ 48 - 1 from rfl,
      Nat.and_two_pow_sub_one_eq_mod]
  apply BitVec.eq_of_toNat_eq
  have value := laneBits_toNat (fromAccumulatorBits raw)
  rw [BitVec.toNat_setWidth]
  unfold fromAccumulatorBits at value ⊢
  simp only [masked, kAccumulatorModulus] at value ⊢
  split_ifs at value ⊢ <;> omega

theorem laneBits_replaceAccumulatorLow (acc : ℤ) (low : U16) :
    laneBits (replaceAccumulatorLow acc low) = low := by
  have cleared : (~~~0xFFFF#64).setWidth 16 = 0#16 := rfl
  have kept : (low.setWidth 64).setWidth 16 = low := by
    rw [BitVec.setWidth_setWidth_of_le _ (by decide), BitVec.setWidth_eq]
  rw [replaceAccumulatorLow, laneBits_fromAccumulatorBits, BitVec.setWidth_or, BitVec.setWidth_and,
    cleared, kept, BitVec.and_zero, BitVec.zero_or]

end Low

section Signs

theorem signedLane_not (x : U16) : signedLane (~~~x) = -signedLane x - 1 := by
  have := x.isLt
  rw [signedLane_eq, signedLane_eq, BitVec.toNat_not]
  split_ifs <;> omega

theorem signBit (x : U16) : x.getLsbD 15 = decide (signedLane x < 0) := by
  have small := x.isLt
  rw [BitVec.getLsbD, Nat.testBit_eq_decide_div_mod_eq, signedLane_eq]
  apply decide_eq_decide.mpr
  split_ifs <;> omega

theorem signs_eq (x y : U16) : ((x ^^^ y) &&& 0x8000 != 0) =
    (decide (signedLane x < 0) ^^ decide (signedLane y < 0)) := by
  rw [← signBit, ← signBit, ← BitVec.getLsbD_xor,
    show (0x8000 : U16) = BitVec.twoPow 16 15 from rfl, BitVec.and_twoPow]
  cases (x ^^^ y).getLsbD 15 <;> rfl

end Signs

section Clip

def chResult (x y : U16) : U16 :=
  let sign : Bool := (x ^^^ y) &&& 0x8000 != 0
  let corner : Bool := signedLane y = -32768
  let bits := if sign then ~~~y else y
  let bits := if sign && !corner then bits + 1 else bits
  let low : Bool := if sign then signedLane (bits - x) ≥ 0 else signedLane y < 0
  let high : Bool := (if sign then -1 else signedLane x) ≥ signedLane y
  if (if sign then low else high) then bits else x

def crResult (x y : U16) : U16 :=
  let sign : Bool := (x ^^^ y) &&& 0x8000 != 0
  let signMask : U16 := if sign then 0xFFFF else 0
  let low : Bool := signedLane y ≤ signedLane (~~~(x &&& signMask))
  let high : Bool := signedLane (x ||| signMask) ≥ signedLane y
  if (if sign then low else high) then y ^^^ signMask else x

variable {x y : U16}

theorem signs_of_bound (bound : 0 ≤ signedLane y) :
    ((x ^^^ y) &&& 0x8000 != 0) = decide (signedLane x < 0) := by
  have positive : ¬signedLane y < 0 := by omega
  rw [signs_eq, decide_eq_false positive, Bool.xor_false]

theorem negated_toNat (y : U16) : ((~~~y + 1).toNat : ℤ) = -(y.toNat : ℤ) % 2 ^ 16 := by
  have small := y.isLt
  rw [BitVec.toNat_add, BitVec.toNat_not]
  simp
  omega

theorem signedLane_neg (bound : 0 ≤ signedLane y) : signedLane (~~~y + 1) = -signedLane y := by
  have value := negated_toNat y
  have small := y.isLt
  rw [signedLane_eq] at bound ⊢
  rw [signedLane_eq]
  split_ifs at bound ⊢ <;> omega

theorem negated_sub (x y : U16) :
    ((~~~y + 1 - x).toNat : ℤ) = (-(y.toNat : ℤ) - x.toNat) % 2 ^ 16 := by
  have value := negated_toNat y
  have first := x.isLt
  rw [BitVec.toNat_sub]
  omega

/-- The difference of VCH is taken in sixteen bits: it overflows for the least
lane and a bound of zero. -/
theorem signedLane_chResult (bound : 0 ≤ signedLane y) : signedLane (chResult x y) =
    if signedLane x = -32768 ∧ signedLane y = 0 then -32768
    else max (-signedLane y) (min (signedLane x) (signedLane y)) := by
  have corner : ¬signedLane y = -32768 := by omega
  have sign := @signs_of_bound x y bound
  by_cases negative : signedLane x < 0
  · rw [decide_eq_true negative] at sign
    have low : signedLane (~~~y + 1 - x) ≥ 0 ↔
        signedLane x ≤ -signedLane y ∧ ¬(signedLane x = -32768 ∧ signedLane y = 0) := by
      have value := negated_sub x y
      have first := x.isLt
      have second := y.isLt
      rw [signedLane_eq] at bound negative
      rw [signedLane_eq, signedLane_eq, signedLane_eq]
      split_ifs at bound negative ⊢ <;> omega
    simp only [chResult, sign, decide_eq_false corner, Bool.not_false, Bool.and_true, if_true,
      decide_eq_true_eq, low]
    have range := signedLane_range x
    by_cases overflow : signedLane x = -32768 ∧ signedLane y = 0
    · rw [if_neg fun fits => fits.2 overflow, if_pos overflow]
      exact overflow.1
    · rw [if_neg overflow]
      split_ifs
      · rw [signedLane_neg bound]
        omega
      · omega
  · rw [decide_eq_false negative] at sign
    simp only [chResult, sign, Bool.false_and, Bool.false_eq_true, if_false, decide_eq_true_eq]
    split_ifs <;> omega

theorem signedLane_crResult (bound : 0 ≤ signedLane y) : signedLane (crResult x y) =
    max (-signedLane y - 1) (min (signedLane x) (signedLane y)) := by
  have sign := @signs_of_bound x y bound
  by_cases negative : signedLane x < 0
  · rw [decide_eq_true negative] at sign
    have masked : x &&& 0xFFFF = x := BitVec.and_allOnes
    have complement : y ^^^ 0xFFFF = ~~~y := BitVec.xor_allOnes
    simp only [crResult, sign, if_true, masked, complement, signedLane_not, decide_eq_true_eq]
    split_ifs
    · rw [signedLane_not]
      omega
    · omega
  · rw [decide_eq_false negative] at sign
    have plain : x ||| 0 = x := BitVec.or_zero
    have kept : y ^^^ 0 = y := BitVec.xor_zero
    simp only [crResult, sign, Bool.false_eq_true, if_false, plain, kept, decide_eq_true_eq]
    split_ifs <;> omega

end Clip

section Lanes

variable (t : VectorStep) (l : Fin 8) (ss st : Lanes)

def storeView (t : VectorStep) (lane : Fin 8) : U16 × U16 :=
  (t.result lane, laneBits (t.unit.accumulator lane))

theorem storeView_own : storeView (t.setAccumulatorLow l (t.result l)) l =
    (t.result l, t.result l) := by
  simp [storeView, VectorStep.setAccumulatorLow, VectorStep.setAccumulator,
    laneBits_replaceAccumulatorLow]

theorem storeView_other {l m : Fin 8} (apart : m ≠ l) (x : U16) :
    storeView (t.setAccumulatorLow l x) m = storeView t m := by
  simp [storeView, VectorStep.setAccumulatorLow, VectorStep.setAccumulator, apart]

def markExtension (extension : Bool) (lane : Fin 8) (t : VectorStep) : VectorStep :=
  if extension then { t with unit.vce := t.unit.vce ||| (1#8 <<< lane.val) } else t

theorem markExtension_result (extension : Bool) :
    (markExtension extension l t).result = t.result := by
  cases extension <;> rfl

theorem markExtension_accumulator (extension : Bool) :
    (markExtension extension l t).unit.accumulator = t.unit.accumulator := by
  cases extension <;> rfl

def chFlags (ss st : Lanes) (lane : Fin 8) (t : VectorStep) : VectorStep :=
  let a := signedLane (ss lane)
  let b := signedLane (st lane)
  let sign : Bool := (ss lane ^^^ st lane) &&& 0x8000 != 0
  let corner : Bool := b = -32768
  let bits := if sign then ~~~st lane else st lane
  let extension : Bool := sign && a = signedLane bits
  let bits := if sign && !corner then bits + 1 else bits
  let equal : Bool := (a = signedLane bits && !corner) || extension
  let low : Bool := if sign then signedLane (bits - ss lane) ≥ 0 else b < 0
  let high : Bool := (if sign then -1 else a) ≥ b
  let t := t.setResult lane (chResult (ss lane) (st lane))
  let t := t.setVcc lane low false
  let t := t.setVcc lane high true
  let t := t.setVco lane sign false
  markExtension extension lane (t.setVco lane (!equal) true)

theorem chLane_eq : chLane ss st l t =
    (chFlags ss st l t).setAccumulatorLow l ((chFlags ss st l t).result l) := rfl

theorem chFlags_result : (chFlags ss st l t).result =
    Function.update t.result l (chResult (ss l) (st l)) :=
  markExtension_result _ l _

theorem chFlags_accumulator : (chFlags ss st l t).unit.accumulator = t.unit.accumulator :=
  markExtension_accumulator _ l _

theorem forLanes_ch : storeView (forLanes (chLane ss st) t) l =
    (chResult (ss l) (st l), chResult (ss l) (st l)) := by
  apply forLanes_lane storeView fun l _ => (chResult (ss l) (st l), chResult (ss l) (st l))
  · intro l t
    rw [chLane_eq, storeView_own, chFlags_result, Function.update_self]
  · intro l m t apart
    rw [chLane_eq, storeView_other _ apart, storeView, storeView, chFlags_result,
      chFlags_accumulator, Function.update_of_ne apart]

def crFlags (ss st : Lanes) (lane : Fin 8) (t : VectorStep) : VectorStep :=
  let b := signedLane (st lane)
  let sign : Bool := (ss lane ^^^ st lane) &&& 0x8000 != 0
  let signMask : U16 := if sign then 0xFFFF else 0
  let low : Bool := b ≤ signedLane (~~~(ss lane &&& signMask))
  let high : Bool := signedLane (ss lane ||| signMask) ≥ b
  ((t.setResult lane (crResult (ss lane) (st lane))).setVcc lane low false).setVcc lane high true

theorem crLane_eq : crLane ss st l t =
    (crFlags ss st l t).setAccumulatorLow l ((crFlags ss st l t).result l) := rfl

theorem forLanes_cr : storeView (forLanes (crLane ss st) t) l =
    (crResult (ss l) (st l), crResult (ss l) (st l)) := by
  apply forLanes_lane storeView fun l _ => (crResult (ss l) (st l), crResult (ss l) (st l))
  · intro l t
    rw [crLane_eq, storeView_own]
    simp [crFlags, VectorStep.setResult, VectorStep.setVcc]
  · intro l m t apart
    rw [crLane_eq, storeView_other _ apart]
    simp [storeView, crFlags, VectorStep.setResult, VectorStep.setVcc, apart]

end Lanes

/-- The instruction writes `x` to the lane of its destination and to the lane's
low accumulator. -/
def Writes (v : VectorUnit) (insn : U32) (lane : Fin 8) (x : ℤ) : Prop :=
  signedLane ((execVector v insn).vpr (Insn.sa insn) lane) = x ∧
    signedLane (laneBits ((execVector v insn).accumulator lane)) = x

section Instructions

variable {insn : U32} (v : VectorUnit) (lane : Fin 8)

/-- An instruction whose lanes end with `r` in the result and in the low accumulator. -/
theorem writes_of_view {t : VectorStep} {r : U16}
    (step : vectorFunction (Insn.fn insn) (insn.extractLsb' 21 4) (Insn.rd insn) (Insn.rt insn)
      (Insn.sa insn) (v.vpr (Insn.rd insn)) (sourceT v insn) v = some t)
    (view : storeView t lane = (r, r)) (x : ℤ) : Writes v insn lane x ↔ signedLane r = x := by
  have result : (execVector v insn).vpr (Insn.sa insn) lane = t.result lane := by
    simp only [execVector_step v step, Function.update_self]
  have accumulator : (execVector v insn).accumulator lane = t.unit.accumulator lane := by
    rw [execVector_step v step]
  simp only [storeView, Prod.mk.injEq] at view
  rw [Writes, result, accumulator, view.1, view.2]
  exact and_self_iff

theorem writes_ch (h : Insn.fn insn = 0x25) (x : ℤ) : Writes v insn lane x ↔
    signedLane (chResult (sourceS v insn lane) (sourceT v insn lane)) = x := by
  have view := forLanes_ch { unit := { v with vcc := 0, vco := 0, vce := 0 } } lane
    (v.vpr (Insn.rd insn)) fun l => sourceT v insn l
  apply writes_of_view v lane _ view
  rw [h]
  rfl

def clearFlags (t : VectorStep) : VectorStep := { t with unit.vco := 0, unit.vce := 0 }

theorem storeView_clearFlags (t : VectorStep) :
    storeView (clearFlags t) lane = storeView t lane := rfl

theorem writes_cr (h : Insn.fn insn = 0x26) (x : ℤ) : Writes v insn lane x ↔
    signedLane (crResult (sourceS v insn lane) (sourceT v insn lane)) = x := by
  have view := forLanes_cr { unit := { v with vcc := 0 } } lane (v.vpr (Insn.rd insn))
    fun l => sourceT v insn l
  rw [← storeView_clearFlags] at view
  apply writes_of_view v lane _ view
  rw [h]
  rfl

end Instructions

/-- VCH clamps except for the least lane against zero, and VCR clamps. -/
theorem clip_clamps_iff (v : VectorUnit) (insn : U32) (lane : Fin 8)
    (bound : 0 ≤ signedLane (sourceT v insn lane)) :
    let a := signedLane (sourceS v insn lane)
    let b := signedLane (sourceT v insn lane)
    (Insn.fn insn = 0x25 →
      (Writes v insn lane (max (-b) (min a b)) ↔ ¬(a = -32768 ∧ b = 0))) ∧
    (Insn.fn insn = 0x26 → Writes v insn lane (max (-b - 1) (min a b))) := by
  intro a b
  constructor
  · intro vch
    rw [writes_ch v lane vch, signedLane_chResult bound]
    by_cases overflow : a = -32768 ∧ b = 0
    · rw [if_pos overflow, overflow.1, overflow.2]
      simp
    · rw [if_neg overflow]
      exact iff_of_true rfl overflow
  · intro vcr
    rw [writes_cr v lane vcr]
    exact signedLane_crResult bound

def clipOperands (a b : U16) : VectorUnit :=
  { vpr := fun r _ => if r = 1 then a else if r = 2 then b else 0 }

theorem clip_clamps_iff_largest :
    Writes (clipOperands 0x8000 0x7FFF) 0x4A0208E5 0 (-32767) ∧
      Writes (clipOperands 0x8000 0x7FFF) 0x4A0208E6 0 (-32768) := by
  have bound : 0 ≤ signedLane (sourceT (clipOperands 0x8000 0x7FFF) 0x4A0208E5 0) := by
    decide +kernel
  have vch := (clip_clamps_iff (clipOperands 0x8000 0x7FFF) 0x4A0208E5 0 bound).1 rfl
  have vcr := (clip_clamps_iff (clipOperands 0x8000 0x7FFF) 0x4A0208E6 0 bound).2 rfl
  exact ⟨vch.mpr (by decide +kernel), vcr⟩

/-- The least lane against zero is kept and not raised to zero. -/
theorem least_lane_differs :
    let v := clipOperands 0x8000 0
    let a := signedLane (sourceS v 0x4A0208E5 0)
    let b := signedLane (sourceT v 0x4A0208E5 0)
    0 ≤ b ∧ ¬Writes v 0x4A0208E5 0 (max (-b) (min a b)) ∧
      (execVector v 0x4A0208E5).vpr 3 0 = 0x8000 := by
  intro v a b
  have kept : (execVector v 0x4A0208E5).vpr 3 0 = 0x8000 := by decide +kernel
  refine ⟨by decide +kernel, ?_, kept⟩
  rintro ⟨result, -⟩
  exact absurd result (by decide +kernel)

end N64.RspVector
