import N64Emu.VectorAccumulate

/-!
# Double-precision vector arithmetic

A word held as a high and a low lane is added, subtracted and compared by two
instructions. The carry, or the borrow and the inequality of the lows, goes
from the first to the second in the two halves of VCO.
-/

set_option autoImplicit false

namespace N64.RspVector

open Words

section Flags

theorem flagIndex_inj {l m : Fin 8} {h k : Bool} :
    flagIndex l h = flagIndex m k ↔ l = m ∧ h = k := by
  have first := l.isLt
  have second := m.isLt
  constructor
  · intro same
    unfold flagIndex at same
    cases h <;> cases k <;> simp at same ⊢ <;> omega
  · rintro ⟨rfl, rfl⟩
    rfl

theorem flagIndex_lt (l : Fin 8) (h : Bool) : flagIndex l h < 16 := by
  have := l.isLt
  unfold flagIndex
  split <;> omega

theorem getLsbD_flagMask (l m : Fin 8) (h k : Bool) :
    (1#16 <<< flagIndex l h).getLsbD (flagIndex m k) = decide (m = l ∧ k = h) := by
  have same := @flagIndex_inj m l k h
  have inside := flagIndex_lt m k
  rw [show (1#16 <<< flagIndex l h) = BitVec.twoPow 16 (flagIndex l h) from rfl,
    BitVec.getLsbD_twoPow]
  by_cases here : flagIndex l h = flagIndex m k
  · rw [decide_eq_true (same.mp here.symm), decide_eq_true here, decide_eq_true (flagIndex_lt l h)]
    rfl
  · rw [decide_eq_false fun both => here (same.mpr both).symm, decide_eq_false here, Bool.and_false]

theorem flag_setFlag (value : U16) (l m : Fin 8) (enabled h k : Bool) :
    flag (setFlag value l enabled h) m k = if m = l ∧ k = h then enabled else flag value m k := by
  have inside := flagIndex_lt m k
  have mask := getLsbD_flagMask l m h k
  cases enabled with
  | true =>
    show (value ||| (1#16 <<< flagIndex l h)).getLsbD (flagIndex m k) = _
    rw [BitVec.getLsbD_or, mask]
    by_cases both : m = l ∧ k = h
    · rw [if_pos both, decide_eq_true both, Bool.or_true]
    · rw [if_neg both, decide_eq_false both, Bool.or_false]
      rfl
  | false =>
    show (value &&& ~~~(1#16 <<< flagIndex l h)).getLsbD (flagIndex m k) = _
    rw [BitVec.getLsbD_and, BitVec.getLsbD_not, mask, decide_eq_true inside, Bool.true_and]
    by_cases both : m = l ∧ k = h
    · rw [if_pos both, decide_eq_true both, Bool.not_true, Bool.and_false]
    · rw [if_neg both, decide_eq_false both, Bool.not_false, Bool.and_true]
      rfl

end Flags

section Steps

variable (t : VectorStep) (l m : Fin 8) (x : U16) (enabled h : Bool)

namespace VectorStep

@[simp]
theorem store_result : (t.store l x).result m = if m = l then x else t.result m :=
  Function.update_apply _ _ _ _

@[simp]
theorem store_vco : (t.store l x).unit.vco = t.unit.vco := rfl

@[simp]
theorem store_vcc : (t.store l x).unit.vcc = t.unit.vcc := rfl

@[simp]
theorem setVco_result : (t.setVco l enabled h).result = t.result := rfl

@[simp]
theorem setVco_vco : (t.setVco l enabled h).unit.vco = setFlag t.unit.vco l enabled h := rfl

@[simp]
theorem setVcc_vco : (t.setVcc l enabled h).unit.vco = t.unit.vco := rfl

@[simp]
theorem setVcc_vcc : (t.setVcc l enabled h).unit.vcc = setFlag t.unit.vcc l enabled h := rfl

end VectorStep

def carryView (t : VectorStep) (lane : Fin 8) : Bool × Bool × U16 :=
  (flag t.unit.vco lane false, flag t.unit.vco lane true, t.result lane)

/-- The flags of a lane of VCO and its low flag of VCC. -/
def compareView (t : VectorStep) (lane : Fin 8) : Bool × Bool × Bool :=
  (flag t.unit.vco lane false, flag t.unit.vco lane true, flag t.unit.vcc lane false)

variable (ss st : Lanes)

theorem forLanes_addc : carryView (forLanes (addcLane ss st) t) l =
    (decide ((ss l).toNat + (st l).toNat > 0xFFFF), false,
      BitVec.ofNat 16 ((ss l).toNat + (st l).toNat)) := by
  apply forLanes_lane carryView fun l _ => (decide ((ss l).toNat + (st l).toNat > 0xFFFF), false,
    BitVec.ofNat 16 ((ss l).toNat + (st l).toNat))
  · intro l t
    simp [carryView, addcLane, flag_setFlag]
  · intro l m t apart
    simp [carryView, addcLane, flag_setFlag, apart]

theorem forLanes_subc : carryView (forLanes (subcLane ss st) t) l =
    (decide (((ss l).toNat : ℤ) - (st l).toNat < 0), decide (ss l ≠ st l),
      laneBits ((ss l).toNat - (st l).toNat)) := by
  apply forLanes_lane carryView fun l _ => (decide (((ss l).toNat : ℤ) - (st l).toNat < 0),
    decide (ss l ≠ st l), laneBits ((ss l).toNat - (st l).toNat))
  · intro l t
    simp [carryView, subcLane, flag_setFlag]
  · intro l m t apart
    simp [carryView, subcLane, flag_setFlag, apart]

theorem forLanes_add : (forLanes (addLane ss st) t).result l =
    signedClamp (signedLane (ss l) + signedLane (st l) +
      if flag t.unit.vco l false then 1 else 0) := by
  have lane : carryView (forLanes (addLane ss st) t) l =
      (flag t.unit.vco l false, flag t.unit.vco l true, signedClamp (signedLane (ss l) +
        signedLane (st l) + if flag t.unit.vco l false then 1 else 0)) := by
    apply forLanes_lane carryView fun l x => (x.1, x.2.1,
      signedClamp (signedLane (ss l) + signedLane (st l) + if x.1 then 1 else 0))
    · intro l t
      simp [carryView, addLane]
      rfl
    · intro l m t apart
      simp [carryView, addLane, apart]
  exact congrArg (fun x : Bool × Bool × U16 => x.2.2) lane

theorem forLanes_sub : (forLanes (subLane ss st) t).result l =
    signedClamp (signedLane (ss l) - signedLane (st l) -
      if flag t.unit.vco l false then 1 else 0) := by
  have lane : carryView (forLanes (subLane ss st) t) l =
      (flag t.unit.vco l false, flag t.unit.vco l true, signedClamp (signedLane (ss l) -
        signedLane (st l) - if flag t.unit.vco l false then 1 else 0)) := by
    apply forLanes_lane carryView fun l x => (x.1, x.2.1,
      signedClamp (signedLane (ss l) - signedLane (st l) - if x.1 then 1 else 0))
    · intro l t
      simp [carryView, subLane]
      rfl
    · intro l m t apart
      simp [carryView, subLane, apart]
  exact congrArg (fun x : Bool × Bool × U16 => x.2.2) lane

def holds (function : ℕ) (a b : ℤ) (carry ne : Bool) : Bool :=
  match function with
  | 0x20 => a < b ∨ (a = b ∧ ne ∧ carry)
  | 0x21 => a = b ∧ !ne
  | 0x22 => a ≠ b ∨ ne
  | _ => a > b ∨ (a = b ∧ !(ne && carry))

theorem forLanes_compare (function : ℕ) :
    flag (forLanes (compareLane function ss st) t).unit.vcc l false =
      holds function (signedLane (ss l)) (signedLane (st l)) (flag t.unit.vco l false)
        (flag t.unit.vco l true) := by
  have lane : compareView (forLanes (compareLane function ss st) t) l =
      (flag t.unit.vco l false, flag t.unit.vco l true,
        holds function (signedLane (ss l)) (signedLane (st l)) (flag t.unit.vco l false)
          (flag t.unit.vco l true)) := by
    apply forLanes_lane compareView fun l x => (x.1, x.2.1,
      holds function (signedLane (ss l)) (signedLane (st l)) x.1 x.2.1)
    · intro l t
      simp only [compareView, compareLane, VectorStep.store_vco, VectorStep.store_vcc,
        VectorStep.setVcc_vco, VectorStep.setVcc_vcc, flag_setFlag, and_self, if_true]
      rfl
    · intro l m t apart
      simp [compareView, compareLane, flag_setFlag, apart]
  exact congrArg (fun x : Bool × Bool × Bool => x.2.2) lane

end Steps

section Instructions

variable {insn : U32} (v : VectorUnit) (lane : Fin 8)

def lanesT (v : VectorUnit) (insn : U32) : Lanes := fun lane => sourceT v insn lane

theorem execVector_addc (h : Insn.fn insn = 0x14) :
    flag (execVector v insn).vco lane false =
        decide ((sourceS v insn lane).toNat + (sourceT v insn lane).toNat > 0xFFFF) ∧
      (execVector v insn).vpr (Insn.sa insn) lane =
        BitVec.ofNat 16 ((sourceS v insn lane).toNat + (sourceT v insn lane).toNat) := by
  have view := forLanes_addc { unit := v } lane (v.vpr (Insn.rd insn)) (lanesT v insn)
  simp only [carryView, Prod.mk.injEq] at view
  rw [execVector_step v (by rw [h]; rfl)]
  simp only [Function.update_self]
  exact ⟨view.1, view.2.2⟩

theorem execVector_subc (h : Insn.fn insn = 0x15) :
    flag (execVector v insn).vco lane false =
        decide (((sourceS v insn lane).toNat : ℤ) - (sourceT v insn lane).toNat < 0) ∧
      flag (execVector v insn).vco lane true = decide (sourceS v insn lane ≠ sourceT v insn lane) ∧
      (execVector v insn).vpr (Insn.sa insn) lane =
        laneBits ((sourceS v insn lane).toNat - (sourceT v insn lane).toNat) := by
  have view := forLanes_subc { unit := v } lane (v.vpr (Insn.rd insn)) (lanesT v insn)
  simp only [carryView, Prod.mk.injEq] at view
  rw [execVector_step v (by rw [h]; rfl)]
  simp only [Function.update_self]
  exact view

theorem execVector_add (h : Insn.fn insn = 0x10) :
    (execVector v insn).vpr (Insn.sa insn) lane = signedClamp (signedLane (sourceS v insn lane) +
        signedLane (sourceT v insn lane) + if flag v.vco lane false then 1 else 0) ∧
      (execVector v insn).vco = 0 := by
  have result := forLanes_add { unit := v } lane (v.vpr (Insn.rd insn)) (lanesT v insn)
  rw [execVector_step v (by rw [h]; rfl)]
  simp only [Function.update_self]
  exact ⟨result, trivial⟩

theorem execVector_sub (h : Insn.fn insn = 0x11) :
    (execVector v insn).vpr (Insn.sa insn) lane = signedClamp (signedLane (sourceS v insn lane) -
        signedLane (sourceT v insn lane) - if flag v.vco lane false then 1 else 0) ∧
      (execVector v insn).vco = 0 := by
  have result := forLanes_sub { unit := v } lane (v.vpr (Insn.rd insn)) (lanesT v insn)
  rw [execVector_step v (by rw [h]; rfl)]
  simp only [Function.update_self]
  exact ⟨result, trivial⟩

def compareFunctions : List ℕ := [0x20, 0x21, 0x22, 0x23]

/-- A comparison clears VCC before its lanes and the other flags after them. -/
def compareStep (function : ℕ) (ss st : Lanes) (v : VectorUnit) : VectorStep :=
  let t := forLanes (compareLane function ss st) { unit := { v with vcc := 0 } }
  { t with unit.vco := 0, unit.vce := 0 }

theorem vectorFunction_compare {function : ℕ} (h : function ∈ compareFunctions)
    (element : BitVec 4) (vs vt vd : BitVec 5) (ss st : Lanes) :
    vectorFunction function element vs vt vd ss st v = some (compareStep function ss st v) := by
  simp only [compareFunctions, List.mem_cons, List.not_mem_nil, or_false] at h
  rcases h with rfl | rfl | rfl | rfl <;> rfl

theorem execVector_compare (h : Insn.fn insn ∈ compareFunctions) :
    flag (execVector v insn).vcc lane false =
        holds (Insn.fn insn) (signedLane (sourceS v insn lane)) (signedLane (sourceT v insn lane))
          (flag v.vco lane false) (flag v.vco lane true) ∧
      (execVector v insn).vco = 0 := by
  have result := forLanes_compare { unit := { v with vcc := 0 } } lane (v.vpr (Insn.rd insn))
    (lanesT v insn) (Insn.fn insn)
  simp only [execVector_step v (vectorFunction_compare v h _ _ _ _ _ _)]
  exact ⟨result, rfl⟩

theorem execVector_other (h : Insn.fn insn = 0x10 ∨ Insn.fn insn = 0x11) {r : BitVec 5}
    (other : r ≠ Insn.sa insn) : (execVector v insn).vpr r = v.vpr r := by
  have kept (body : Fin 8 → VectorStep → VectorStep)
      (same : ∀ l t, (body l t).unit.vpr = t.unit.vpr) :
      (forLanes body { unit := v }).unit.vpr r = v.vpr r :=
    congrFun (forLanes_frame (fun t => t.unit.vpr) same { unit := v }) r
  rcases h with h | h
  · rw [execVector_step v (by rw [h]; rfl)]
    simp only [Function.update_of_ne other]
    exact kept _ fun _ _ => rfl
  · rw [execVector_step v (by rw [h]; rfl)]
    simp only [Function.update_of_ne other]
    exact kept _ fun _ _ => rfl

end Instructions

section Words

variable {A B : U32}

theorem signedLane_signedClamp (x : ℤ) : signedLane (signedClamp x) = clamp x (-32768) 32767 := by
  have bits := laneBits_toNat (clamp x (-32768) 32767)
  rw [signedClamp, signedLane_eq]
  unfold clamp at bits ⊢
  split_ifs at bits ⊢ <;> omega

/-- The pair is `x` when `x` is a signed 32-bit word; the high half is the
bound on the side of `x` when it is not. -/
def Yields (x : ℤ) (high low : U16) : Prop :=
  (signedLane high * 2 ^ 16 + low.toNat = x ↔ -2 ^ 31 ≤ x ∧ x < 2 ^ 31) ∧
    (2 ^ 31 ≤ x → high = 0x7FFF) ∧ (x < -2 ^ 31 → high = 0x8000)

theorem yields_of_split {x h : ℤ} {low : U16} (split : x = h * 2 ^ 16 + low.toNat) :
    Yields x (signedClamp h) low := by
  have small := low.isLt
  have value := signedLane_signedClamp h
  refine ⟨?_, ?_, ?_⟩
  · rw [value]
    unfold clamp
    split_ifs <;> omega
  · intro above
    have bound : clamp h (-32768) 32767 = 32767 := by
      unfold clamp
      split_ifs <;> omega
    rw [signedClamp, bound]
    rfl
  · intro below
    have bound : clamp h (-32768) 32767 = -32768 := by
      unfold clamp
      split_ifs <;> omega
    rw [signedClamp, bound]
    rfl

theorem sum_split (A B : U32) : A.toInt + B.toInt =
    (signedLane (highHalf A) + signedLane (highHalf B) +
      if (lowHalf A).toNat + (lowHalf B).toNat > 0xFFFF then 1 else 0) * 2 ^ 16 +
    (BitVec.ofNat 16 ((lowHalf A).toNat + (lowHalf B).toNat)).toNat := by
  have first := (lowHalf A).isLt
  have second := (lowHalf B).isLt
  rw [halves A, halves B, BitVec.toNat_ofNat]
  split_ifs <;> omega

theorem difference_split (A B : U32) : A.toInt - B.toInt =
    (signedLane (highHalf A) - signedLane (highHalf B) -
      if ((lowHalf A).toNat : ℤ) - (lowHalf B).toNat < 0 then 1 else 0) * 2 ^ 16 +
    (laneBits ((lowHalf A).toNat - (lowHalf B).toNat)).toNat := by
  have first := (lowHalf A).isLt
  have second := (lowHalf B).isLt
  rw [halves A, halves B, laneBits_toNat]
  split_ifs <;> omega

def Relates (function : ℕ) (a b : ℤ) : Prop :=
  match function with
  | 0x20 => a < b
  | 0x21 => a = b
  | 0x22 => a ≠ b
  | _ => a ≥ b

theorem holds_iff (function : ℕ) (A B : U32) :
    holds function (signedLane (highHalf A)) (signedLane (highHalf B))
        (decide (((lowHalf A).toNat : ℤ) - (lowHalf B).toNat < 0))
        (decide (lowHalf A ≠ lowHalf B)) = true ↔ Relates function A.toInt B.toInt := by
  have first := (lowHalf A).isLt
  have second := (lowHalf B).isLt
  have lows : lowHalf A = lowHalf B ↔ (lowHalf A).toNat = (lowHalf B).toNat := BitVec.toNat_inj.symm
  rw [halves A, halves B]
  unfold holds Relates
  split <;> simp [lows] <;> omega

end Words

/-- The halves of two words, where the two instructions read them. -/
structure DoubleOperands (low high : U32) (v : VectorUnit) (lane : Fin 8) (A B : U32) : Prop where
  lows : sourceS v low lane = lowHalf A ∧ sourceT v low lane = lowHalf B
  highs : sourceS (execVector v low) high lane = highHalf A ∧
    sourceT (execVector v low) high lane = highHalf B

/-- VADDC and VADD add two words, VSUBC and VSUB subtract them, and VSUBC and a
comparison compare them. -/
theorem double_precision (v : VectorUnit) (low high : U32) (lane : Fin 8) (A B : U32)
    (held : DoubleOperands low high v lane A B) :
    let u := execVector v low
    let w := execVector u high
    (Insn.fn low = 0x14 → Insn.fn high = 0x10 →
      Yields (A.toInt + B.toInt) (w.vpr (Insn.sa high) lane) (u.vpr (Insn.sa low) lane) ∧
        (Insn.sa low ≠ Insn.sa high → w.vpr (Insn.sa low) = u.vpr (Insn.sa low)) ∧ w.vco = 0) ∧
    (Insn.fn low = 0x15 → Insn.fn high = 0x11 →
      Yields (A.toInt - B.toInt) (w.vpr (Insn.sa high) lane) (u.vpr (Insn.sa low) lane) ∧
        (Insn.sa low ≠ Insn.sa high → w.vpr (Insn.sa low) = u.vpr (Insn.sa low)) ∧ w.vco = 0) ∧
    (Insn.fn low = 0x15 → Insn.fn high ∈ compareFunctions →
      (flag w.vcc lane false = true ↔ Relates (Insn.fn high) A.toInt B.toInt) ∧ w.vco = 0) := by
  intro u w
  obtain ⟨⟨lowA, lowB⟩, highA, highB⟩ := held
  refine ⟨?_, ?_, ?_⟩
  · intro addc add
    obtain ⟨carry, lowResult⟩ := execVector_addc v lane addc
    obtain ⟨highResult, cleared⟩ := execVector_add u lane add
    rw [lowA, lowB] at carry lowResult
    rw [highA, highB, carry] at highResult
    simp only [decide_eq_true_eq] at highResult
    refine ⟨?_, execVector_other u (Or.inl add), cleared⟩
    rw [highResult, lowResult]
    exact yields_of_split (sum_split A B)
  · intro subc sub
    obtain ⟨borrow, -, lowResult⟩ := execVector_subc v lane subc
    obtain ⟨highResult, cleared⟩ := execVector_sub u lane sub
    rw [lowA, lowB] at borrow lowResult
    rw [highA, highB, borrow] at highResult
    simp only [decide_eq_true_eq] at highResult
    refine ⟨?_, execVector_other u (Or.inr sub), cleared⟩
    rw [highResult, lowResult]
    exact yields_of_split (difference_split A B)
  · intro subc compare
    obtain ⟨borrow, unequal, -⟩ := execVector_subc v lane subc
    obtain ⟨condition, cleared⟩ := execVector_compare u lane compare
    rw [lowA, lowB] at borrow unequal
    rw [highA, highB, borrow, unequal] at condition
    refine ⟨?_, cleared⟩
    rw [condition]
    exact holds_iff (Insn.fn high) A B

/-- Registers 1 to 4 hold the lows and the highs of two words in every lane. -/
def pairOperands (A B : U32) : VectorUnit :=
  { vpr := fun r _ =>
      if r = 1 then lowHalf A else if r = 2 then lowHalf B else if r = 3 then highHalf A
      else if r = 4 then highHalf B else 0 }

/-- The sum of the largest word and one saturates, their difference does not,
and one is less. -/
theorem double_precision_largest :
    (runVector [0x4A020954, 0x4A041990] (pairOperands 0x7FFFFFFF 1)).vpr 6 0 = 0x7FFF ∧
    signedLane ((runVector [0x4A020955, 0x4A041991] (pairOperands 0x7FFFFFFF 1)).vpr 6 0) * 2 ^ 16 +
      ((runVector [0x4A020955] (pairOperands 0x7FFFFFFF 1)).vpr 5 0).toNat = 0x7FFFFFFE ∧
    flag (runVector [0x4A020955, 0x4A0419A0] (pairOperands 1 0x7FFFFFFF)).vcc 0 false = true := by
  refine ⟨?_, ?_, ?_⟩
  · have sum := (double_precision (pairOperands 0x7FFFFFFF 1) 0x4A020954 0x4A041990 0 0x7FFFFFFF 1
      ⟨by decide +kernel, by decide +kernel⟩).1 rfl rfl
    exact sum.1.2.1 (by decide +kernel)
  · have difference := (double_precision (pairOperands 0x7FFFFFFF 1) 0x4A020955 0x4A041991 0
      0x7FFFFFFF 1 ⟨by decide +kernel, by decide +kernel⟩).2.1 rfl rfl
    exact difference.1.1.mpr (by decide +kernel)
  · have less := (double_precision (pairOperands 1 0x7FFFFFFF) 0x4A020955 0x4A0419A0 0 1
      0x7FFFFFFF ⟨by decide +kernel, by decide +kernel⟩).2.2 rfl (by decide)
    exact less.1.mpr (show (1#32).toInt < (0x7FFFFFFF#32).toInt by decide)

end N64.RspVector
