import N64Emu.StepEffect

/-!
# Exception entry

The registers `raise_exception` sets, and what of them the end of the step
leaves alone.
-/

set_option autoImplicit false

namespace N64.Cpu

open Words

def excCode (c : Cpu) : U32 := (c.cop0 Cop0Reg.Cause &&& 0x7C) >>> 2

def bd (c : Cpu) : Bool := c.cop0 Cop0Reg.Cause &&& CAUSE_BD != 0

def exl (c : Cpu) : Bool := c.status &&& SR_EXL != 0

def bev (c : Cpu) : Bool := c.status &&& SR_BEV != 0

theorem cop0_setCop0Reg (c : Cpu) (i j : BitVec 5) (v : U32) :
    (c.setCop0Reg i v).cop0 j = if j = i then v else c.cop0 j :=
  Function.update_apply _ _ _ _

section Entry

variable (c : Cpu) (code ce : U32) (bad : U64) (refill : Bool)

theorem cop0Only_setCop0Reg (i : BitVec 5) (v : U32) : Cop0Only c (c.setCop0Reg i v) := rfl

variable {c} in
theorem Cop0Only.trans {d e : Cpu} (h : Cop0Only c d) (k : Cop0Only d e) : Cop0Only c e := by
  rw [Cop0Only] at h k ⊢
  rw [k, h]

theorem cop0Only_enterCause : Cop0Only c (enterCause c code ce) := by
  simp only [enterCause]
  split_ifs <;> rfl

theorem cop0Only_enterBadVaddr : Cop0Only c (enterBadVaddr c code bad) := by
  simp only [enterBadVaddr]
  split_ifs <;> rfl

/-- The CPU with the registers of an exception entry, before it is redirected. -/
def entered : Cpu :=
  (enterBadVaddr (enterCause { c with exceptionCount := c.exceptionCount + 1 } code ce) code
    bad).setCop0Reg Cop0Reg.Status (c.status ||| SR_EXL)

theorem raiseException_eq : c.raiseException code bad ce refill =
    { c.entered code ce bad with
        pc := exceptionVector c.status refill
        nextPc := exceptionVector c.status refill + 4
        branchPending := false
        llBit := false } := rfl

theorem cop0Only_entered :
    Cop0Only { c with exceptionCount := c.exceptionCount + 1 } (c.entered code ce bad) :=
  ((cop0Only_enterCause _ code ce).trans (cop0Only_enterBadVaddr _ code bad)).trans
    (cop0Only_setCop0Reg _ _ _)

theorem raiseException_with : c.raiseException code bad ce refill =
    { c with
        cop0 := (c.entered code ce bad).cop0
        pc := exceptionVector c.status refill
        nextPc := exceptionVector c.status refill + 4
        branchPending := false
        llBit := false
        exceptionCount := c.exceptionCount + 1 } := by
  rw [raiseException_eq, cop0Only_entered c code ce bad]

theorem enterBadVaddr_cop0 {i : BitVec 5} (other : i ≠ Cop0Reg.BadVAddr ∧ i ≠ Cop0Reg.Context ∧
    i ≠ Cop0Reg.EntryHi) : (enterBadVaddr c code bad).cop0 i = c.cop0 i := by
  simp only [enterBadVaddr]
  split_ifs <;> simp [cop0_setCop0Reg, other]

/-- Cause at entry, before its BD bit is settled. -/
def entryCause (cause : U32) : U32 :=
  ((cause &&& ~~~0x7C#32) ||| ((code &&& 0x1F) <<< 2)) &&& ~~~(0x3#32 <<< 28) |||
    ((ce &&& 0x3) <<< 28)

theorem entered_cause : (c.entered code ce bad).cop0 Cop0Reg.Cause =
    if c.status &&& SR_EXL = 0 then
      if c.inDelaySlot then entryCause code ce (c.cop0 Cop0Reg.Cause) ||| CAUSE_BD
      else entryCause code ce (c.cop0 Cop0Reg.Cause) &&& ~~~CAUSE_BD
    else entryCause code ce (c.cop0 Cop0Reg.Cause) := by
  rw [entered, cop0_setCop0Reg, if_neg (by decide), enterBadVaddr_cop0 _ _ _ (by decide)]
  simp only [enterCause, entryCause, status]
  by_cases clear : c.cop0 Cop0Reg.Status &&& SR_EXL = 0
  · simp only [if_pos clear]
    split <;> simp [cop0_setCop0Reg]
  · simp only [if_neg clear]
    simp only [cop0_setCop0Reg, if_true]
    exact (if_neg clear).symm

theorem entered_epc : (c.entered code ce bad).cop0 Cop0Reg.EPC =
    if c.status &&& SR_EXL = 0 then
      if c.inDelaySlot then (c.pc - 4).setWidth 32 else c.pc.setWidth 32
    else c.cop0 Cop0Reg.EPC := by
  rw [entered, cop0_setCop0Reg, if_neg (by decide), enterBadVaddr_cop0 _ _ _ (by decide)]
  have apart : Cop0Reg.EPC ≠ Cop0Reg.Cause := by decide
  simp only [enterCause, status]
  by_cases clear : c.cop0 Cop0Reg.Status &&& SR_EXL = 0
  · simp only [if_pos clear]
    split <;> simp [cop0_setCop0Reg, apart]
  · simp only [if_neg clear]
    simp only [cop0_setCop0Reg, apart, if_false]
    exact (if_neg clear).symm

theorem entered_status : (c.entered code ce bad).status = c.status ||| SR_EXL :=
  (cop0_setCop0Reg _ _ _ _).trans (if_pos rfl)

theorem entered_badVaddr (tlb : isTlbException code = true) :
    (c.entered code ce bad).cop0 Cop0Reg.BadVAddr = bad.setWidth 32 := by
  rw [entered, cop0_setCop0Reg, if_neg (by decide)]
  simp [enterBadVaddr, tlb, cop0_setCop0Reg, show Cop0Reg.BadVAddr ≠ Cop0Reg.EntryHi from by decide,
    show Cop0Reg.BadVAddr ≠ Cop0Reg.Context from by decide]

theorem exceptionVector_eq (sr : U32) : exceptionVector sr refill =
    if refill = true ∧ sr &&& SR_EXL = 0 then
      (if sr &&& SR_BEV ≠ 0 then 0xBFC00200 else 0x80000000)
    else if sr &&& SR_BEV ≠ 0 then 0xBFC00380 else 0x80000180 := by
  simp only [exceptionVector, decide_eq_true_eq]

end Entry

section Retire

variable (c : Cpu)

theorem cop0Only_advanceCount : Cop0Only c c.advanceCount := by
  simp only [advanceCount, bumpCount]
  split <;> rfl

theorem retire_with : c.retire =
    { c with
        gpr := Function.update c.gpr 0 0
        cop0 := c.retire.cop0
        cycles := c.cycles + 1
        inDelaySlot := false } := by
  rw [retire, cop0Only_advanceCount { c with gpr := Function.update c.gpr 0 0 }]

@[simp]
theorem retire_pc : c.retire.pc = c.pc := by
  rw [retire_with]

@[simp]
theorem retire_branchPending : c.retire.branchPending = c.branchPending := by
  rw [retire_with]

@[simp]
theorem retire_exceptionCount : c.retire.exceptionCount = c.exceptionCount := by
  rw [retire_with]

@[simp]
theorem retire_llBit : c.retire.llBit = c.llBit := by
  rw [retire_with]

@[simp]
theorem retire_llAddr : c.retire.llAddr = c.llAddr := by
  rw [retire_with]

theorem advanceCount_cop0 {i : BitVec 5} (other : i ≠ Cop0Reg.Random) :
    c.advanceCount.cop0 i = c.bumpCount.cop0 i :=
  Function.update_of_ne other _ _

theorem retire_cop0 {i : BitVec 5} (other : i ≠ Cop0Reg.Count ∧ i ≠ Cop0Reg.Random ∧
    i ≠ Cop0Reg.Cause) : c.retire.cop0 i = c.cop0 i := by
  refine (advanceCount_cop0 _ other.2.1).trans ?_
  simp only [bumpCount]
  split <;> simp [cop0_setCop0Reg, other]

theorem bumpCount_cause : c.bumpCount.cop0 Cop0Reg.Cause = c.cop0 Cop0Reg.Cause ∨
    c.bumpCount.cop0 Cop0Reg.Cause = c.cop0 Cop0Reg.Cause ||| CAUSE_IP7 := by
  have apart : Cop0Reg.Cause ≠ Cop0Reg.Count := by decide
  simp only [bumpCount]
  split
  · exact Or.inr (by simp [cop0_setCop0Reg, apart])
  · exact Or.inl (by simp [cop0_setCop0Reg, apart])

theorem retire_cause : c.retire.cop0 Cop0Reg.Cause = c.cop0 Cop0Reg.Cause ∨
    c.retire.cop0 Cop0Reg.Cause = c.cop0 Cop0Reg.Cause ||| CAUSE_IP7 := by
  have apart : Cop0Reg.Cause ≠ Cop0Reg.Random := by decide
  have bumped := advanceCount_cop0 { c with gpr := Function.update c.gpr 0 0 } apart
  rcases bumpCount_cause { c with gpr := Function.update c.gpr 0 0 } with same | set
  · exact Or.inl (bumped.trans same)
  · exact Or.inr (bumped.trans set)

theorem retire_cause_and {m : U32} (apart : CAUSE_IP7 &&& m = 0) :
    c.retire.cop0 Cop0Reg.Cause &&& m = c.cop0 Cop0Reg.Cause &&& m := by
  rcases c.retire_cause with same | set
  · rw [same]
  · rw [set, or_and_of_disjoint _ apart]

end Retire

section Fields

theorem entryCause_code {code ce cause : U32} (field : code &&& 0x1F = code) :
    (entryCause code ce cause &&& (0x7C : U32)) >>> 2 = code := by
  have apart : ((ce &&& 0x3) <<< 28) &&& (0x7C : U32) = 0 := by
    refine BitVec.eq_of_getLsbD_eq fun i hi => ?_
    interval_cases i <;> simp
  have whole : ((code &&& 0x1F) <<< 2) &&& 0x7C#32 = (code &&& 0x1F) <<< 2 := by
    rw [show 0x7C#32 = 0x1F#32 <<< 2 from rfl, ← BitVec.shiftLeft_and_distrib, BitVec.and_assoc]
    rfl
  have clear : (cause &&& ~~~0x7C#32) &&& (0x7C : U32) = 0 := by
    rw [BitVec.and_assoc, show ~~~0x7C#32 &&& (0x7C : U32) = 0 from rfl]
    exact BitVec.and_zero
  have code_ : entryCause code ce cause &&& (0x7C : U32) = (code &&& 0x1F) <<< 2 := by
    rw [entryCause, or_and_of_disjoint _ apart, andNot_and_of_disjoint _ (by rfl),
      BitVec.and_or_distrib_right, clear]
    exact (congrArg (0 ||| ·) whole).trans BitVec.zero_or
  have small : code.toNat < 32 := by
    rw [← field, BitVec.toNat_and]
    exact Nat.and_lt_two_pow (n := 5) _ (by decide)
  rw [code_, field]
  apply BitVec.eq_of_toNat_eq
  simp only [BitVec.toNat_ushiftRight, BitVec.toNat_shiftLeft, Nat.shiftRight_eq_div_pow,
    Nat.shiftLeft_eq]
  omega

theorem shifted_inside (x k : U32) (n : ℕ) : ((x &&& k) <<< n) &&& (k <<< n) = (x &&& k) <<< n := by
  rw [← BitVec.shiftLeft_and_distrib, BitVec.and_assoc, BitVec.and_self]

theorem and_of_inside {x field m : U32} (inside : x &&& field = x) (apart : field &&& m = 0) :
    x &&& m = 0 := by
  rw [← inside, BitVec.and_assoc, apart]
  exact BitVec.and_zero

/-- The bits of Cause that an exception entry writes. -/
def CAUSE_ENTRY : U32 := 0xB000007C

theorem raiseException_cause_and (c : Cpu) (code ce : U32) (bad : U64) (refill : Bool) {m : U32}
    (apart : CAUSE_ENTRY &&& m = 0) :
    (c.raiseException code bad ce refill).cop0 Cop0Reg.Cause &&& m =
      c.cop0 Cop0Reg.Cause &&& m := by
  have outside {field : U32} (part : field &&& CAUSE_ENTRY = field) : field &&& m = 0 :=
    and_of_inside part apart
  have unit : ((ce &&& 0x3) <<< 28) &&& m = 0 :=
    and_of_inside (shifted_inside ce 0x3 28) (outside rfl)
  have excCode : ((code &&& 0x1F) <<< 2) &&& m = 0 :=
    and_of_inside (shifted_inside code 0x1F 2) (outside rfl)
  have kept : entryCause code ce (c.cop0 Cop0Reg.Cause) &&& m = c.cop0 Cop0Reg.Cause &&& m := by
    rw [entryCause, or_and_of_disjoint _ unit, andNot_and_of_disjoint _ (outside rfl),
      or_and_of_disjoint _ excCode, andNot_and_of_disjoint _ (outside rfl)]
  rw [raiseException_eq]
  show (c.entered code ce bad).cop0 Cop0Reg.Cause &&& m = _
  rw [entered_cause]
  split_ifs
  · rw [or_and_of_disjoint _ (outside rfl), kept]
  · rw [andNot_and_of_disjoint _ (outside rfl), kept]
  · exact kept

end Fields

end N64.Cpu
