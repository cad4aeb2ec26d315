import N64Emu.Exceptions

/-!
# Branches

A word the block cache takes for a branch sets up its delay slot, skips it or
raises; no other word sets one up.
-/

set_option autoImplicit false

namespace N64.Cpu

open Words Insn Fpu

/-- A branch is set up, or its delay slot is skipped, or an exception is raised. -/
def Jumps (c d : Cpu) : Prop :=
  d.exceptionCount ≠ c.exceptionCount ∨ d.branchPending = true ∨ d.nextPc = c.pc + 8

theorem jumps_branchIf (c d : Cpu) (taken : Bool) (insn : U32) :
    Jumps c (d.branchIf taken insn) := by
  cases taken <;> exact Or.inr (Or.inl rfl)

theorem jumps_branchLikelyIf {c d : Cpu} (taken : Bool) (insn : U32) (pc : d.pc = c.pc) :
    Jumps c (d.branchLikelyIf taken insn) := by
  cases taken
  · exact Or.inr (Or.inr (congrArg (· + 8) pc))
  · exact Or.inr (Or.inl rfl)

theorem linked_pc (c : Cpu) (reg : BitVec 5) : (c.link reg).pc = c.pc :=
  (straight_writeGpr _ _).pc

theorem jumps_execSpecial {c : Cpu} {insn : U32} (h : fn insn = 8 ∨ fn insn = 9) :
    Jumps c (c.execSpecial insn) := by
  rcases h with h | h <;> simp only [execSpecial, SpecialFn.ofCode, h] <;> exact Or.inr (Or.inl rfl)

theorem jumps_execRegimm {c : Cpu} {insn : U32} (h : (match (rt insn).toNat with
    | 0x00 | 0x01 | 0x02 | 0x03 | 0x10 | 0x11 | 0x12 | 0x13 => true
    | _ => false) = true) : Jumps c (c.execRegimm insn) := by
  split at h
  case h_1 field =>
    simp only [execRegimm, RegimmRt.ofCode, field]
    exact jumps_branchIf _ _ _ _
  case h_2 field =>
    simp only [execRegimm, RegimmRt.ofCode, field]
    exact jumps_branchIf _ _ _ _
  case h_3 field =>
    simp only [execRegimm, RegimmRt.ofCode, field]
    exact jumps_branchLikelyIf _ _ rfl
  case h_4 field =>
    simp only [execRegimm, RegimmRt.ofCode, field]
    exact jumps_branchLikelyIf _ _ rfl
  case h_5 field =>
    simp only [execRegimm, RegimmRt.ofCode, field]
    exact jumps_branchIf _ _ _ _
  case h_6 field =>
    simp only [execRegimm, RegimmRt.ofCode, field]
    exact jumps_branchIf _ _ _ _
  case h_7 field =>
    simp only [execRegimm, RegimmRt.ofCode, field]
    exact jumps_branchLikelyIf _ _ (linked_pc c 31)
  case h_8 field =>
    simp only [execRegimm, RegimmRt.ofCode, field]
    exact jumps_branchLikelyIf _ _ (linked_pc c 31)
  case h_9 => cases h

theorem raised_jumps {c : Cpu} {code ce : U32} {bad : U64} {refill : Bool} :
    Jumps c (c.raiseException code bad ce refill) :=
  Or.inl (by simp)

theorem jumps_branchCop1 {c : Cpu} (cop1Rt : ℕ) (insn : U32) :
    Jumps c (c.branchCop1 cop1Rt insn) := by
  simp only [branchCop1]
  split_ifs
  · exact raised_jumps
  · exact jumps_branchLikelyIf _ _ rfl
  · exact jumps_branchIf _ _ _ _

theorem jumps_execCop1 (fp : HostFpu) {c : Cpu} {insn : U32} (h : rs insn = 0x08) :
    Jumps c (execCop1 fp c insn) := by
  have decoded : Cop1Rs.ofCode (rs insn).toNat = some .BC1 := by
    rw [h]
    rfl
  simp only [execCop1, decoded]
  split
  · exact raised_jumps
  · exact jumps_branchCop1 _ _

theorem jumps_execute (fp : HostFpu) (s : Sys) {insn : U32} (h : isBranchOrJump insn = true) :
    Jumps s.cpu (execute fp s insn).cpu := by
  unfold isBranchOrJump at h
  split at h
  case h_1 code =>
    rw [execute_of_code fp s .SPECIAL (by rw [code]; rfl)]
    exact jumps_execSpecial (by simpa using h)
  case h_2 code =>
    rw [execute_of_code fp s .REGIMM (by rw [code]; rfl)]
    exact jumps_execRegimm h
  case h_3 code =>
    rw [execute_of_code fp s .J (by rw [code]; rfl)]
    exact Or.inr (Or.inl rfl)
  case h_4 code =>
    rw [execute_of_code fp s .JAL (by rw [code]; rfl)]
    exact Or.inr (Or.inl rfl)
  case h_5 code =>
    rw [execute_of_code fp s .BEQ (by rw [code]; rfl)]
    exact jumps_branchIf _ _ _ _
  case h_6 code =>
    rw [execute_of_code fp s .BNE (by rw [code]; rfl)]
    exact jumps_branchIf _ _ _ _
  case h_7 code =>
    rw [execute_of_code fp s .BLEZ (by rw [code]; rfl)]
    exact jumps_branchIf _ _ _ _
  case h_8 code =>
    rw [execute_of_code fp s .BGTZ (by rw [code]; rfl)]
    exact jumps_branchIf _ _ _ _
  case h_9 code =>
    rw [execute_of_code fp s .BEQL (by rw [code]; rfl)]
    exact jumps_branchLikelyIf _ _ rfl
  case h_10 code =>
    rw [execute_of_code fp s .BNEL (by rw [code]; rfl)]
    exact jumps_branchLikelyIf _ _ rfl
  case h_11 code =>
    rw [execute_of_code fp s .BLEZL (by rw [code]; rfl)]
    exact jumps_branchLikelyIf _ _ rfl
  case h_12 code =>
    rw [execute_of_code fp s .BGTZL (by rw [code]; rfl)]
    exact jumps_branchLikelyIf _ _ rfl
  case h_13 code =>
    rw [execute_of_code fp s .COP1 (by rw [code]; rfl)]
    exact jumps_execCop1 fp (by simpa using h)
  case h_14 => cases h

theorem effect_pending {insn : U32} {s e : Sys} (h : s.Effect insn e)
    (pending : e.cpu.branchPending = true) :
    s.cpu.branchPending = true ∨ isBranchOrJump insn = true := by
  cases h with
  | cpu h =>
    cases h with
    | straight same => exact Or.inl (same.branchPending.symm.trans pending)
    | branch _ jumps => exact Or.inr jumps
    | raised => exact absurd pending (by simp [raiseException])
  | load _ _ same => exact Or.inl (same.branchPending.symm.trans pending)
  | linked _ _ _ same => exact Or.inl (same.branchPending.symm.trans pending)
  | store _ before wrote =>
    exact Or.inl ((cop0Only_of_offLine (stored_cpu before wrote)).branchPending.symm.trans pending)
  | conditional _ _ _ _ wrote =>
    have kept := (cop0Only_of_offLine wrote.frame.cpu).branchPending
    exact Or.inl (((straight_writeGpr _ _).branchPending.trans kept).symm.trans pending)
  | refused _ same => exact Or.inl (same.branchPending.symm.trans pending)
  | setCop0 _ _ v =>
    rw [setCop0_cpu] at pending
    exact Or.inl ((cop0Only_setCop0Value _ v).branchPending.symm.trans pending)
  | tlbRead => exact Or.inl pending
  | tlbWrite => exact Or.inl pending
  | tlbProbe => exact Or.inl (cop0Only_tlbProbe.branchPending.symm.trans pending)
  | eret => exact absurd pending Bool.false_ne_true

end N64.Cpu

