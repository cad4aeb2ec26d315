import N64Emu.CpuExecute
import N64Emu.BlockCache
import N64Emu.Translation

/-!
# What an instruction can do to the CPU

Every instruction that reaches neither memory nor COP0 goes on in order, sets
up a branch, or raises one exception before it has written a register.
-/

set_option autoImplicit false

namespace N64.Cpu

open Words Insn Fpu

/-- What stays when an instruction writes general registers, HI, LO, the FPU
registers and the next program counter only. -/
structure Quiet (c d : Cpu) : Prop where
  cop0 : d.cop0 = c.cop0
  tlb : d.tlb = c.tlb
  pc : d.pc = c.pc
  halted : d.halted = c.halted
  inDelaySlot : d.inDelaySlot = c.inDelaySlot
  llBit : d.llBit = c.llBit
  llAddr : d.llAddr = c.llAddr
  exceptionCount : d.exceptionCount = c.exceptionCount
  cycles : d.cycles = c.cycles

/-- And no branch is set up. -/
structure Straight (c d : Cpu) : Prop extends Quiet c d where
  branchPending : d.branchPending = c.branchPending
  nextPc : d.nextPc = c.nextPc

/-- The CPU where an instruction raises: it may have set the FPU cause, counted
an unknown opcode or dropped the reservation, and nothing else. -/
def atFault (c : Cpu) (fcr31 : U32) (unknown : U64) (llBit : Bool) : Cpu :=
  { c with fcr31 := fcr31, unknownOpcodeCount := unknown, llBit := llBit }

/-- The refill vector is for accesses that no TLB entry matches. -/
structure Missed (c : Cpu) (code : U32) (bad : U64) (refill : Bool) : Prop where
  field : code &&& 0x1F = code
  refill_iff : refill = true ↔ (code = ExcCode.TLBL ∨ code = ExcCode.TLBS) ∧
    c.translateAddress bad (code = ExcCode.TLBS) = .error .TlbMiss

inductive Effect (insn : U32) (c : Cpu) : Cpu → Prop
  | straight {d : Cpu} (same : Straight c d) : Effect insn c d
  | branch {d : Cpu} (same : Quiet c d) (jumps : isBranchOrJump insn = true) : Effect insn c d
  | raised (fcr31 : U32) (unknown : U64) (llBit : Bool) {code ce : U32} {bad : U64} {refill : Bool}
      (miss : Missed c code bad refill) :
      Effect insn c ((c.atFault fcr31 unknown llBit).raiseException code bad ce refill)

section Straight

variable {c d e : Cpu}

theorem Quiet.refl : Quiet c c := ⟨rfl, rfl, rfl, rfl, rfl, rfl, rfl, rfl, rfl⟩

theorem Quiet.trans (h : Quiet c d) (k : Quiet d e) : Quiet c e :=
  ⟨k.cop0.trans h.cop0, k.tlb.trans h.tlb, k.pc.trans h.pc, k.halted.trans h.halted,
    k.inDelaySlot.trans h.inDelaySlot, k.llBit.trans h.llBit, k.llAddr.trans h.llAddr,
    k.exceptionCount.trans h.exceptionCount, k.cycles.trans h.cycles⟩

theorem Straight.refl : Straight c c := ⟨Quiet.refl, rfl, rfl⟩

theorem Straight.trans (h : Straight c d) (k : Straight d e) : Straight c e :=
  ⟨h.toQuiet.trans k.toQuiet, k.branchPending.trans h.branchPending, k.nextPc.trans h.nextPc⟩

theorem straight_writeGpr (idx : BitVec 5) (value : U64) : Straight c (c.writeGpr idx value) := by
  unfold writeGpr
  split
  · exact ⟨⟨rfl, rfl, rfl, rfl, rfl, rfl, rfl, rfl, rfl⟩, rfl, rfl⟩
  · exact Straight.refl

theorem straight_setHiLo (hi lo : U64) : Straight c (c.setHiLo hi lo) :=
  ⟨⟨rfl, rfl, rfl, rfl, rfl, rfl, rfl, rfl, rfl⟩, rfl, rfl⟩

theorem straight_writeFprWord (index : BitVec 5) (value : U32) :
    Straight c (c.writeFprWord index value) :=
  ⟨⟨rfl, rfl, rfl, rfl, rfl, rfl, rfl, rfl, rfl⟩, rfl, rfl⟩

theorem straight_setFcr31 (value : U32) : Straight c { c with fcr31 := value } :=
  ⟨⟨rfl, rfl, rfl, rfl, rfl, rfl, rfl, rfl, rfl⟩, rfl, rfl⟩

theorem straight_writeFprDouble {index : BitVec 5} {value : U64}
    (h : c.writeFprDouble index value = some d) : Straight c d := by
  unfold writeFprDouble at h
  split_ifs at h
  · cases h
    exact ⟨⟨rfl, rfl, rfl, rfl, rfl, rfl, rfl, rfl, rfl⟩, rfl, rfl⟩
  · cases h
    exact (straight_writeFprWord _ _).trans (straight_writeFprWord _ _)

theorem straight_setFprDouble (index : BitVec 5) (value : U64) :
    Straight c (c.setFprDouble index value) := by
  unfold setFprDouble
  cases h : c.writeFprDouble index value with
  | none => exact Straight.refl
  | some d => exact straight_writeFprDouble h

theorem quiet_branchAbs (target : U64) : Quiet c (c.branchAbs target) :=
  ⟨rfl, rfl, rfl, rfl, rfl, rfl, rfl, rfl, rfl⟩

theorem quiet_branchIf (taken : Bool) (insn : U32) : Quiet c (c.branchIf taken insn) := by
  cases taken <;> exact ⟨rfl, rfl, rfl, rfl, rfl, rfl, rfl, rfl, rfl⟩

theorem quiet_branchLikelyIf (taken : Bool) (insn : U32) :
    Quiet c (c.branchLikelyIf taken insn) := by
  cases taken <;> exact ⟨rfl, rfl, rfl, rfl, rfl, rfl, rfl, rfl, rfl⟩

end Straight

section Raise

variable {insn : U32} {c : Cpu}

theorem missed_other {code : U32} {bad : U64}
    (other : code &&& 0x1F = code ∧ code ≠ ExcCode.TLBL ∧ code ≠ ExcCode.TLBS) :
    Missed c code bad false :=
  ⟨other.1, by simp [other.2.1, other.2.2]⟩

theorem effect_raise {code : U32}
    (other : code &&& 0x1F = code ∧ code ≠ ExcCode.TLBL ∧ code ≠ ExcCode.TLBS) :
    Effect insn c (c.raise code) :=
  Effect.raised c.fcr31 c.unknownOpcodeCount c.llBit (missed_other other)

theorem effect_reserved : Effect insn c c.reserved :=
  Effect.raised c.fcr31 (c.unknownOpcodeCount + 1) c.llBit (missed_other (by decide))

theorem effect_raiseUnusable (cop : U32) : Effect insn c (c.raiseUnusable cop) :=
  Effect.raised c.fcr31 c.unknownOpcodeCount c.llBit (missed_other (by decide))

theorem effect_raiseFpe (value : U32) :
    Effect insn c ({ c with fcr31 := value }.raise ExcCode.FPE) :=
  Effect.raised value c.unknownOpcodeCount c.llBit (missed_other (by decide))

theorem effect_raiseFpuUnimplemented : Effect insn c c.raiseFpuUnimplemented := effect_raiseFpe _

theorem missed_translation {c : Cpu} {vaddr : U64} {isStore : Bool} {fault : TranslationFault}
    (h : c.translateAddress vaddr isStore = .error fault) :
    ∃ code refill, Missed c code vaddr refill ∧
      ∀ bad, raiseTranslationFault c fault bad isStore = c.raiseException code bad 0 refill := by
  cases fault with
  | AddressError =>
    refine ⟨if isStore then ExcCode.AdES else ExcCode.AdEL, false, ?_, fun _ => rfl⟩
    cases isStore <;> exact missed_other (by decide)
  | TlbMiss =>
    refine ⟨if isStore then ExcCode.TLBS else ExcCode.TLBL, true, ?_, fun _ => rfl⟩
    cases isStore
    · exact ⟨rfl, fun _ => ⟨Or.inl rfl, h⟩, fun _ => rfl⟩
    · exact ⟨rfl, fun _ => ⟨Or.inr rfl, h⟩, fun _ => rfl⟩
  | TlbInvalid =>
    refine ⟨if isStore then ExcCode.TLBS else ExcCode.TLBL, false, ?_, fun _ => rfl⟩
    cases isStore
    · exact ⟨rfl, nofun, fun miss => (nomatch h.symm.trans miss.2)⟩
    · exact ⟨rfl, nofun, fun miss => (nomatch h.symm.trans miss.2)⟩
  | TlbModified =>
    exact ⟨ExcCode.Mod, false, missed_other (by decide), fun _ => rfl⟩

end Raise

section Integer

variable {insn : U32} {c : Cpu}

theorem effect_writeGpr (idx : BitVec 5) (value : U64) : Effect insn c (c.writeGpr idx value) :=
  .straight (straight_writeGpr idx value)

theorem effect_setHiLo (hi lo : U64) : Effect insn c (c.setHiLo hi lo) :=
  .straight (straight_setHiLo hi lo)

theorem effect_writeChecked32 (idx : BitVec 5) (r : Bool × U32) :
    Effect insn c (c.writeChecked32 idx r) := by
  unfold writeChecked32
  split
  · exact effect_raise (by decide)
  · exact effect_writeGpr _ _

theorem effect_writeChecked64 (idx : BitVec 5) (r : Bool × U64) :
    Effect insn c (c.writeChecked64 idx r) := by
  unfold writeChecked64
  split
  · exact effect_raise (by decide)
  · exact effect_writeGpr _ _

theorem effect_trapIf (condition : Bool) : Effect insn c (c.trapIf condition) := by
  unfold trapIf
  split
  · exact effect_raise (by decide)
  · exact .straight Straight.refl

theorem effect_div (num den : U32) : Effect insn c (c.div num den) := by
  unfold div
  split_ifs <;> exact effect_setHiLo _ _

theorem effect_divu (num den : U32) : Effect insn c (c.divu num den) := by
  unfold divu
  split_ifs <;> exact effect_setHiLo _ _

theorem effect_ddiv (num den : U64) : Effect insn c (c.ddiv num den) := by
  unfold ddiv
  split_ifs <;> exact effect_setHiLo _ _

theorem effect_ddivu (num den : U64) : Effect insn c (c.ddivu num den) := by
  unfold ddivu
  split_ifs <;> exact effect_setHiLo _ _

theorem effect_execSpecialFn (f : SpecialFn) (code : op insn = 0)
    (jump : f = .JR ∨ f = .JALR → fn insn = 8 ∨ fn insn = 9) :
    Effect insn c (c.execSpecialFn f insn) := by
  have jumps : f = .JR ∨ f = .JALR → isBranchOrJump insn = true := by
    intro h
    simpa [isBranchOrJump, code] using jump h
  cases f
  case JR => exact .branch (quiet_branchAbs _) (jumps (Or.inl rfl))
  case JALR =>
    exact .branch ((straight_writeGpr _ _).toQuiet.trans (quiet_branchAbs _)) (jumps (Or.inr rfl))
  case SYSCALL => exact effect_raise (by decide)
  case BREAK => exact effect_raise (by decide)
  case SYNC => exact .straight Straight.refl
  case MTHI => exact .straight ⟨⟨rfl, rfl, rfl, rfl, rfl, rfl, rfl, rfl, rfl⟩, rfl, rfl⟩
  case MTLO => exact .straight ⟨⟨rfl, rfl, rfl, rfl, rfl, rfl, rfl, rfl, rfl⟩, rfl, rfl⟩
  case DIV => exact effect_div _ _
  case DIVU => exact effect_divu _ _
  case DDIV => exact effect_ddiv _ _
  case DDIVU => exact effect_ddivu _ _
  all_goals first
    | exact effect_writeGpr _ _
    | exact effect_setHiLo _ _
    | exact effect_writeChecked32 _ _
    | exact effect_writeChecked64 _ _
    | exact effect_trapIf _

theorem specialFn_jump {n : ℕ} {f : SpecialFn} (h : SpecialFn.ofCode n = some f)
    (jump : f = .JR ∨ f = .JALR) : n = 8 ∨ n = 9 := by
  unfold SpecialFn.ofCode at h
  split at h <;> cases h <;> simp_all

theorem effect_execSpecial (code : op insn = 0) : Effect insn c (c.execSpecial insn) := by
  unfold execSpecial
  split
  case h_1 f h => exact effect_execSpecialFn f code (specialFn_jump h)
  case h_2 => exact effect_reserved

theorem effect_execRegimmRt (r : RegimmRt) (code : op insn = 1)
    (h : RegimmRt.ofCode (rt insn).toNat = some r) : Effect insn c (c.execRegimmRt r insn) := by
  have linked : Quiet c (c.link 31) := (straight_writeGpr _ _).toQuiet
  unfold RegimmRt.ofCode at h
  split at h <;> cases h
  case h_1 field => exact .branch (quiet_branchIf _ _) (by simp [isBranchOrJump, code, field])
  case h_2 field => exact .branch (quiet_branchIf _ _) (by simp [isBranchOrJump, code, field])
  case h_3 field => exact .branch (quiet_branchLikelyIf _ _) (by simp [isBranchOrJump, code, field])
  case h_4 field => exact .branch (quiet_branchLikelyIf _ _) (by simp [isBranchOrJump, code, field])
  case h_11 field =>
    exact .branch (linked.trans (quiet_branchIf _ _)) (by simp [isBranchOrJump, code, field])
  case h_12 field =>
    exact .branch (linked.trans (quiet_branchIf _ _)) (by simp [isBranchOrJump, code, field])
  case h_13 field =>
    exact .branch (linked.trans (quiet_branchLikelyIf _ _)) (by simp [isBranchOrJump, code, field])
  case h_14 field =>
    exact .branch (linked.trans (quiet_branchLikelyIf _ _)) (by simp [isBranchOrJump, code, field])
  all_goals exact effect_trapIf _

theorem effect_execRegimm (code : op insn = 1) : Effect insn c (c.execRegimm insn) := by
  unfold execRegimm
  split
  case h_1 r h => exact effect_execRegimmRt r code h
  case h_2 => exact effect_reserved

end Integer

section FloatingPoint

variable {insn : U32} {c : Cpu}

theorem effect_finishFpuOperation {k : Cpu → Cpu} (flags : U32)
    (straight : ∀ d, Straight d (k d)) : Effect insn c (c.finishFpuOperation flags k) := by
  simp only [finishFpuOperation]
  split
  · exact effect_raiseFpe _
  · exact .straight ((straight_setFcr31 _).trans (straight _))

theorem effect_handleSingleResult (fd : BitVec 5) (r : U32 × U32) :
    Effect insn c (c.handleSingleResult fd r) := by
  unfold handleSingleResult
  split
  · exact effect_raiseFpuUnimplemented
  · exact effect_finishFpuOperation _ fun _ => straight_writeFprWord _ _

theorem effect_handleDoubleResult (fd : BitVec 5) (r : U64 × U32) :
    Effect insn c (c.handleDoubleResult fd r) := by
  unfold handleDoubleResult
  split
  · exact effect_raiseFpuUnimplemented
  · split
    · exact effect_raiseFpuUnimplemented
    · exact effect_finishFpuOperation _ fun _ => straight_setFprDouble _ _

theorem effect_writeFprDouble (index : BitVec 5) (value : U64) :
    Effect insn c ((c.writeFprDouble index value).getD c.raiseFpuUnimplemented) := by
  cases h : c.writeFprDouble index value with
  | none => exact effect_raiseFpuUnimplemented
  | some d => exact .straight (straight_writeFprDouble h)

theorem effect_arithmeticSingle (fp : HostFpu) (function : ℕ) (fs ft fd : BitVec 5) :
    Effect insn c (arithmeticSingle fp c function fs ft fd) := by
  simp only [arithmeticSingle]
  split
  · exact .straight (straight_writeFprWord _ _)
  · split
    · exact effect_raiseFpuUnimplemented
    · exact effect_handleSingleResult _ _
    · split_ifs
      · exact effect_finishFpuOperation _ fun _ => straight_writeFprWord _ _
      · exact effect_finishFpuOperation _ fun _ => straight_writeFprWord _ _
      · exact effect_handleSingleResult _ _

theorem effect_arithmeticDouble (fp : HostFpu) (function : ℕ) (fs ft fd : BitVec 5) :
    Effect insn c (arithmeticDouble fp c function fs ft fd) := by
  unfold arithmeticDouble
  split
  · exact effect_raiseFpuUnimplemented
  · split
    · exact effect_writeFprDouble _ _
    · simp only []
      split
      · exact effect_raiseFpuUnimplemented
      · exact effect_handleDoubleResult _ _
      · split_ifs <;> exact effect_handleDoubleResult _ _

theorem effect_compareOperands {w : ℕ} (F : FloatFormat w) (conditionCode : ℕ)
    (fsRaw ftRaw : BitVec w) : Effect insn c (compareOperands F c conditionCode fsRaw ftRaw) :=
  effect_finishFpuOperation _ fun _ => straight_setFcr31 _

theorem effect_compareDouble (conditionCode : ℕ) (fs ft : BitVec 5) :
    Effect insn c (c.compareDouble conditionCode fs ft) := by
  unfold compareDouble
  split
  · exact effect_compareOperands _ _ _ _
  · exact effect_raiseFpuUnimplemented

theorem effect_convertInteger {w : ℕ} (F : FloatFormat w) (function : ℕ) (raw : BitVec w)
    (fd : BitVec 5) : Effect insn c (convertInteger F c function raw fd) := by
  simp only [convertInteger]
  split
  · exact effect_raiseFpuUnimplemented
  · split
    · exact effect_finishFpuOperation _ fun _ => straight_writeFprWord _ _
    · split
      · exact effect_raiseFpuUnimplemented
      · exact effect_finishFpuOperation _ fun _ => straight_setFprDouble _ _

theorem effect_integerConversion (format : Fmt) (function : ℕ) (fs fd : BitVec 5) :
    Effect insn c (c.integerConversion format function fs fd) := by
  unfold integerConversion
  split
  · exact effect_convertInteger _ _ _ _
  · split
    · exact effect_raiseFpuUnimplemented
    · exact effect_convertInteger _ _ _ _
  · exact effect_raiseFpuUnimplemented
  · exact effect_raiseFpuUnimplemented

theorem effect_convertSingle (fp : HostFpu) (format : Fmt) (fs fd : BitVec 5) :
    Effect insn c (convertSingle fp c format fs fd) := by
  unfold convertSingle
  split
  · split
    · exact effect_raiseFpuUnimplemented
    · split
      · exact effect_raiseFpuUnimplemented
      · exact effect_handleSingleResult _ _
      · exact effect_handleSingleResult _ _
  · exact effect_handleSingleResult _ _
  · split
    · exact effect_raiseFpuUnimplemented
    · exact effect_handleSingleResult _ _
  · exact effect_raiseFpuUnimplemented

theorem effect_convertDouble (fp : HostFpu) (format : Fmt) (fs fd : BitVec 5) :
    Effect insn c (convertDouble fp c format fs fd) := by
  unfold convertDouble
  split
  · exact effect_raiseFpuUnimplemented
  · split
    · simp only []
      split
      · exact effect_raiseFpuUnimplemented
      · exact effect_handleDoubleResult _ _
      · exact effect_handleDoubleResult _ _
    · exact effect_handleDoubleResult _ _
    · split
      · exact effect_raiseFpuUnimplemented
      · exact effect_handleDoubleResult _ _
    · exact effect_raiseFpuUnimplemented

theorem effect_execCop1Format (fp : HostFpu) (format : Fmt) :
    Effect insn c (execCop1Format fp c format insn) := by
  simp only [execCop1Format]
  split_ifs
  · exact effect_arithmeticSingle _ _ _ _ _
  · exact effect_arithmeticDouble _ _ _ _ _
  · exact effect_compareOperands _ _ _ _
  · exact effect_compareDouble _ _ _
  · exact effect_integerConversion _ _ _ _
  · exact effect_convertSingle _ _ _ _
  · exact effect_convertDouble _ _ _ _
  · exact effect_raiseFpuUnimplemented

theorem effect_writeFcr31 (value : U32) : Effect insn c (c.writeFcr31 value) := by
  simp only [writeFcr31]
  split
  · exact effect_raiseFpe _
  · exact .straight (straight_setFcr31 _)

theorem effect_branchCop1 (cop1Rt : ℕ) (jumps : isBranchOrJump insn = true) :
    Effect insn c (c.branchCop1 cop1Rt insn) := by
  simp only [branchCop1]
  split_ifs
  · exact effect_raiseFpuUnimplemented
  · exact .branch (quiet_branchLikelyIf _ _) jumps
  · exact .branch (quiet_branchIf _ _) jumps

theorem cop1Rs_branch {n : ℕ} (h : Cop1Rs.ofCode n = some .BC1) : n = 8 := by
  unfold Cop1Rs.ofCode at h
  split at h <;> cases h
  rfl

theorem effect_execCop1 (fp : HostFpu) (code : op insn = 0x11) :
    Effect insn c (execCop1 fp c insn) := by
  simp only [execCop1]
  split
  · exact effect_raiseUnusable _
  · split
    · exact effect_writeGpr _ _
    · split
      · exact effect_raiseFpuUnimplemented
      · exact effect_writeGpr _ _
    · exact effect_writeGpr _ _
    · exact .straight (straight_writeFprWord _ _)
    · exact effect_writeFprDouble _ _
    · split
      · exact effect_writeFcr31 _
      · exact .straight Straight.refl
    case h_7 h =>
      have field : rs insn = 8 := BitVec.eq_of_toNat_eq (cop1Rs_branch h)
      exact effect_branchCop1 _ (by simp [isBranchOrJump, code, field])
    · exact effect_execCop1Format _ _
    · exact effect_raiseFpuUnimplemented

end FloatingPoint

end N64.Cpu
