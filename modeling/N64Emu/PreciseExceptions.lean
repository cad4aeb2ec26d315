import N64Emu.DelaySlot

/-!
# Precise exceptions

A step raises at most once; when it does, no general register, memory or
device has changed, and EPC and BD name the instruction to go back to.
-/

set_option autoImplicit false

namespace N64

open Words Cpu

/-- What a step from `s` to `t` leaves when it raised in the delay slot of `owner`. -/
structure Precise (owner : Option U64) (s t : Sys) : Prop where
  count : t.cpu.exceptionCount = s.cpu.exceptionCount + 1
  gpr : ∀ i, i ≠ 0 → t.cpu.gpr i = s.cpu.gpr i
  hiLo : (t.cpu.hi, t.cpu.lo) = (s.cpu.hi, s.cpu.lo)
  fpr : t.cpu.fpr = s.cpu.fpr
  bus : t.bus = s.bus
  devices : (t.vi, t.ai, t.pif, t.rsp, t.rdp) = (s.vi, s.ai, s.pif, s.rsp, s.rdp)
  exl : t.cpu.exl = true
  vector : ∃ refill : Bool,
    (refill = true ↔ (t.cpu.excCode = ExcCode.TLBL ∨ t.cpu.excCode = ExcCode.TLBS) ∧
      s.cpu.translateAddress ((t.cpu.cop0 Cop0Reg.BadVAddr).setWidth 64)
        (t.cpu.excCode = ExcCode.TLBS) = .error .TlbMiss) ∧
    t.cpu.pc =
      if refill = true ∧ s.cpu.exl = false then
        (if s.cpu.bev then 0xBFC00200 else 0x80000000)
      else if s.cpu.bev then 0xBFC00380 else 0x80000180
  outside : s.cpu.exl = false → owner = none →
    t.cpu.cop0 Cop0Reg.EPC = s.cpu.pc.setWidth 32 ∧ t.cpu.bd = false
  inSlot : s.cpu.exl = false → ∀ branch, owner = some branch →
    t.cpu.cop0 Cop0Reg.EPC = branch.setWidth 32 ∧ t.cpu.bd = true
  nested : s.cpu.exl = true →
    t.cpu.cop0 Cop0Reg.EPC = s.cpu.cop0 Cop0Reg.EPC ∧ t.cpu.bd = s.cpu.bd
  settled : t.cpu.branchPending = false ∧ t.cpu.inDelaySlot = false

section Raise

namespace Cpu

/-- The CPU at the moment of a raise, against the CPU before the step. -/
structure AtRaise (c d : Cpu) : Prop where
  gpr : d.gpr = c.gpr
  fpr : d.fpr = c.fpr
  hiLo : (d.hi, d.lo) = (c.hi, c.lo)
  cop0 : d.cop0 = c.cop0
  tlb : d.tlb = c.tlb
  pc : d.pc = c.pc
  exceptionCount : d.exceptionCount = c.exceptionCount
  inDelaySlot : d.inDelaySlot = c.branchPending

theorem translateAddress_congr {c d : Cpu} (cop0 : d.cop0 = c.cop0) (tlb : d.tlb = c.tlb)
    (vaddr : U64) (isStore : Bool) :
    d.translateAddress vaddr isStore = c.translateAddress vaddr isStore := by
  have modes : d.mode = c.mode := by rw [mode, mode, status, status, cop0]
  have entries : d.tlbEntries = c.tlbEntries := by simp only [tlbEntries, tlb]
  simp only [translateAddress, modes, entries, cop0]

theorem translateAddress_low (c : Cpu) (vaddr : U64) (isStore : Bool) :
    c.translateAddress ((vaddr.setWidth 32).setWidth 64) isStore =
      c.translateAddress vaddr isStore := by
  simp only [translateAddress, BitVec.setWidth_setWidth_of_le _ (show 32 ≤ 64 by decide),
    BitVec.setWidth_eq]

section Entry

variable {c d : Cpu} {code ce : U32} {bad : U64} {refill : Bool}

def raised (d : Cpu) (code ce : U32) (bad : U64) (refill : Bool) : Cpu :=
  (d.raiseException code bad ce refill).retire

theorem raised_cop0 {i : BitVec 5}
    (other : i ≠ Cop0Reg.Count ∧ i ≠ Cop0Reg.Random ∧ i ≠ Cop0Reg.Cause) :
    (raised d code ce bad refill).cop0 i = (d.entered code ce bad).cop0 i := by
  rw [raised, retire_cop0 _ other, raiseException_eq]

theorem raised_cause_and {m : U32} (apart : CAUSE_IP7 &&& m = 0) :
    (raised d code ce bad refill).cop0 Cop0Reg.Cause &&& m =
      (d.entered code ce bad).cop0 Cop0Reg.Cause &&& m := by
  rw [raised, retire_cause_and _ apart, raiseException_eq]

theorem entered_cause_field :
    (d.entered code ce bad).cop0 Cop0Reg.Cause &&& (0x7C : U32) =
      entryCause code ce (d.cop0 Cop0Reg.Cause) &&& (0x7C : U32) := by
  rw [entered_cause]
  split_ifs
  · exact or_and_of_disjoint _ (by decide)
  · exact andNot_and_of_disjoint _ (by decide)
  · rfl

theorem raised_excCode (field : code &&& 0x1F = code) :
    (raised d code ce bad refill).excCode = code := by
  rw [excCode, raised_cause_and (by decide), entered_cause_field]
  exact entryCause_code field

theorem entryCause_bd (cause : U32) :
    entryCause code ce cause &&& CAUSE_BD = cause &&& CAUSE_BD := by
  have code_ : ((code &&& 0x1F) <<< 2) &&& CAUSE_BD = 0 := by
    refine BitVec.eq_of_getLsbD_eq fun i hi => ?_
    interval_cases i <;> simp [CAUSE_BD]
  have unit_ : ((ce &&& 0x3) <<< 28) &&& CAUSE_BD = 0 := by
    refine BitVec.eq_of_getLsbD_eq fun i hi => ?_
    interval_cases i <;> simp [CAUSE_BD]
  rw [entryCause, or_and_of_disjoint _ unit_, andNot_and_of_disjoint _ (by decide),
    or_and_of_disjoint _ code_, andNot_and_of_disjoint _ (by decide)]

theorem raised_bd : (raised d code ce bad refill).bd =
    if d.exl then d.bd else d.inDelaySlot := by
  have cause : (raised d code ce bad refill).cop0 Cop0Reg.Cause &&& CAUSE_BD =
      (d.entered code ce bad).cop0 Cop0Reg.Cause &&& CAUSE_BD := raised_cause_and (by decide)
  rw [bd, cause, entered_cause]
  by_cases clear : d.status &&& SR_EXL = 0
  · have low : d.exl = false := bne_eq_false_iff_eq.mpr clear
    rw [if_pos clear, low]
    cases d.inDelaySlot with
    | true => exact testBit_or_self _ rfl (by decide)
    | false => exact testBit_clear_self _ (by decide)
  · have high : d.exl = true := bne_iff_ne.mpr clear
    rw [if_neg clear, high, entryCause_bd]
    rfl

theorem raised_epc : (raised d code ce bad refill).cop0 Cop0Reg.EPC =
    if d.exl then d.cop0 Cop0Reg.EPC
    else if d.inDelaySlot then (d.pc - 4).setWidth 32 else d.pc.setWidth 32 := by
  rw [raised_cop0 (by decide), entered_epc]
  by_cases clear : d.status &&& SR_EXL = 0
  · have low : d.exl = false := bne_eq_false_iff_eq.mpr clear
    rw [if_pos clear, low]
    rfl
  · have high : d.exl = true := bne_iff_ne.mpr clear
    rw [if_neg clear, high]
    rfl

theorem raised_exl : (raised d code ce bad refill).exl = true := by
  have status : (raised d code ce bad refill).status = d.status ||| SR_EXL :=
    (raised_cop0 (by decide)).trans (entered_status _ _ _ _)
  rw [exl, status]
  exact testBit_or_self _ rfl (by decide)

theorem raised_pc : (raised d code ce bad refill).pc =
    if refill = true ∧ d.exl = false then (if d.bev then 0xBFC00200 else 0x80000000)
    else if d.bev then 0xBFC00380 else 0x80000180 := by
  rw [raised, retire_pc, raiseException_eq]
  simp only [exceptionVector_eq, exl, bev, bne_eq_false_iff_eq, bne_iff_ne]

/-- The refill vector is for accesses that no entry matches, told from the registers. -/
theorem raised_refill (miss : Missed d code bad refill) :
    refill = true ↔
      ((raised d code ce bad refill).excCode = ExcCode.TLBL ∨
        (raised d code ce bad refill).excCode = ExcCode.TLBS) ∧
      d.translateAddress (((raised d code ce bad refill).cop0 Cop0Reg.BadVAddr).setWidth 64)
        ((raised d code ce bad refill).excCode = ExcCode.TLBS) = .error .TlbMiss := by
  rw [raised_excCode miss.field, miss.refill_iff]
  refine and_congr_right fun tlb => ?_
  have isTlb : isTlbException code = true := by
    rcases tlb with rfl | rfl <;> rfl
  rw [raised_cop0 (by decide), entered_badVaddr _ _ _ _ isTlb, translateAddress_low]

end Entry

end Cpu

theorem retire_outside (c : Cpu) : c.retire.inDelaySlot = false := by
  rw [retire_with]

theorem precise_of_raised {owner : Option U64} {s t : Sys} {d : Cpu} {code ce : U32} {bad : U64}
    {refill : Bool} (owns : OwnsSlot owner s.cpu) (same : s.cpu.AtRaise d)
    (miss : Missed d code bad refill)
    (cpu : t.cpu = { raised d code ce bad refill with branchPending := false })
    (bus : t.bus = s.bus)
    (devices : (t.vi, t.ai, t.pif, t.rsp, t.rdp) = (s.vi, s.ai, s.pif, s.rsp, s.rdp)) :
    Precise owner s t := by
  have exl : d.exl = s.cpu.exl := by rw [Cpu.exl, Cpu.exl, status, status, same.cop0]
  have bev : d.bev = s.cpu.bev := by rw [Cpu.bev, Cpu.bev, status, status, same.cop0]
  have bd : d.bd = s.cpu.bd := by rw [Cpu.bd, Cpu.bd, same.cop0]
  have cop0 : t.cpu.cop0 = (raised d code ce bad refill).cop0 := by rw [cpu]
  have epc : t.cpu.cop0 Cop0Reg.EPC = if s.cpu.exl then s.cpu.cop0 Cop0Reg.EPC
      else if s.cpu.branchPending then (s.cpu.pc - 4).setWidth 32 else s.cpu.pc.setWidth 32 := by
    rw [cop0, raised_epc, exl, same.cop0, same.inDelaySlot, same.pc]
  have slot : t.cpu.bd = if s.cpu.exl then s.cpu.bd else s.cpu.branchPending := by
    rw [Cpu.bd, cop0]
    refine raised_bd.trans ?_
    rw [exl, bd, same.inDelaySlot]
  have entered := raiseException_with d code ce bad refill
  refine
    { count := ?_, gpr := ?_, hiLo := ?_, fpr := ?_, bus := bus, devices := devices
      exl := ?_, vector := ⟨refill, ?_, ?_⟩, outside := ?_, inSlot := ?_, nested := ?_
      settled := ?_ }
  · rw [cpu]
    dsimp only
    rw [raised, retire_exceptionCount, raiseException_exceptionCount, same.exceptionCount]
  · intro i nonzero
    rw [cpu, raised, retire_with, entered, ← same.gpr]
    exact Function.update_of_ne nonzero _ _
  · rw [cpu, raised, retire_with, entered, ← same.hiLo]
  · rw [cpu, raised, retire_with, entered, ← same.fpr]
  · rw [Cpu.exl, status, cop0]
    exact raised_exl
  · have code_ : t.cpu.excCode = (raised d code ce bad refill).excCode := by
      rw [excCode, cop0, excCode]
    rw [code_, cop0, ← translateAddress_congr same.cop0 same.tlb]
    exact raised_refill miss
  · rw [cpu, ← exl, ← bev]
    dsimp only
    exact raised_pc
  · rintro clear rfl
    have pending : s.cpu.branchPending = false := owns
    rw [epc, slot, clear, pending]
    exact ⟨rfl, rfl⟩
  · rintro clear branch rfl
    obtain ⟨pending, pc⟩ := owns
    rw [epc, slot, clear, pending, pc, BitVec.add_sub_cancel]
    exact ⟨rfl, rfl⟩
  · intro set
    rw [epc, slot, set]
    exact ⟨rfl, rfl⟩
  · rw [cpu]
    dsimp only
    exact ⟨rfl, retire_outside _⟩

end Raise

section Between

/-- What holds between two steps besides the ownership of the slot. -/
structure Between (s : Sys) : Prop where
  outside : s.cpu.inDelaySlot = false
  semaphore : s.bus.spRegs.semaphore = 0 ∨ s.bus.spRegs.semaphore = 1

variable {s t u : Sys}

theorem SemaphoreStep.bit {old new : U32} (h : SemaphoreStep old new) (start : old = 0 ∨ old = 1) :
    new = 0 ∨ new = 1 := by
  rcases h with rfl | rfl | rfl
  · exact start
  · exact Or.inl rfl
  · exact Or.inr rfl

theorem semaphore_beforeStore {p : PhysicalAddress} {size : ℕ} (h : Sys.BeforeStore p size s u) :
    SemaphoreStep s.bus.spRegs.semaphore u.bus.spRegs.semaphore := by
  cases h with
  | aligned => exact Or.inl rfl
  | merge read => exact read.semaphore

theorem semaphore_effect {insn : U32} (h : s.Effect insn t)
    (start : s.bus.spRegs.semaphore = 0 ∨ s.bus.spRegs.semaphore = 1) :
    t.bus.spRegs.semaphore = 0 ∨ t.bus.spRegs.semaphore = 1 := by
  cases h with
  | cpu => exact start
  | load _ read => exact read.semaphore.bit start
  | linked _ _ read => exact read.semaphore.bit start
  | store _ before wrote =>
    exact wrote.frame.semaphore.bit ((semaphore_beforeStore before).bit start)
  | conditional _ _ _ _ wrote => exact wrote.frame.semaphore.bit start
  | refused => exact start
  | setCop0 _ _ v =>
    have bus : (setCop0 s (Insn.rd insn) v).bus = s.bus := by
      simp only [setCop0]
      split <;> rfl
    rw [bus]
    exact start
  | tlbRead => exact start
  | tlbWrite => exact start
  | tlbProbe => exact start
  | eret => exact start

theorem semaphore_finish {insn : U32} (h : Finish insn s t)
    (start : s.bus.spRegs.semaphore = 0 ∨ s.bus.spRegs.semaphore = 1) :
    t.bus.spRegs.semaphore = 0 ∨ t.bus.spRegs.semaphore = 1 := by
  cases h with
  | faulted => exact start
  | completed effect =>
    have kept := semaphore_effect effect start
    exact kept

theorem outside_finish {insn : U32} (h : Finish insn s t) : t.cpu.inDelaySlot = false := by
  cases h with
  | faulted =>
    dsimp only [Sys.onCpu_cpu]
    exact retire_outside _
  | completed => exact retire_outside (advancePc _ _ _)

theorem Between.step {fp : HostFpu} (h : Between s) (effect : StepEffect fp s t) : Between t := by
  cases effect with
  | halted => exact ⟨h.outside, h.semaphore⟩
  | interrupt => exact ⟨retire_outside _, h.semaphore⟩
  | fetchFault => exact ⟨retire_outside _, h.semaphore⟩
  | executed running aligned translated read ran finish =>
    rename_i p u t
    have frame : Frame [] (s.onCpu markSlot) (Bus.read32 (s.onCpu markSlot) p).2 := frame_read32 _ p
    rw [read] at frame
    have kept := semaphore_finish finish (frame.semaphore.bit h.semaphore)
    have outside := outside_finish finish
    exact ⟨outside, kept⟩

theorem Between.cached {fp : HostFpu} {insn : U32} (h : Between s)
    (effect : CachedEffect fp s insn t) : Between t := by
  cases effect with
  | interrupt => exact ⟨retire_outside _, h.semaphore⟩
  | executed ran finish => exact ⟨outside_finish finish, semaphore_finish finish h.semaphore⟩

theorem Cpu.Cop0Only.inDelaySlot {c d : Cpu} (h : Cop0Only c d) :
    d.inDelaySlot = c.inDelaySlot := by
  rw [h]

theorem Between.perform (fp : HostFpu) (a : CpuAct) (h : Between s) : Between (a.perform fp s) := by
  cases a with
  | step => exact h.step (step_cases fp s)
  | cached insn => exact h.cached (blockInsn_cases fp s insn)
  | device a =>
    have frame := frame_perform a s
    exact ⟨(cop0Only_of_offLine frame.cpu).inDelaySlot.trans h.outside,
      frame.semaphore.bit h.semaphore⟩
  | rcpInterrupt level =>
    have kept : Cop0Only s.cpu (s.cpu.setRcpInterrupt level) := by cases level <;> rfl
    exact ⟨kept.inDelaySlot.trans h.outside, h.semaphore⟩
  | setPc pc => exact ⟨h.outside, h.semaphore⟩
  | setGpr i value => exact ⟨(straight_writeGpr i value).inDelaySlot.trans h.outside, h.semaphore⟩
  | setHiLo hi lo => exact ⟨h.outside, h.semaphore⟩
  | setFpr i value => exact ⟨h.outside, h.semaphore⟩
  | setCop0 i value =>
    have bus : (setCop0 s i value).bus = s.bus := by
      simp only [setCop0]
      split <;> rfl
    have kept : Cop0Only s.cpu (setCop0 s i value).cpu := by
      rw [setCop0_cpu]
      exact cop0Only_setCop0Value i value
    refine ⟨kept.inDelaySlot.trans h.outside, ?_⟩
    rw [CpuAct.perform, bus]
    exact h.semaphore
  | setHalted halted => exact ⟨h.outside, h.semaphore⟩

theorem between_reset (s : Sys) : Between s.reset := ⟨rfl, Or.inl rfl⟩

end Between

section Step

variable {fp : HostFpu} {s t u : Sys} {owner : Option U64} {insn : U32} {p : PhysicalAddress}

theorem read32_nonzero (bit : s.bus.spRegs.semaphore = 0 ∨ s.bus.spRegs.semaphore = 1)
    (nonzero : (Bus.read32 s p).1 ≠ 0) : (Bus.read32 s p).2 = s := by
  rcases read32_cases s p with same | ⟨word, taken⟩
  · exact same
  · rw [word] at nonzero
    have one : s.bus.spRegs.semaphore = 1 := bit.resolve_left nonzero
    rw [taken, ← one]

theorem finishStep_zero (fp : HostFpu) (s : Sys) :
    (finishStep fp s s.cpu.pc s.cpu.branchPending s.cpu.exceptionCount 0).cpu.exceptionCount =
      s.cpu.exceptionCount := by
  have idle : execute fp (s.onCpu enterStep) 0 = s.onCpu enterStep := rfl
  simp only [finishStep, idle]
  rw [if_neg (by simp)]
  simp

theorem atRaise_enterStep (c : Cpu) (fcr31 : U32) (unknown : U64) (llBit : Bool) :
    c.AtRaise (c.markSlot.enterStep.atFault fcr31 unknown llBit) := by
  have entered :
      c.markSlot.enterStep = { c.markSlot with nextPc := c.markSlot.enterStep.nextPc } := by
    unfold enterStep
    cases pending : c.markSlot.branchPending
    · simp
      exact pending
    · simp
  rw [entered]
  exact ⟨rfl, rfl, rfl, rfl, rfl, rfl, rfl, rfl⟩

/-- The flag is clear already when the exception did not come from an instruction. -/
theorem raised_settled (c : Cpu) (code ce : U32) (bad : U64) (refill : Bool) :
    { raised c code ce bad refill with branchPending := false } = raised c code ce bad refill := by
  have low : (raised c code ce bad refill).branchPending = false := by
    rw [raised, retire_branchPending]
    rfl
  rw [← low]

theorem precise_step (between : Between s) (owns : OwnsSlot owner s.cpu)
    (effect : StepEffect fp s t) :
    t.cpu.exceptionCount = s.cpu.exceptionCount ∨ Precise owner s t := by
  cases effect with
  | halted => exact Or.inl rfl
  | interrupt running settled pending =>
    have same : s.cpu.AtRaise s.cpu :=
      ⟨rfl, rfl, rfl, rfl, rfl, rfl, rfl, between.outside.trans settled.symm⟩
    have miss : Missed s.cpu ExcCode.Int 0 false := missed_other (by decide)
    exact Or.inr (precise_of_raised owns same miss (raised_settled _ _ 0 _ _).symm rfl rfl)
  | fetchFault running miss =>
    have same : s.cpu.AtRaise s.cpu.markSlot := ⟨rfl, rfl, rfl, rfl, rfl, rfl, rfl, rfl⟩
    exact Or.inr (precise_of_raised owns same ⟨miss.field, miss.refill_iff⟩
      (raised_settled _ _ 0 _ _).symm rfl rfl)
  | executed running aligned translated read ran finish =>
    rename_i insn p u t
    rw [read32_onCpu] at read
    have word : (Bus.read32 s p).1 = insn := congrArg Prod.fst read
    have after : (Bus.read32 s p).2.onCpu markSlot = u := congrArg Prod.snd read
    by_cases zero : insn = 0
    · left
      rw [zero] at ran
      have kept : u.cpu = s.cpu.markSlot := by
        rw [← after, Sys.onCpu_cpu, frame_cpu (frame_read32 s p)]
      have counted := finishStep_zero fp u
      rw [← ran, kept] at counted
      exact counted
    · rw [read32_nonzero between.semaphore (by rw [word]; exact zero)] at after
      subst after
      cases finish with
      | faulted fcr31 unknown llBit miss =>
        exact Or.inr (precise_of_raised owns (atRaise_enterStep s.cpu fcr31 unknown llBit)
          ⟨miss.field, miss.refill_iff⟩ rfl rfl rfl)
      | completed effect same =>
        refine Or.inl (Eq.trans ?_ same)
        simp [Sys.emitAll]

/-- Every step of every run from reset raises nothing, or is precise. -/
theorem step_precise (fp : HostFpu) (s₀ : Sys) (acts : List CpuAct) :
    let s := Runs.run (CpuAct.perform fp) acts s₀.reset
    let t := step fp s
    t.cpu.exceptionCount = s.cpu.exceptionCount ∨ Precise (slotOwner fp acts s₀.reset) s t :=
  precise_step
    (Runs.run_preserves (fun a _ between => Between.perform fp a between) acts (between_reset s₀))
    (ownsSlot_run fp s₀ acts) (step_cases fp _)

end Step

end N64
