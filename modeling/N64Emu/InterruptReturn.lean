import N64Emu.PreciseExceptions
import N64Emu.RetimedStep

/-!
# Interrupt and return

An interrupt whose handler is one ERET. EPC keeps the low half of the program
counter and ERET goes back to it zero-extended. Where that is the whole of it,
the program runs on as it would have without the interrupt, two ticks later.
-/

set_option autoImplicit false

namespace N64

open Words Cpu

def eretWord : U32 := 0x42000018

/-- What the program had at `s` it has again at `t`. -/
structure Restored (s t : Cpu) : Prop where
  pc : t.pc = s.pc
  nextPc : t.nextPc = s.nextPc
  branchPending : t.branchPending = s.branchPending
  gpr : t.gpr = s.gpr
  hi : t.hi = s.hi
  lo : t.lo = s.lo
  fpr : t.fpr = s.fpr
  status : t.status = s.status
  llBit : t.llBit = s.llBit

/-- The timer goes off in neither of the next two steps. -/
def TimerAway (c : Cpu) : Prop :=
  c.cop0 Cop0Reg.Count + 1 ≠ c.cop0 Cop0Reg.Compare ∧
    c.cop0 Cop0Reg.Count + 2 ≠ c.cop0 Cop0Reg.Compare

instance (c : Cpu) : Decidable (TimerAway c) := inferInstanceAs (Decidable (_ ∧ _))

/-- The program at `t` goes on as it would have at `s`, whatever it executes and
the devices and the host do: after every act the machines are alike but for the
time and one exception counted. -/
structure Resumed (fp : HostFpu) (s t : Sys) : Prop where
  restored : Restored s.cpu t.cpu
  continues : TimerAway s.cpu → ∀ acts,
    Runs.Along (Runs.both (CpuAct.performFresh fp)) (CpuAct.IgnoresTime fp) acts
      ({ s with log := [] }, { t with log := [] }) →
    (Runs.run (CpuAct.performFresh fp) acts { s with log := [] }).Retimed 1
      (Runs.run (CpuAct.performFresh fp) acts { t with log := [] })

/-- Register 0 is zero, and outside a delay slot the next word is next. -/
structure InOrder (c : Cpu) : Prop where
  zero : c.gpr 0 = 0
  next : c.branchPending = false → c.nextPc = c.pc + 4

section InOrder

variable {s t : Sys} {fp : HostFpu}

theorem InOrder.kept {c d : Cpu} (h : InOrder c) (same : Cop0Only c d) : InOrder d := by
  rw [same]
  exact ⟨h.zero, h.next⟩

theorem inOrder_retire {c : Cpu} (next : c.branchPending = false → c.nextPc = c.pc + 4) :
    InOrder c.retire := by
  rw [retire_with]
  exact ⟨Function.update_self 0 0 c.gpr, next⟩

theorem inOrder_raised (c : Cpu) (code ce : U32) (bad : U64) (refill : Bool) :
    InOrder (raised c code ce bad refill) :=
  inOrder_retire fun _ => by rw [raiseException_eq]

theorem advancePc_next (c : Cpu) (pc : U64) (slot : Bool) :
    (c.advancePc pc slot).branchPending = false →
      (c.advancePc pc slot).nextPc = (c.advancePc pc slot).pc + 4 := by
  unfold advancePc
  split_ifs with inSlot pending
  · exact fun _ => rfl
  · intro clear
    exact absurd (pending.symm.trans clear) (by simp)
  · exact fun _ => rfl

theorem inOrder_finish {insn : U32} (h : Finish insn s t) : InOrder t.cpu := by
  cases h with
  | faulted fcr31 unknown llBit miss =>
    rename_i code ce bad refill
    have entered := inOrder_raised (s.cpu.enterStep.atFault fcr31 unknown llBit) code ce bad refill
    exact ⟨entered.zero, fun _ => entered.next (by rw [raised, retire_branchPending]; rfl)⟩
  | completed => exact inOrder_retire (advancePc_next _ _ _)

theorem InOrder.step (h : InOrder s.cpu) (effect : StepEffect fp s t) : InOrder t.cpu := by
  cases effect with
  | halted => exact ⟨h.zero, h.next⟩
  | interrupt => exact inOrder_raised _ _ 0 _ _
  | fetchFault => exact inOrder_raised _ _ 0 _ _
  | executed running aligned translated read ran finish =>
    have done := inOrder_finish finish
    exact done

theorem InOrder.cached {insn : U32} (effect : CachedEffect fp s insn t) : InOrder t.cpu := by
  cases effect with
  | interrupt => exact inOrder_raised _ _ 0 _ _
  | executed ran finish => exact inOrder_finish finish

theorem writeGpr_zero (c : Cpu) (i : BitVec 5) (value : U64) :
    (c.writeGpr i value).gpr 0 = c.gpr 0 := by
  unfold writeGpr
  split
  case isTrue nonzero => exact Function.update_of_ne (Ne.symm nonzero) _ _
  case isFalse => rfl

theorem InOrder.perform (a : CpuAct) (h : InOrder s.cpu) : InOrder (a.perform fp s).cpu := by
  cases a with
  | step => exact h.step (step_cases fp s)
  | cached insn => exact InOrder.cached (blockInsn_cases fp s insn)
  | device a => exact h.kept (cop0Only_of_offLine (frame_perform a s).cpu)
  | rcpInterrupt level => exact h.kept (by cases level <;> rfl)
  | setPc pc => exact ⟨h.zero, fun _ => rfl⟩
  | setGpr i value =>
    refine ⟨(writeGpr_zero _ _ _).trans h.zero, fun clear => ?_⟩
    simp only [CpuAct.perform, Sys.onCpu_cpu, writeGpr] at clear ⊢
    split_ifs at clear ⊢
    · exact h.next clear
    · exact h.next clear
  | setHiLo hi lo => exact ⟨h.zero, h.next⟩
  | setFpr i value => exact ⟨h.zero, h.next⟩
  | setCop0 i value =>
    refine h.kept ?_
    dsimp only [CpuAct.perform]
    rw [setCop0_cpu]
    exact cop0Only_setCop0Value i value
  | setHalted halted => exact ⟨h.zero, h.next⟩

theorem inOrder_reset (s : Sys) : InOrder s.reset.cpu := ⟨rfl, fun _ => rfl⟩

end InOrder

section Return

variable {s t : Sys} {fp : HostFpu}

theorem execute_eret (kernel : s.cpu.coprocessorUsable 0 = true) :
    execute fp s eretWord = s.onCpu doEret := by
  have decoded : execute fp s eretWord = execCop0 s eretWord := rfl
  have field : (Insn.rs eretWord).toNat = 0x10 := rfl
  rw [decoded, execCop0, kernel]
  simp only [field]
  rfl

theorem levels_of_exl {c : Cpu} (set : c.exl = true) : c.status &&& (SR_EXL ||| SR_ERL) ≠ 0 := by
  intro clear
  have low : c.status &&& SR_EXL = 0 := by
    rw [show SR_EXL = (SR_EXL ||| SR_ERL) &&& SR_EXL from rfl, ← BitVec.and_assoc, clear]
    exact BitVec.zero_and
  exact absurd low (bne_iff_ne.mp set)

theorem usable_of_exl {c : Cpu} (set : c.exl = true) : c.coprocessorUsable 0 = true := by
  have kernel : c.kernelMode = true := by simp only [kernelMode, if_pos (levels_of_exl set)]
  simp [coprocessorUsable, kernel]

/-- The CPU as ERET executes in a handler that no branch leads into. -/
def returning (c : Cpu) : Cpu :=
  ((c.markSlot.enterStep).doEret.advancePc c.pc c.branchPending).retire

theorem step_eret (fp : HostFpu) (running : s.cpu.halted = false) (set : s.cpu.exl = true)
    {p : PhysicalAddress} (aligned : s.cpu.pc &&& 3 = 0)
    (translated : s.cpu.translateAddress s.cpu.pc false = .ok p)
    (read : Bus.read32 s p = (eretWord, s)) :
    step fp s = (s.onCpu returning).emitAll [.load p 4] := by
  have quiet : ¬ s.cpu.Interrupted := fun pending => levels_of_exl set pending.2.1
  have marked : Bus.read32 (s.onCpu markSlot) p = (eretWord, s.onCpu markSlot) := by
    rw [read32_onCpu, read]
    rfl
  have usable : ((s.onCpu markSlot).onCpu enterStep).cpu.coprocessorUsable 0 = true :=
    usable_of_exl (by
      rw [Sys.onCpu_cpu, exl, status, enterStep_cop0]
      exact set)
  have counted : s.cpu.markSlot.enterStep.doEret.exceptionCount = s.cpu.exceptionCount :=
    enterStep_exceptionCount _
  rw [step_uninterrupted fp running quiet, stepInsn_fetched fp aligned translated marked,
    finishStep, execute_eret usable]
  simp only [Sys.onCpu_cpu, counted, ne_eq, not_true_eq_false, if_false]
  rfl

theorem returning_eq {c : Cpu} (settled : c.branchPending = false) (erl : c.status &&& SR_ERL = 0) :
    returning c = retire { c.setCop0Reg Cop0Reg.Status (c.status &&& ~~~SR_EXL) with
      pc := (c.cop0 Cop0Reg.EPC).setWidth 64
      nextPc := (c.cop0 Cop0Reg.EPC).setWidth 64 + 4
      branchPending := false
      inDelaySlot := false
      llBit := false } := by
  have entered : c.markSlot.enterStep = { c with
      inDelaySlot := false, nextPc := c.pc + 4, branchPending := false } := by
    simp [enterStep, markSlot, settled]
  have level : c.cop0 Cop0Reg.Status &&& SR_ERL = 0 := erl
  rw [returning, entered, settled]
  simp only [doEret, advancePc, status, level, ne_eq, not_true_eq_false, decide_false,
    Bool.false_eq_true, if_false]
  rfl

theorem zeroExtend_eq_iff (pc : U64) : (pc.setWidth 32).setWidth 64 = pc ↔ pc.toNat < 2 ^ 32 := by
  rw [← BitVec.toNat_inj]
  simp only [BitVec.toNat_setWidth]
  omega

theorem set_clear_bit {a bit : U32} (clear : a &&& bit = 0) : (a ||| bit) &&& ~~~bit = a := by
  ext i hi
  have low : (a &&& bit)[i] = false := by simp [clear]
  rw [BitVec.getElem_and] at low
  cases high : bit[i] <;> simp_all

theorem update_zero_self {f : BitVec 5 → U64} (zero : f 0 = 0) : Function.update f 0 0 = f := by
  rw [← zero, Function.update_eq_self]

section Raised

variable {c : Cpu}

/-- The CPU when an interrupt has been taken. -/
def taken (c : Cpu) : Cpu := raised c ExcCode.Int 0 0 false

theorem taken_status (c : Cpu) : (taken c).status = c.status ||| SR_EXL :=
  (raised_cop0 (by decide)).trans (entered_status _ _ _ _)

theorem entered_cop0 {i : BitVec 5}
    (other : i ≠ Cop0Reg.Status ∧ i ≠ Cop0Reg.EPC ∧ i ≠ Cop0Reg.Cause) :
    (c.entered ExcCode.Int 0 0).cop0 i = c.cop0 i := by
  have address (d : Cpu) : enterBadVaddr d ExcCode.Int 0 = d := by
    simp only [enterBadVaddr]
    rw [if_neg (by decide), if_neg (by decide)]
  rw [entered, cop0_setCop0Reg, if_neg other.1, address]
  simp only [enterCause]
  split_ifs <;> simp [cop0_setCop0Reg, other]

theorem taken_cop0 {i : BitVec 5}
    (other : i ∉ timeRegs ∧ i ≠ Cop0Reg.Status) : (taken c).cop0 i = c.cop0 i := by
  have apart : i ≠ Cop0Reg.Count ∧ i ≠ Cop0Reg.Random ∧ i ≠ Cop0Reg.EPC ∧ i ≠ Cop0Reg.Cause := by
    simpa [timeRegs] using other.1
  rw [taken, raised_cop0 ⟨apart.1, apart.2.1, apart.2.2.2⟩]
  exact entered_cop0 ⟨other.2, apart.2.2⟩

theorem taken_count (c : Cpu) : (taken c).cop0 Cop0Reg.Count = c.cop0 Cop0Reg.Count + 1 := by
  rw [taken, raised, retire_count]
  exact congrArg (· + 1) (entered_cop0 (i := Cop0Reg.Count) (by decide))

theorem taken_epc (clear : c.exl = false) (slot : c.inDelaySlot = false) :
    (taken c).cop0 Cop0Reg.EPC = c.pc.setWidth 32 := by
  rw [taken, raised_epc, clear, slot]
  rfl

theorem taken_lines (clear : c.exl = false) (slot : c.inDelaySlot = false)
    (away : c.cop0 Cop0Reg.Count + 1 ≠ c.cop0 Cop0Reg.Compare) :
    (taken c).cop0 Cop0Reg.Cause &&& CAUSE_LINES = c.cop0 Cop0Reg.Cause &&& CAUSE_LINES := by
  have raises (i : BitVec 5) : (c.raiseException ExcCode.Int 0 0 false).cop0 i =
      (c.entered ExcCode.Int 0 0).cop0 i := rfl
  have quiet : ¬ (c.raiseException ExcCode.Int 0 0 false).TimerDue := by
    rw [TimerDue, raises, raises, entered_cop0 (by decide), entered_cop0 (by decide)]
    exact away
  rw [taken, raised, retire_cause_of_away _ quiet, raises, entered_cause,
    if_pos (bne_eq_false_iff_eq.mp clear), slot, if_neg Bool.false_ne_true,
    andNot_and_of_disjoint _ (by decide), entryCause_lines]

theorem cleared_self (slot : c.inDelaySlot = false) (zero : c.gpr 0 = 0) :
    { c with gpr := Function.update c.gpr 0 0, inDelaySlot := false } = c := by
  rw [update_zero_self zero, ← slot]

theorem taken_eq (outside : c.branchPending = false) (slot : c.inDelaySlot = false)
    (zero : c.gpr 0 = 0) : taken c =
      { c with
        cop0 := (taken c).cop0
        cycles := (taken c).cycles
        pc := (taken c).pc
        nextPc := (taken c).nextPc
        llBit := false
        exceptionCount := c.exceptionCount + 1 } := by
  have settled : { c with
      gpr := Function.update c.gpr 0 0, inDelaySlot := false, branchPending := false } = c := by
    refine (congrArg (fun pending => { c with
      gpr := Function.update c.gpr 0 0, inDelaySlot := false, branchPending := pending })
      outside.symm).trans ?_
    exact cleared_self slot zero
  have raised : taken c = { c with
      gpr := Function.update c.gpr 0 0
      cop0 := (taken c).cop0
      cycles := (taken c).cycles
      pc := (taken c).pc
      nextPc := (taken c).nextPc
      llBit := false
      branchPending := false
      inDelaySlot := false
      exceptionCount := c.exceptionCount + 1 } := by
    rw [taken, raised, retire_with, raiseException_with]
  refine raised.trans ?_
  generalize taken c = d
  exact congrArg (fun e => { e with
    cop0 := d.cop0, cycles := d.cycles, pc := d.pc, nextPc := d.nextPc, llBit := false
    exceptionCount := c.exceptionCount + 1 }) settled

/-- The CPU with its program counter through EPC and its reservation lost. -/
def narrowed (c : Cpu) : Cpu :=
  { c with
    pc := (c.pc.setWidth 32).setWidth 64
    nextPc := (c.pc.setWidth 32).setWidth 64 + 4
    llBit := false }

/-- Between instructions, with neither exception level set. -/
structure Interruptible (c : Cpu) : Prop where
  settled : c.branchPending = false
  outside : c.inDelaySlot = false
  zero : c.gpr 0 = 0
  erl : c.status &&& SR_ERL = 0
  exl : c.exl = false

section Returned

variable (free : Interruptible c)
include free

theorem returned_retires : ∃ d : Cpu, d = { narrowed c with
      cop0 := Function.update (taken c).cop0 Cop0Reg.Status c.status
      cycles := (taken c).cycles
      exceptionCount := c.exceptionCount + 1 } ∧ returning (taken c) = d.retire := by
  refine ⟨_, rfl, ?_⟩
  have level : (taken c).status &&& SR_ERL = 0 := by
    rw [taken_status, or_and_of_disjoint _ (by decide), free.erl]
  have back : (c.status ||| SR_EXL) &&& ~~~SR_EXL = c.status :=
    set_clear_bit (bne_eq_false_iff_eq.mp free.exl)
  have eq := taken_eq free.settled free.outside free.zero
  have settled : (taken c).branchPending = false := by
    rw [eq]
    exact free.settled
  rw [returning_eq settled level, taken_epc free.exl free.outside, taken_status, back]
  generalize taken c = d at eq ⊢
  rw [eq, setCop0Reg, narrowed, free.settled, free.outside]

theorem returned_eq : returning (taken c) =
    { narrowed c with
      cop0 := (returning (taken c)).cop0
      cycles := (returning (taken c)).cycles
      exceptionCount := c.exceptionCount + 1 } := by
  obtain ⟨d, eq, went⟩ := returned_retires free
  have ran := retire_with d
  rw [went]
  generalize d.retire = e at ran ⊢
  have cycles : d.cycles + 1 = e.cycles := (congrArg (·.cycles) ran).symm
  rw [cycles, eq] at ran
  refine ran.trans ?_
  exact congrArg (fun b => { b with
    cop0 := e.cop0, cycles := e.cycles, exceptionCount := c.exceptionCount + 1 })
    (cleared_self (c := narrowed c) free.outside free.zero)

theorem returned_cop0 {i : BitVec 5} (visible : i ∉ timeRegs) :
    (returning (taken c)).cop0 i = c.cop0 i := by
  obtain ⟨d, eq, went⟩ := returned_retires free
  have apart : i ≠ Cop0Reg.Count ∧ i ≠ Cop0Reg.Random ∧ i ≠ Cop0Reg.EPC ∧ i ≠ Cop0Reg.Cause := by
    simpa [timeRegs] using visible
  rw [went, retire_cop0 _ ⟨apart.1, apart.2.1, apart.2.2.2⟩, eq]
  by_cases status : i = Cop0Reg.Status
  · rw [status]
    exact Function.update_self Cop0Reg.Status c.status (taken c).cop0
  · exact (Function.update_of_ne status _ _).trans (taken_cop0 ⟨visible, status⟩)

theorem returned_lines (away : TimerAway c) :
    (returning (taken c)).cop0 Cop0Reg.Cause &&& CAUSE_LINES =
      c.cop0 Cop0Reg.Cause &&& CAUSE_LINES := by
  obtain ⟨d, eq, went⟩ := returned_retires free
  have kept {i : BitVec 5} (other : i ≠ Cop0Reg.Status) : d.cop0 i = (taken c).cop0 i := by
    rw [eq]
    exact Function.update_of_ne other _ _
  have quiet : ¬ d.TimerDue := by
    rw [TimerDue, kept (by decide), kept (by decide), taken_count, taken_cop0 (by decide),
      BitVec.add_assoc]
    exact away.2
  rw [went, retire_cause_of_away _ quiet, kept (by decide),
    taken_lines free.exl free.outside away.1]

theorem returned_restored : Restored (narrowed c) (returning (taken c)) := by
  have status := returned_cop0 free (i := Cop0Reg.Status) (by decide)
  rw [returned_eq free] at status ⊢
  exact ⟨rfl, rfl, rfl, rfl, rfl, rfl, rfl, status, rfl⟩

theorem returned_retimed (away : TimerAway c) (same : narrowed c = c) :
    Cpu.Retimed 1 c (returning (taken c)) := by
  have eq := returned_eq free
  rw [same] at eq
  exact ⟨eq, fun i visible => returned_cop0 free visible,
    returned_lines free away⟩

end Returned

end Raised

theorem interruptible (settled : s.cpu.branchPending = false) (pending : s.cpu.Interrupted)
    (between : Between s) (inOrder : InOrder s.cpu) : Interruptible s.cpu := by
  refine ⟨settled, between.outside, inOrder.zero, ?_, ?_⟩
  · rw [show SR_ERL = (SR_EXL ||| SR_ERL) &&& SR_ERL from rfl, ← BitVec.and_assoc, pending.2.1]
    exact BitVec.zero_and
  · by_contra set
    exact levels_of_exl (by simpa using set) pending.2.1

theorem narrowed_of_short {c : Cpu} (pc : (c.pc.setWidth 32).setWidth 64 = c.pc)
    (next : c.nextPc = c.pc + 4) (unlinked : c.llBit = false) : narrowed c = c := by
  rw [narrowed, pc, ← next, ← unlinked]

theorem taken_vector (c : Cpu) : (taken c).pc = 0xBFC00380 ∨ (taken c).pc = 0x80000180 := by
  rw [taken, raised_pc, if_neg (by simp)]
  cases c.bev with
  | true => exact .inl rfl
  | false => exact .inr rfl

/-- The vector is in memory where a read changes nothing. -/
theorem read_vector {insn : U32} (set : s.cpu.exl = true)
    (vector : s.cpu.pc = 0xBFC00380 ∨ s.cpu.pc = 0x80000180) (handler : Fetches s insn) :
    ∃ p, s.cpu.pc &&& 3 = 0 ∧ s.cpu.translateAddress s.cpu.pc false = .ok p ∧
      Bus.read32 s p = (insn, s) := by
  obtain ⟨p, aligned, translated, word⟩ := handler
  refine ⟨p, aligned, translated, ?_⟩
  have mode : s.cpu.mode = 0 := if_pos (levels_of_exl set)
  have memory : p = 0x1FC00380 ∨ p = 0x180 := by
    rcases vector with pc | pc
    · rw [pc, translateAddress, mode] at translated
      exact .inl (Except.ok.inj translated).symm
    · rw [pc, translateAddress, mode] at translated
      exact .inr (Except.ok.inj translated).symm
  have quiet : Bus.isMmioRegion (Bus.physical p) = false := by
    rcases memory with rfl | rfl <;> decide
  have read : Bus.read32 s p = (Bus.read32Const s (Bus.physical p), s) := by
    unfold Bus.read32
    rw [if_neg (by simp [quiet])]
  rw [read] at word ⊢
  rw [← word]

theorem interrupt_eret (fp : HostFpu) (running : s.cpu.halted = false)
    (settled : s.cpu.branchPending = false) (pending : s.cpu.Interrupted)
    (handler : Fetches (step fp s) eretWord) :
    ∃ p, step fp (step fp s) =
      (s.onCpu fun c => returning (taken c)).emitAll [.load p 4] := by
  have entered : step fp s = s.onCpu taken := step_interrupted fp running settled pending
  rw [entered] at handler ⊢
  have awake : (s.onCpu taken).cpu.halted = false := by
    rw [Sys.onCpu_cpu, taken, raised, retire_with, raiseException_with]
    exact running
  have set : (s.onCpu taken).cpu.exl = true := raised_exl
  obtain ⟨p, aligned, translated, read⟩ := read_vector set (taken_vector s.cpu) handler
  exact ⟨p, step_eret fp awake set aligned translated read⟩

/-- A step that takes an interrupt and an ERET at its vector let the program go
on as without them exactly when its counter fits the 32 bits of EPC and it holds
no reservation. -/
theorem interrupt_eret_resumes_iff (fp : HostFpu) (s₀ : Sys) (acts : List CpuAct) :
    let s := Runs.run (CpuAct.perform fp) acts s₀.reset
    s.cpu.halted = false → s.cpu.branchPending = false → s.cpu.Interrupted →
    Fetches (step fp s) eretWord →
    (Resumed fp s (step fp (step fp s)) ↔ s.cpu.pc.toNat < 2 ^ 32 ∧ s.cpu.llBit = false) := by
  intro s running settled pending handler
  have between : Between s :=
    Runs.run_preserves (fun a _ h => Between.perform fp a h) acts (between_reset s₀)
  have inOrder : InOrder s.cpu := Runs.run_preserves (P := fun x : Sys => InOrder x.cpu)
    (fun a _ h => h.perform a) acts (inOrder_reset s₀)
  have free : Interruptible s.cpu := interruptible settled pending between inOrder
  obtain ⟨p, back⟩ := interrupt_eret fp running settled pending handler
  rw [back]
  have restored := returned_restored free
  constructor
  · intro same
    exact ⟨(zeroExtend_eq_iff s.cpu.pc).mp (restored.pc.symm.trans same.restored.pc),
      same.restored.llBit.symm.trans restored.llBit⟩
  · intro short
    have same : narrowed s.cpu = s.cpu := narrowed_of_short
      ((zeroExtend_eq_iff s.cpu.pc).mpr short.1) (inOrder.next settled) short.2
    rw [same] at restored
    refine ⟨restored, fun away acts ignore => CpuAct.retimed_run ⟨?_, rfl⟩ acts ignore⟩
    exact returned_retimed free away same

/-- A JR and its delay slot, with interrupts let through, ERET at the vector and
a JAL at the target. -/
def jumpThenInterrupt (target : U64) : List CpuAct :=
  [.device (.write32 0x180 eretWord), .device (.write32 0x1000 0x01000008),
    .device (.write32 0x2000 0x0C000840), .setCop0 Cop0Reg.Status 0x34000401, .setGpr 8 target,
    .setPc 0x80001000, .step, .step, .rcpInterrupt true]

/-- The machine with an interrupt pending at the target of the jump. -/
def jumped (target : U64) : Sys :=
  Runs.run (CpuAct.perform default) (jumpThenInterrupt target) (Sys.reset {})

/-- The interrupt line goes down and the JAL executes. -/
def callAfter : List CpuAct := [.rcpInterrupt false, .step]

theorem fetches_unique {insn w : U32} {p : PhysicalAddress} (fetches : Fetches s insn)
    (translated : s.cpu.translateAddress s.cpu.pc false = .ok p) (word : (Bus.read32 s p).1 = w) :
    insn = w := by
  obtain ⟨q, -, other, read⟩ := fetches
  rw [translated] at other
  obtain rfl := Except.ok.inj other
  exact read.symm.trans word

theorem interrupt_eret_resumes_at_low_address :
    let s := jumped 0x80002000
    let t := step default (step default s)
    Resumed default s t ∧ TimerAway s.cpu ∧
      Runs.Along (Runs.both (CpuAct.performFresh default)) (CpuAct.IgnoresTime default) callAfter
        ({ s with log := [] }, { t with log := [] }) := by
  have handler : Fetches (step default (jumped 0x80002000)) eretWord :=
    ⟨0x180, by decide +kernel, rfl, by decide +kernel⟩
  intro s t
  refine ⟨?_, by decide +kernel, ⟨fun _ none => none.elim, fun word => by cases word⟩, ?_, trivial⟩
  · exact (interrupt_eret_resumes_iff default {} (jumpThenInterrupt 0x80002000)
      (by decide +kernel) (by decide +kernel)
      ⟨by decide +kernel, by decide +kernel, by decide +kernel⟩ handler).mpr (by decide +kernel)
  · refine ⟨fun insn executes _ => ?_, fun _ _ => ?_⟩
    · have call : insn = 0x0C000840 :=
        fetches_unique executes.2 (p := 0x2000) (by decide +kernel) (by decide +kernel)
      have none : cop0Reads 0x0C000840 = [] := by decide
      rw [call]
      intro i listed
      rw [none] at listed
      exact absurd listed List.not_mem_nil
    · exact iff_of_false (by decide +kernel) (by decide +kernel)

/-- An LL, with interrupts let through, ERET at the vector and an SC behind. -/
def linkThenInterrupt : List CpuAct :=
  [.device (.write32 0x180 eretWord), .device (.write32 0x1000 0xC1090000),
    .device (.write32 0x1004 0xE10A0000), .setCop0 Cop0Reg.Status 0x34000401,
    .setGpr 8 0x80003000, .setPc 0x80001000, .step, .rcpInterrupt true]

/-- The machine with an interrupt pending between the LL and the SC. -/
def linked : Sys := Runs.run (CpuAct.perform default) linkThenInterrupt (Sys.reset {})

theorem interrupt_eret_astray :
    ((jumped 0xFFFFFFFF80002000).cpu.Interrupted ∧
      Fetches (step default (jumped 0xFFFFFFFF80002000)) eretWord ∧
      ¬ Resumed default (jumped 0xFFFFFFFF80002000)
        (step default (step default (jumped 0xFFFFFFFF80002000)))) ∧
    linked.cpu.Interrupted ∧ Fetches (step default linked) eretWord ∧
      (Runs.run (CpuAct.perform default) callAfter linked).cpu.gpr 10 = 1 ∧
      (Runs.run (CpuAct.perform default) callAfter
        (step default (step default linked))).cpu.gpr 10 = 0 := by
  refine ⟨⟨⟨by decide +kernel, by decide +kernel, by decide +kernel⟩,
    ⟨0x180, by decide +kernel, rfl, by decide +kernel⟩, fun same => ?_⟩,
    ⟨by decide +kernel, by decide +kernel, by decide +kernel⟩,
    ⟨0x180, by decide +kernel, rfl, by decide +kernel⟩, by decide +kernel, by decide +kernel⟩
  exact absurd same.restored.pc (by decide +kernel)

end Return

end N64
