import N64Emu.CpuActs
import N64Emu.DevicesBeside

/-!
# A CPU at another time

Two CPUs that run the same program at different times: Count, Random, EPC and
the fields of Cause other than its interrupt lines are apart, and so are the
cycles and the exceptions counted. What an instruction does to the rest does
not depend on them.
-/

set_option autoImplicit false

namespace N64.Cpu

open Words Insn Fpu

/-- The registers that keep time, and the record of the last exception. -/
def timeRegs : List (BitVec 5) := [Cop0Reg.Count, Cop0Reg.Random, Cop0Reg.EPC, Cop0Reg.Cause]

def CAUSE_LINES : U32 := 0xFF00

/-- `d` is `c` at another time, with `more` further exceptions counted. -/
structure Retimed (more : U64) (c d : Cpu) : Prop where
  rest : d = { c with
    cop0 := d.cop0
    cycles := d.cycles
    exceptionCount := c.exceptionCount + more }
  cop0 : ∀ i, i ∉ timeRegs → d.cop0 i = c.cop0 i
  lines : d.cop0 Cop0Reg.Cause &&& CAUSE_LINES = c.cop0 Cop0Reg.Cause &&& CAUSE_LINES

/-- `c` with what keeps time in `h`. -/
def retimed (more : U64) (h c : Cpu) : Cpu :=
  { c with
    cop0 := fun i =>
      if i = Cop0Reg.Cause then (c.cop0 i &&& CAUSE_LINES) ||| (h.cop0 i &&& ~~~CAUSE_LINES)
      else if i ∈ timeRegs then h.cop0 i else c.cop0 i
    cycles := h.cycles
    exceptionCount := c.exceptionCount + more }

section Relation

variable {more : U64} {c d : Cpu}

theorem split_mask {x y m : U32} (same : y &&& m = x &&& m) : (x &&& m) ||| (y &&& ~~~m) = y := by
  rw [← same]
  ext i hi
  simp only [BitVec.getElem_or, BitVec.getElem_and, BitVec.getElem_not]
  cases y[i] <;> cases m[i] <;> rfl

theorem Retimed.eq (same : Retimed more c d) : d = retimed more d c := by
  have cop0 : d.cop0 = (retimed more d c).cop0 := by
    funext i
    simp only [retimed]
    split_ifs with cause timed
    · subst cause
      exact (split_mask same.lines).symm
    · rfl
    · exact same.cop0 i timed
  rw [same.rest]
  exact congrArg (fun r => { c with
    cop0 := r, cycles := d.cycles, exceptionCount := c.exceptionCount + more }) cop0

theorem retimed_retimed (more : U64) (h c : Cpu) : Retimed more c (retimed more h c) := by
  refine ⟨rfl, ?_, ?_⟩
  · intro i visible
    have cause : i ≠ Cop0Reg.Cause := fun here => visible (here ▸ by decide)
    simp only [retimed, if_neg cause, if_neg visible]
  · simp only [retimed, if_true]
    have apart : h.cop0 Cop0Reg.Cause &&& ~~~CAUSE_LINES &&& CAUSE_LINES = 0 := by
      rw [BitVec.and_assoc, BitVec.not_and_self]
      exact BitVec.and_zero
    rw [or_and_of_disjoint _ apart, BitVec.and_assoc, BitVec.and_self]

theorem Retimed.of_eq {h : Cpu} (eq : d = retimed more h c) : Retimed more c d :=
  eq ▸ retimed_retimed more h c

theorem Retimed.map (same : Retimed more c d) (f : Cpu → Cpu)
    (commutes : ∀ h e, f (retimed more h e) = retimed more h (f e)) :
    Retimed more (f c) (f d) :=
  Retimed.of_eq ((congrArg f same.eq).trans (commutes d c))

end Relation

section Registers

variable {more : U64} {c d : Cpu}

theorem Retimed.status (same : Retimed more c d) : d.status = c.status :=
  same.cop0 Cop0Reg.Status (by decide)

theorem Retimed.setCop0Reg (same : Retimed more c d) (i : BitVec 5) (v : U32) :
    Retimed more (c.setCop0Reg i v) (d.setCop0Reg i v) := by
  refine ⟨?_, fun j visible => ?_, ?_⟩
  · rw [same.rest]
    rfl
  · rw [cop0_setCop0Reg, cop0_setCop0Reg, same.cop0 j visible]
  · rw [cop0_setCop0Reg, cop0_setCop0Reg]
    split
    · rfl
    · exact same.lines

/-- The two may set what keeps time differently. -/
theorem Retimed.setTime (same : Retimed more c d) {i : BitVec 5} (timed : i ∈ timeRegs)
    (other : i ≠ Cop0Reg.Cause) (v w : U32) :
    Retimed more (c.setCop0Reg i v) (d.setCop0Reg i w) := by
  refine ⟨?_, fun j visible => ?_, ?_⟩
  · rw [same.rest]
    rfl
  · have away : j ≠ i := fun here => visible (here ▸ timed)
    rw [cop0_setCop0Reg, cop0_setCop0Reg, if_neg away, if_neg away, same.cop0 j visible]
  · rw [cop0_setCop0Reg, cop0_setCop0Reg, if_neg other.symm, if_neg other.symm]
    exact same.lines

theorem Retimed.setCause (same : Retimed more c d) {v w : U32}
    (lines : w &&& CAUSE_LINES = v &&& CAUSE_LINES) :
    Retimed more (c.setCop0Reg Cop0Reg.Cause v) (d.setCop0Reg Cop0Reg.Cause w) := by
  refine ⟨?_, fun j visible => ?_, ?_⟩
  · rw [same.rest]
    rfl
  · have away : j ≠ Cop0Reg.Cause := fun here => visible (here ▸ by decide)
    rw [cop0_setCop0Reg, cop0_setCop0Reg, if_neg away, if_neg away, same.cop0 j visible]
  · rw [cop0_setCop0Reg, cop0_setCop0Reg, if_pos rfl, if_pos rfl, lines]

theorem entryCause_lines (code ce cause : U32) :
    entryCause code ce cause &&& CAUSE_LINES = cause &&& CAUSE_LINES := by
  have code_apart : (code &&& 0x1F) <<< 2 &&& CAUSE_LINES = 0 := by
    rw [BitVec.shiftLeft_and_distrib, BitVec.and_assoc]
    exact BitVec.and_zero
  have ce_apart : (ce &&& 0x3) <<< 28 &&& CAUSE_LINES = 0 := by
    rw [BitVec.shiftLeft_and_distrib, BitVec.and_assoc]
    exact BitVec.and_zero
  rw [entryCause, or_and_of_disjoint _ ce_apart, andNot_and_of_disjoint _ (by decide),
    or_and_of_disjoint _ code_apart, andNot_and_of_disjoint _ (by decide)]

theorem Retimed.enterCause (same : Retimed more c d) (code ce : U32) :
    Retimed more (enterCause c code ce) (enterCause d code ce) := by
  have lines (f : U32 → U32) (keeps : ∀ x, f x &&& CAUSE_LINES = x &&& CAUSE_LINES) :
      f (entryCause code ce (d.cop0 Cop0Reg.Cause)) &&& CAUSE_LINES =
        f (entryCause code ce (c.cop0 Cop0Reg.Cause)) &&& CAUSE_LINES := by
    rw [keeps, keeps, entryCause_lines, entryCause_lines, same.lines]
  have slot : d.inDelaySlot = c.inDelaySlot := by rw [same.rest]
  have pc : d.pc = c.pc := by rw [same.rest]
  simp only [N64.Cpu.enterCause]
  rw [same.status, slot, pc]
  split_ifs
  · exact (same.setCop0Reg _ _).setCause
      (lines (· ||| CAUSE_BD) fun x => or_and_of_disjoint _ (by decide))
  · exact (same.setCop0Reg _ _).setCause
      (lines (· &&& ~~~CAUSE_BD) fun x => andNot_and_of_disjoint _ (by decide))
  · exact same.setCause (lines id fun x => rfl)

theorem Retimed.updateCop0 (same : Retimed more c d) {i : BitVec 5} (visible : i ∉ timeRegs)
    (f : U32 → U32) :
    Retimed more (c.setCop0Reg i (f (c.cop0 i))) (d.setCop0Reg i (f (d.cop0 i))) := by
  rw [same.cop0 i visible]
  exact same.setCop0Reg i _

theorem Retimed.enterBadVaddr (same : Retimed more c d) (code : U32) (bad : U64) :
    Retimed more (enterBadVaddr c code bad) (enterBadVaddr d code bad) := by
  have vaddr := same.setCop0Reg Cop0Reg.BadVAddr (bad.setWidth 32)
  have tlb {c d : Cpu} (same : Retimed more c d) :=
    (same.updateCop0 (i := Cop0Reg.Context) (by decide) fun v =>
        (v &&& 0xFF800000) ||| ((bad.setWidth 32 >>> 9) &&& 0x007FFFF0)).updateCop0
      (i := Cop0Reg.EntryHi) (by decide) fun v => (v &&& 0xFF) ||| (bad.setWidth 32 &&& 0xFFFFE000)
  simp only [N64.Cpu.enterBadVaddr]
  split_ifs
  · exact tlb vaddr
  · exact tlb same
  · exact vaddr
  · exact same

theorem Retimed.counted (same : Retimed more c d) :
    Retimed more { c with exceptionCount := c.exceptionCount + 1 }
      { d with exceptionCount := d.exceptionCount + 1 } := by
  have count : d.exceptionCount + 1 = c.exceptionCount + 1 + more := by
    rw [same.rest]
    show c.exceptionCount + more + 1 = c.exceptionCount + 1 + more
    rw [BitVec.add_assoc, BitVec.add_comm more, BitVec.add_assoc]
  refine ⟨?_, same.cop0, same.lines⟩
  rw [count]
  exact congrArg (fun e : Cpu => { e with exceptionCount := c.exceptionCount + 1 + more }) same.rest

theorem Retimed.raiseException (same : Retimed more c d) (code : U32) (bad : U64) (ce : U32)
    (refill : Bool) :
    Retimed more (c.raiseException code bad ce refill) (d.raiseException code bad ce refill) := by
  have entry := ((same.counted.enterCause code ce).enterBadVaddr code bad).setCop0Reg
    Cop0Reg.Status (c.status ||| SR_EXL)
  rw [raiseException_eq, raiseException_eq, entered, entered, same.status]
  refine ⟨?_, entry.cop0, entry.lines⟩
  exact congrArg (fun e : Cpu => { e with
    pc := exceptionVector c.status refill
    nextPc := exceptionVector c.status refill + 4
    branchPending := false
    llBit := false }) entry.rest

theorem Retimed.raise (same : Retimed more c d) (code : U32) :
    Retimed more (c.raise code) (d.raise code) := same.raiseException _ _ _ _

theorem Retimed.raiseUnusable (same : Retimed more c d) (cop : U32) :
    Retimed more (c.raiseUnusable cop) (d.raiseUnusable cop) := same.raiseException _ _ _ _

theorem Retimed.raiseTranslationFault (same : Retimed more c d) (fault : TranslationFault)
    (bad : U64) (isStore : Bool) :
    Retimed more (c.raiseTranslationFault fault bad isStore)
      (d.raiseTranslationFault fault bad isStore) := by
  cases fault <;> exact same.raiseException _ _ _ _

/-- The timer is due at the end of the next instruction. -/
def TimerDue (c : Cpu) : Prop := c.cop0 Cop0Reg.Count + 1 = c.cop0 Cop0Reg.Compare

instance (c : Cpu) : Decidable c.TimerDue :=
  inferInstanceAs (Decidable (c.cop0 Cop0Reg.Count + 1 = c.cop0 Cop0Reg.Compare))

theorem bumpCount_eq (c : Cpu) : c.bumpCount =
    if c.TimerDue then
      (c.setCop0Reg Cop0Reg.Count (c.cop0 Cop0Reg.Count + 1)).setCop0Reg Cop0Reg.Cause
        (c.cop0 Cop0Reg.Cause ||| CAUSE_IP7)
    else c.setCop0Reg Cop0Reg.Count (c.cop0 Cop0Reg.Count + 1) := rfl

theorem Retimed.bumpCount (same : Retimed more c d) (due : c.TimerDue ↔ d.TimerDue) :
    Retimed more c.bumpCount d.bumpCount := by
  have ticked := same.setTime (i := Cop0Reg.Count) (by decide) (by decide)
    (c.cop0 Cop0Reg.Count + 1) (d.cop0 Cop0Reg.Count + 1)
  rw [bumpCount_eq, bumpCount_eq]
  by_cases now : c.TimerDue
  · rw [if_pos now, if_pos (due.mp now)]
    refine ticked.setCause ?_
    rw [BitVec.and_or_distrib_right, BitVec.and_or_distrib_right, same.lines]
  · rw [if_neg now, if_neg (now ∘ due.mpr)]
    exact ticked

theorem Retimed.advanceCount (same : Retimed more c d) (due : c.TimerDue ↔ d.TimerDue) :
    Retimed more c.advanceCount d.advanceCount :=
  (same.bumpCount due).setTime (i := Cop0Reg.Random) (by decide) (by decide) _ _

theorem Retimed.cycle (same : Retimed more c d) :
    Retimed more { c with cycles := c.cycles + 1 } { d with cycles := d.cycles + 1 } :=
  ⟨congrArg (fun e : Cpu => { e with cycles := d.cycles + 1 }) same.rest, same.cop0, same.lines⟩

theorem Retimed.retire (same : Retimed more c d) (due : c.TimerDue ↔ d.TimerDue) :
    Retimed more c.retire d.retire := by
  have cleared := same.map (fun e => { e with gpr := Function.update e.gpr 0 0 }) fun _ _ => rfl
  exact (cleared.advanceCount due).cycle.map (fun e => { e with inDelaySlot := false })
    fun _ _ => rfl

theorem and_lines (x y bits : U32) (same : y &&& CAUSE_LINES = x &&& CAUSE_LINES) :
    y &&& bits &&& CAUSE_LINES = x &&& bits &&& CAUSE_LINES := by
  rw [BitVec.and_assoc, BitVec.and_comm bits, ← BitVec.and_assoc, same, BitVec.and_assoc,
    BitVec.and_comm CAUSE_LINES, ← BitVec.and_assoc]

theorem or_lines (x y bits : U32) (same : y &&& CAUSE_LINES = x &&& CAUSE_LINES) :
    (y ||| bits) &&& CAUSE_LINES = (x ||| bits) &&& CAUSE_LINES := by
  rw [BitVec.and_or_distrib_right, BitVec.and_or_distrib_right, same]

theorem Retimed.setRcpInterrupt (same : Retimed more c d) (level : Bool) :
    Retimed more (c.setRcpInterrupt level) (d.setRcpInterrupt level) := by
  cases level with
  | true => exact same.setCause (or_lines _ _ _ same.lines)
  | false => exact same.setCause (and_lines _ _ _ same.lines)

theorem setRcpInterrupt_outside (c : Cpu) (level : Bool) :
    (c.setRcpInterrupt level).cop0 Cop0Reg.Cause &&& ~~~CAUSE_LINES =
      c.cop0 Cop0Reg.Cause &&& ~~~CAUSE_LINES := by
  cases level with
  | true =>
    simp only [N64.Cpu.setRcpInterrupt, if_true, cop0_setCop0Reg]
    exact or_and_of_disjoint _ (by decide)
  | false =>
    simp only [N64.Cpu.setRcpInterrupt, Bool.false_eq_true, if_false, cop0_setCop0Reg, if_true]
    exact andNot_and_of_disjoint _ (by decide)

theorem setRcpInterrupt_cop0 (c : Cpu) (level : Bool) {i : BitVec 5} (other : i ≠ Cop0Reg.Cause) :
    (c.setRcpInterrupt level).cop0 i = c.cop0 i := by
  cases level <;> exact (cop0_setCop0Reg _ _ _ _).trans (if_neg other)

theorem retimed_congr {h h' : Cpu} (cycles : h.cycles = h'.cycles)
    (timed : ∀ i ∈ timeRegs, i ≠ Cop0Reg.Cause → h.cop0 i = h'.cop0 i)
    (outside : h.cop0 Cop0Reg.Cause &&& ~~~CAUSE_LINES = h'.cop0 Cop0Reg.Cause &&& ~~~CAUSE_LINES) :
    retimed more h c = retimed more h' c := by
  have cop0 : (retimed more h c).cop0 = (retimed more h' c).cop0 := by
    funext i
    simp only [retimed]
    split_ifs with cause member
    · subst cause
      rw [outside]
    · exact timed i member cause
    · rfl
  exact (congrArg (fun r => { retimed more h c with cop0 := r }) cop0).trans
    (congrArg (fun r => { retimed more h' c with cycles := r }) cycles)

theorem retimed_cause (h c : Cpu) :
    (retimed more h c).cop0 Cop0Reg.Cause &&& ~~~CAUSE_LINES =
      h.cop0 Cop0Reg.Cause &&& ~~~CAUSE_LINES := by
  have apart : c.cop0 Cop0Reg.Cause &&& CAUSE_LINES &&& ~~~CAUSE_LINES = 0 := by
    rw [BitVec.and_assoc]
    exact BitVec.and_zero
  simp only [retimed, if_true]
  rw [BitVec.or_comm, or_and_of_disjoint _ apart, BitVec.and_assoc, BitVec.and_self]

/-- Devices beside the CPU at another time. -/
def retiming (more : U64) (h : Cpu) : CpuChange where
  apply := retimed more h
  line c level := by
    have moved := (retimed_retimed more h c).setRcpInterrupt level
    refine Eq.trans (Eq.symm (retimed_congr ?_ (fun i timed other => ?_) ?_)) moved.eq.symm
    · cases level <;> rfl
    · rw [setRcpInterrupt_cop0 _ _ other]
      simp only [retimed, if_neg other, if_pos timed]
    · rw [setRcpInterrupt_outside, retimed_cause]

theorem Retimed.setCop0Value (same : Retimed more c d) (i : BitVec 5) (v : U32) :
    Retimed more (c.setCop0Value i v) (d.setCop0Value i v) := by
  simp only [N64.Cpu.setCop0Value]
  split_ifs with readOnly index entryLo context pageMask wired entryHi compare cause
  · exact same
  · exact same.setCop0Reg i _
  · exact same.setCop0Reg i _
  · subst context
    exact same.updateCop0 (by decide) fun w => (w &&& 0x007FFFF0) ||| (v &&& 0xFF800000)
  · exact same.setCop0Reg i _
  · exact (same.setCop0Reg i _).setCop0Reg _ _
  · exact same.setCop0Reg i _
  · exact (same.setCop0Reg i v).setCause (and_lines _ _ _ (same.setCop0Reg i v).lines)
  · subst cause
    exact same.setCause (or_lines _ _ _ (and_lines _ _ _ same.lines))
  · exact same.setCop0Reg i v

end Registers

section Reads

variable {more : U64} {c d : Cpu} (same : Retimed more c d)
include same

theorem Retimed.gpr : d.gpr = c.gpr := by rw [same.rest]
theorem Retimed.fpr : d.fpr = c.fpr := by rw [same.rest]
theorem Retimed.hi : d.hi = c.hi := by rw [same.rest]
theorem Retimed.lo : d.lo = c.lo := by rw [same.rest]
theorem Retimed.pc : d.pc = c.pc := by rw [same.rest]
theorem Retimed.fcr31 : d.fcr31 = c.fcr31 := by rw [same.rest]
theorem Retimed.halted : d.halted = c.halted := by rw [same.rest]
theorem Retimed.branchPending : d.branchPending = c.branchPending := by rw [same.rest]
theorem Retimed.llBit : d.llBit = c.llBit := by rw [same.rest]
theorem Retimed.llAddr : d.llAddr = c.llAddr := by rw [same.rest]
theorem Retimed.tlb : d.tlb = c.tlb := by rw [same.rest]

theorem Retimed.exceptionCount : d.exceptionCount = c.exceptionCount + more := by rw [same.rest]

theorem Retimed.kernelMode : d.kernelMode = c.kernelMode := by
  rw [N64.Cpu.kernelMode, same.status]
  rfl

theorem Retimed.coprocessorUsable (cop : ℕ) :
    d.coprocessorUsable cop = c.coprocessorUsable cop := by
  rw [N64.Cpu.coprocessorUsable, same.kernelMode, same.status]
  rfl

theorem Retimed.fpuFrMode : d.fpuFrMode = c.fpuFrMode := by
  rw [N64.Cpu.fpuFrMode, same.status]
  rfl

theorem Retimed.readFprWord (i : BitVec 5) : d.readFprWord i = c.readFprWord i := by
  rw [N64.Cpu.readFprWord, same.fpr]
  rfl

theorem Retimed.readFprDouble (i : BitVec 5) : d.readFprDouble i = c.readFprDouble i := by
  simp only [N64.Cpu.readFprDouble, same.fpuFrMode, same.fpr, same.readFprWord]

theorem Retimed.roundingMode : d.roundingMode = c.roundingMode := by
  rw [N64.Cpu.roundingMode, same.fcr31]
  rfl

theorem Retimed.effective (insn : U32) : d.effective insn = c.effective insn := by
  rw [N64.Cpu.effective, same.gpr]
  rfl

theorem Retimed.translateAddress (vaddr : U64) (isStore : Bool) :
    d.translateAddress vaddr isStore = c.translateAddress vaddr isStore := by
  have mode : d.mode = c.mode := by
    rw [N64.Cpu.mode, same.status]
    rfl
  have entries : d.tlbEntries = c.tlbEntries := by
    rw [tlbEntries, same.tlb]
    rfl
  simp only [N64.Cpu.translateAddress, mode, entries, same.cop0 Cop0Reg.EntryHi (by decide)]

end Reads

section Integer

variable {more : U64} {c d : Cpu} (same : Retimed more c d)
include same

theorem Retimed.writeGpr (i : BitVec 5) (v : U64) :
    Retimed more (c.writeGpr i v) (d.writeGpr i v) := by
  unfold N64.Cpu.writeGpr
  split
  · exact same.map (fun e => { e with gpr := Function.update e.gpr i v }) fun _ _ => rfl
  · exact same

theorem Retimed.setHiLo (hi lo : U64) : Retimed more (c.setHiLo hi lo) (d.setHiLo hi lo) :=
  same.map (·.setHiLo hi lo) fun _ _ => rfl

theorem Retimed.writeChecked32 (i : BitVec 5) (r : Bool × U32) :
    Retimed more (c.writeChecked32 i r) (d.writeChecked32 i r) := by
  unfold N64.Cpu.writeChecked32
  split
  · exact same.raise _
  · exact same.writeGpr _ _

theorem Retimed.writeChecked64 (i : BitVec 5) (r : Bool × U64) :
    Retimed more (c.writeChecked64 i r) (d.writeChecked64 i r) := by
  unfold N64.Cpu.writeChecked64
  split
  · exact same.raise _
  · exact same.writeGpr _ _

theorem Retimed.trapIf (condition : Bool) :
    Retimed more (c.trapIf condition) (d.trapIf condition) := by
  unfold N64.Cpu.trapIf
  split
  · exact same.raise _
  · exact same

theorem Retimed.branchAbs (target : U64) : Retimed more (c.branchAbs target) (d.branchAbs target) :=
  same.map (·.branchAbs target) fun _ _ => rfl

theorem Retimed.link (reg : BitVec 5) : Retimed more (c.link reg) (d.link reg) := by
  rw [N64.Cpu.link, N64.Cpu.link, same.pc]
  exact same.writeGpr _ _

theorem Retimed.branchIf (taken : Bool) (insn : U32) :
    Retimed more (c.branchIf taken insn) (d.branchIf taken insn) :=
  same.map (·.branchIf taken insn) fun _ _ => by cases taken <;> rfl

theorem Retimed.branchLikelyIf (taken : Bool) (insn : U32) :
    Retimed more (c.branchLikelyIf taken insn) (d.branchLikelyIf taken insn) :=
  same.map (·.branchLikelyIf taken insn) fun _ _ => by cases taken <;> rfl

theorem Retimed.reserved : Retimed more c.reserved d.reserved :=
  (same.map (fun e => { e with unknownOpcodeCount := e.unknownOpcodeCount + 1 })
    fun _ _ => rfl).raise _

theorem Retimed.div (num den : U32) : Retimed more (c.div num den) (d.div num den) := by
  unfold N64.Cpu.div
  split_ifs <;> exact same.setHiLo _ _

theorem Retimed.divu (num den : U32) : Retimed more (c.divu num den) (d.divu num den) := by
  unfold N64.Cpu.divu
  split_ifs <;> exact same.setHiLo _ _

theorem Retimed.ddiv (num den : U64) : Retimed more (c.ddiv num den) (d.ddiv num den) := by
  unfold N64.Cpu.ddiv
  split_ifs <;> exact same.setHiLo _ _

theorem Retimed.ddivu (num den : U64) : Retimed more (c.ddivu num den) (d.ddivu num den) := by
  unfold N64.Cpu.ddivu
  split_ifs <;> exact same.setHiLo _ _

theorem Retimed.execSpecialFn (f : SpecialFn) (insn : U32) :
    Retimed more (c.execSpecialFn f insn) (d.execSpecialFn f insn) := by
  cases f
  case MTHI => exact same.map (fun e => { e with hi := e.gpr (rs insn) }) fun _ _ => rfl
  case MTLO => exact same.map (fun e => { e with lo := e.gpr (rs insn) }) fun _ _ => rfl
  all_goals simp only [N64.Cpu.execSpecialFn, same.gpr, same.hi, same.lo]
  case JR => exact same.branchAbs _
  case JALR => exact (same.link _).branchAbs _
  case SYSCALL => exact same.raise _
  case BREAK => exact same.raise _
  case SYNC => exact same
  case DIV => exact same.div _ _
  case DIVU => exact same.divu _ _
  case DDIV => exact same.ddiv _ _
  case DDIVU => exact same.ddivu _ _
  all_goals first
    | exact same.writeGpr _ _
    | exact same.setHiLo _ _
    | exact same.writeChecked32 _ _
    | exact same.writeChecked64 _ _
    | exact same.trapIf _

theorem Retimed.execSpecial (insn : U32) :
    Retimed more (c.execSpecial insn) (d.execSpecial insn) := by
  unfold N64.Cpu.execSpecial
  split
  · exact same.execSpecialFn _ insn
  · exact same.reserved

theorem Retimed.execRegimm (insn : U32) :
    Retimed more (c.execRegimm insn) (d.execRegimm insn) := by
  unfold N64.Cpu.execRegimm
  cases RegimmRt.ofCode (rt insn).toNat with
  | none => exact same.reserved
  | some r =>
    have linked := same.link 31
    cases r <;> simp only [execRegimmRt, same.gpr]
    all_goals first
      | exact same.branchIf _ _
      | exact same.branchLikelyIf _ _
      | exact same.trapIf _
      | exact linked.branchIf _ _
      | exact linked.branchLikelyIf _ _

end Integer

section FloatingPoint

variable {more : U64} {c d : Cpu} (same : Retimed more c d)
include same

theorem Retimed.setFcr31 (value : U32) :
    Retimed more { c with fcr31 := value } { d with fcr31 := value } :=
  same.map (fun e => { e with fcr31 := value }) fun _ _ => rfl

theorem Retimed.writeFprWord (i : BitVec 5) (v : U32) :
    Retimed more (c.writeFprWord i v) (d.writeFprWord i v) :=
  same.map (·.writeFprWord i v) fun _ _ => rfl

/-- Both write the pair, or neither does. -/
theorem Retimed.writeFprDouble (i : BitVec 5) (v : U64) :
    (c.writeFprDouble i v = none ∧ d.writeFprDouble i v = none) ∨
      ∃ c' d', c.writeFprDouble i v = some c' ∧ d.writeFprDouble i v = some d' ∧
        Retimed more c' d' := by
  simp only [N64.Cpu.writeFprDouble, same.fpuFrMode]
  split_ifs
  · exact Or.inr ⟨_, _, rfl, rfl,
      same.map (fun e => { e with fpr := Function.update e.fpr i v }) fun _ _ => rfl⟩
  · exact Or.inl ⟨rfl, rfl⟩
  · exact Or.inr ⟨_, _, rfl, rfl, (same.writeFprWord _ _).writeFprWord _ _⟩

theorem Retimed.setFprDouble (i : BitVec 5) (v : U64) :
    Retimed more (c.setFprDouble i v) (d.setFprDouble i v) := by
  unfold N64.Cpu.setFprDouble
  rcases same.writeFprDouble i v with ⟨left, right⟩ | ⟨c', d', left, right, wrote⟩
  · rw [left, right]
    exact same
  · rw [left, right]
    exact wrote

theorem Retimed.raiseFpuUnimplemented :
    Retimed more c.raiseFpuUnimplemented d.raiseFpuUnimplemented := by
  rw [N64.Cpu.raiseFpuUnimplemented, N64.Cpu.raiseFpuUnimplemented, same.fcr31]
  exact (same.setFcr31 _).raise _

theorem Retimed.finishFpuOperation {k : Cpu → Cpu} (flags : U32)
    (each : ∀ {e f}, Retimed more e f → Retimed more (k e) (k f)) :
    Retimed more (c.finishFpuOperation flags k) (d.finishFpuOperation flags k) := by
  simp only [N64.Cpu.finishFpuOperation, same.fcr31]
  split_ifs
  · exact (same.setFcr31 _).raise _
  · exact each ((same.setFcr31 _).setFcr31 _)

theorem Retimed.roundResult {w : ℕ} (F : FloatFormat w) (raw : BitVec w) (flags : U32) :
    roundResult F d raw flags = roundResult F c raw flags := by
  simp only [N64.Cpu.roundResult, same.roundingMode, same.fcr31]

theorem Retimed.handleSingleResult (fd : BitVec 5) (r : U32 × U32) :
    Retimed more (c.handleSingleResult fd r) (d.handleSingleResult fd r) := by
  unfold N64.Cpu.handleSingleResult
  rw [same.roundResult]
  split
  · exact same.raiseFpuUnimplemented
  · exact same.finishFpuOperation _ fun h => h.writeFprWord _ _

theorem Retimed.handleDoubleResult (fd : BitVec 5) (r : U64 × U32) :
    Retimed more (c.handleDoubleResult fd r) (d.handleDoubleResult fd r) := by
  unfold N64.Cpu.handleDoubleResult
  rw [same.roundResult, same.fpuFrMode]
  split
  · exact same.raiseFpuUnimplemented
  · split
    · exact same.raiseFpuUnimplemented
    · exact same.finishFpuOperation _ fun h => h.setFprDouble _ _

theorem Retimed.arithmeticSingle (fp : HostFpu) (function : ℕ) (fs ft fd : BitVec 5) :
    Retimed more (arithmeticSingle fp c function fs ft fd)
      (arithmeticSingle fp d function fs ft fd) := by
  simp only [N64.Cpu.arithmeticSingle, same.readFprWord, same.roundingMode]
  split
  · exact same.writeFprWord _ _
  · split
    · exact same.raiseFpuUnimplemented
    · exact same.handleSingleResult _ _
    · split_ifs
      · exact same.finishFpuOperation _ fun h => h.writeFprWord _ _
      · exact same.finishFpuOperation _ fun h => h.writeFprWord _ _
      · exact same.handleSingleResult _ _

theorem Retimed.storeFprDouble (i : BitVec 5) (v : U64) :
    Retimed more ((c.writeFprDouble i v).getD c.raiseFpuUnimplemented)
      ((d.writeFprDouble i v).getD d.raiseFpuUnimplemented) := by
  rcases same.writeFprDouble i v with ⟨left, right⟩ | ⟨c', d', left, right, wrote⟩
  · rw [left, right]
    exact same.raiseFpuUnimplemented
  · rw [left, right]
    exact wrote

theorem Retimed.arithmeticDouble (fp : HostFpu) (function : ℕ) (fs ft fd : BitVec 5) :
    Retimed more (arithmeticDouble fp c function fs ft fd)
      (arithmeticDouble fp d function fs ft fd) := by
  have operands : d.doubleOperands function fs ft = c.doubleOperands function fs ft := by
    simp only [doubleOperands, same.readFprDouble]
  unfold N64.Cpu.arithmeticDouble
  rw [operands]
  split
  · exact same.raiseFpuUnimplemented
  · split
    · exact same.storeFprDouble _ _
    · simp only [same.roundingMode]
      split
      · exact same.raiseFpuUnimplemented
      · exact same.handleDoubleResult _ _
      · split_ifs <;> exact same.handleDoubleResult _ _

theorem Retimed.setCondition (result : Bool) :
    Retimed more (c.setCondition result) (d.setCondition result) := by
  rw [N64.Cpu.setCondition, N64.Cpu.setCondition, same.fcr31]
  exact same.setFcr31 _

theorem Retimed.compareOperands {w : ℕ} (F : FloatFormat w) (conditionCode : ℕ)
    (fsRaw ftRaw : BitVec w) :
    Retimed more (compareOperands F c conditionCode fsRaw ftRaw)
      (compareOperands F d conditionCode fsRaw ftRaw) :=
  same.finishFpuOperation _ fun h => h.setCondition _

theorem Retimed.compareDouble (conditionCode : ℕ) (fs ft : BitVec 5) :
    Retimed more (c.compareDouble conditionCode fs ft) (d.compareDouble conditionCode fs ft) := by
  unfold N64.Cpu.compareDouble
  rw [same.readFprDouble, same.readFprDouble]
  split
  · exact same.compareOperands _ _ _ _
  · exact same.raiseFpuUnimplemented

theorem Retimed.convertInteger {w : ℕ} (F : FloatFormat w) (function : ℕ) (raw : BitVec w)
    (fd : BitVec 5) :
    Retimed more (convertInteger F c function raw fd) (convertInteger F d function raw fd) := by
  simp only [N64.Cpu.convertInteger, same.roundingMode]
  rw [same.fpuFrMode]
  split
  · exact same.raiseFpuUnimplemented
  · split
    · exact same.finishFpuOperation _ fun h => h.writeFprWord _ _
    · split
      · exact same.raiseFpuUnimplemented
      · exact same.finishFpuOperation _ fun h => h.setFprDouble _ _

theorem Retimed.integerConversion (format : Fmt) (function : ℕ) (fs fd : BitVec 5) :
    Retimed more (c.integerConversion format function fs fd)
      (d.integerConversion format function fs fd) := by
  simp only [N64.Cpu.integerConversion, same.readFprWord, same.readFprDouble]
  split
  · exact same.convertInteger _ _ _ _
  · split
    · exact same.raiseFpuUnimplemented
    · exact same.convertInteger _ _ _ _
  · exact same.raiseFpuUnimplemented
  · exact same.raiseFpuUnimplemented

theorem Retimed.convertSingle (fp : HostFpu) (format : Fmt) (fs fd : BitVec 5) :
    Retimed more (convertSingle fp c format fs fd) (convertSingle fp d format fs fd) := by
  simp only [N64.Cpu.convertSingle, same.readFprWord, same.readFprDouble, same.roundingMode]
  split
  · split
    · exact same.raiseFpuUnimplemented
    · split
      · exact same.raiseFpuUnimplemented
      · exact same.handleSingleResult _ _
      · exact same.handleSingleResult _ _
  · exact same.handleSingleResult _ _
  · split
    · exact same.raiseFpuUnimplemented
    · exact same.handleSingleResult _ _
  · exact same.raiseFpuUnimplemented

theorem Retimed.convertDouble (fp : HostFpu) (format : Fmt) (fs fd : BitVec 5) :
    Retimed more (convertDouble fp c format fs fd) (convertDouble fp d format fs fd) := by
  simp only [N64.Cpu.convertDouble, same.readFprWord, same.readFprDouble, same.roundingMode]
  rw [same.fpuFrMode]
  split
  · exact same.raiseFpuUnimplemented
  · split
    · split
      · exact same.raiseFpuUnimplemented
      · exact same.handleDoubleResult _ _
      · exact same.handleDoubleResult _ _
    · exact same.handleDoubleResult _ _
    · split
      · exact same.raiseFpuUnimplemented
      · exact same.handleDoubleResult _ _
    · exact same.raiseFpuUnimplemented

theorem Retimed.execCop1Format (fp : HostFpu) (format : Fmt) (insn : U32) :
    Retimed more (execCop1Format fp c format insn) (execCop1Format fp d format insn) := by
  simp only [N64.Cpu.execCop1Format, same.readFprWord]
  split_ifs
  · exact same.arithmeticSingle _ _ _ _ _
  · exact same.arithmeticDouble _ _ _ _ _
  · exact same.compareOperands _ _ _ _
  · exact same.compareDouble _ _ _
  · exact same.integerConversion _ _ _ _
  · exact same.convertSingle _ _ _ _
  · exact same.convertDouble _ _ _ _
  · exact same.raiseFpuUnimplemented

theorem Retimed.writeFcr31 (value : U32) :
    Retimed more (c.writeFcr31 value) (d.writeFcr31 value) := by
  simp only [N64.Cpu.writeFcr31]
  split
  · exact (same.setFcr31 _).raise _
  · exact same.setFcr31 _

theorem Retimed.branchCop1 (cop1Rt : ℕ) (insn : U32) :
    Retimed more (c.branchCop1 cop1Rt insn) (d.branchCop1 cop1Rt insn) := by
  simp only [N64.Cpu.branchCop1]
  rw [same.fcr31]
  split_ifs
  · exact same.raiseFpuUnimplemented
  · exact same.branchLikelyIf _ _
  · exact same.branchIf _ _

theorem Retimed.execCop1 (fp : HostFpu) (insn : U32) :
    Retimed more (execCop1 fp c insn) (execCop1 fp d insn) := by
  simp only [N64.Cpu.execCop1, same.readFprWord, same.readFprDouble, same.gpr, same.fcr31]
  rw [same.coprocessorUsable]
  split
  · exact same.raiseUnusable _
  · split
    · exact same.writeGpr _ _
    · split
      · exact same.raiseFpuUnimplemented
      · exact same.writeGpr _ _
    · exact same.writeGpr _ _
    · exact same.writeFprWord _ _
    · exact same.storeFprDouble _ _
    · split
      · exact same.writeFcr31 _
      · exact same
    · exact same.branchCop1 _ _
    · exact same.execCop1Format _ _ _
    · exact same.raiseFpuUnimplemented

end FloatingPoint

end N64.Cpu
