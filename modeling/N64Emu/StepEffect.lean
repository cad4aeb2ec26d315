import N64Emu.InsnEffect

/-!
# What a step can do

A step stops at an interrupt, at its fetch or at a fault of its instruction,
or the instruction completes and the program counters advance. The part after
the fetch is shared with the instructions of a cached block.
-/

set_option autoImplicit false

namespace N64.Cpu

open Words

/-- The CPU as `step` enters the fetch. -/
def markSlot (c : Cpu) : Cpu := { c with inDelaySlot := c.branchPending }

def Interrupted (c : Cpu) : Prop :=
  c.status &&& SR_IE ≠ 0 ∧ c.status &&& (SR_EXL ||| SR_ERL) = 0 ∧
    c.cop0 Cop0Reg.Cause &&& c.status &&& 0xFF00 ≠ 0

/-- From a fetched instruction to the end of the step. -/
inductive Finish (insn : U32) (s : Sys) : Sys → Prop
  | faulted (fcr31 : U32) (unknown : U64) (llBit : Bool) {code ce : U32} {bad : U64} {refill : Bool}
      (miss : Missed s.cpu.enterStep code bad refill) :
      Finish insn s (s.onCpu fun c =>
        { ((c.enterStep.atFault fcr31 unknown llBit).raiseException code bad ce refill).retire with
            branchPending := false })
  | completed {e : Sys} (effect : (s.onCpu enterStep).Effect insn e)
      (same : e.cpu.exceptionCount = s.cpu.exceptionCount) :
      Finish insn s (e.onCpu fun c => (c.advancePc s.cpu.pc s.cpu.branchPending).retire)

inductive StepEffect (fp : HostFpu) (s : Sys) : Sys → Prop
  | halted (stopped : s.cpu.halted = true) :
      StepEffect fp s (s.onCpu fun c => { c with cycles := c.cycles + 1 })
  | interrupt (running : s.cpu.halted = false) (settled : s.cpu.branchPending = false)
      (pending : s.cpu.Interrupted) :
      StepEffect fp s (s.onCpu fun c => (c.raise ExcCode.Int).retire)
  | fetchFault (running : s.cpu.halted = false) {code : U32} {refill : Bool}
      (miss : Missed s.cpu code s.cpu.pc refill) :
      StepEffect fp s (s.onCpu fun c => (c.markSlot.raiseException code c.pc 0 refill).retire)
  | executed (running : s.cpu.halted = false) {insn : U32} {p : PhysicalAddress} {u t : Sys}
      (aligned : s.cpu.pc &&& 3 = 0) (translated : s.cpu.translateAddress s.cpu.pc false = .ok p)
      (read : Bus.read32 (s.onCpu markSlot) p = (insn, u))
      (ran : t = finishStep fp u u.cpu.pc u.cpu.branchPending u.cpu.exceptionCount insn)
      (finish : Finish insn u t) : StepEffect fp s (t.emitAll [.load p 4])

section Counts

variable {c d : Cpu} {insn : U32}

@[simp]
theorem raiseException_exceptionCount (code ce : U32) (bad : U64) (refill : Bool) :
    (c.raiseException code bad ce refill).exceptionCount = c.exceptionCount + 1 := by
  simp only [raiseException, enterBadVaddr, enterCause]
  split_ifs <;> rfl

def Cop0Only (c d : Cpu) : Prop := d = { c with cop0 := d.cop0 }

theorem Cop0Only.exceptionCount (h : Cop0Only c d) : d.exceptionCount = c.exceptionCount := by
  rw [h]

theorem Cop0Only.branchPending (h : Cop0Only c d) : d.branchPending = c.branchPending := by
  rw [h]

theorem Cop0Only.pc (h : Cop0Only c d) : d.pc = c.pc := by
  rw [h]

theorem Cop0Only.nextPc (h : Cop0Only c d) : d.nextPc = c.nextPc := by
  rw [h]

theorem Cop0Only.llBit (h : Cop0Only c d) : d.llBit = c.llBit := by
  rw [h]

theorem Cop0Only.llAddr (h : Cop0Only c d) : d.llAddr = c.llAddr := by
  rw [h]

theorem cop0Only_of_offLine (h : d.offLine = c.offLine) : Cop0Only c d := by
  have same := congrArg (fun x : Cpu => { x with cop0 := d.cop0 }) h
  exact same

theorem cop0Only_setCop0Value (idx : BitVec 5) (v : U32) : Cop0Only c (c.setCop0Value idx v) := by
  simp only [Cop0Only, setCop0Value]
  split_ifs <;> rfl

theorem cop0Only_tlbProbe : Cop0Only c c.tlbProbe := by
  simp only [Cop0Only, tlbProbe]
  split <;> rfl

theorem setCop0_cpu (s : Sys) (idx : BitVec 5) (v : U32) :
    (setCop0 s idx v).cpu = s.cpu.setCop0Value idx v := by
  simp only [setCop0]
  split <;> rfl

end Counts

section Step

variable {insn : U32} {s t u e : Sys}

/-- The CPU of a store differs from the CPU before it by the interrupt line. -/
theorem stored_cpu {p : PhysicalAddress} {size : ℕ} (before : Sys.BeforeStore p size s u)
    (wrote : Sys.Wrote p (u.emit (.store p size)) size t) : t.cpu.offLine = s.cpu.offLine := by
  have after : t.cpu.offLine = u.cpu.offLine := wrote.frame.cpu
  cases before with
  | aligned => exact after
  | merge read => exact after.trans read.cpu

/-- An instruction raises once, before it has done anything else, or not at all. -/
theorem effect_cases (h : s.Effect insn e) : e.cpu.exceptionCount = s.cpu.exceptionCount ∨
    ∃ fcr31 unknown llBit code ce bad refill, Missed s.cpu code bad refill ∧
      e = s.onCpu fun c => (c.atFault fcr31 unknown llBit).raiseException code bad ce refill := by
  cases h with
  | cpu h =>
    cases h with
    | straight same => exact Or.inl same.exceptionCount
    | branch same => exact Or.inl same.exceptionCount
    | raised fcr31 unknown llBit miss =>
      exact Or.inr ⟨fcr31, unknown, llBit, _, _, _, _, miss, rfl⟩
  | load _ _ same => exact Or.inl same.exceptionCount
  | linked _ _ _ same => exact Or.inl same.exceptionCount
  | store _ before wrote =>
    exact Or.inl (cop0Only_of_offLine (stored_cpu before wrote)).exceptionCount
  | conditional _ _ _ _ wrote =>
    have kept := (cop0Only_of_offLine wrote.frame.cpu).exceptionCount
    exact Or.inl ((straight_writeGpr _ _).exceptionCount.trans kept)
  | refused _ same => exact Or.inl same.exceptionCount
  | setCop0 _ _ v =>
    rw [setCop0_cpu]
    exact Or.inl (cop0Only_setCop0Value _ v).exceptionCount
  | tlbRead => exact Or.inl rfl
  | tlbWrite => exact Or.inl rfl
  | tlbProbe => exact Or.inl cop0Only_tlbProbe.exceptionCount
  | eret => exact Or.inl rfl

@[simp]
theorem enterStep_exceptionCount (c : Cpu) : c.enterStep.exceptionCount = c.exceptionCount := by
  unfold enterStep
  split <;> rfl

theorem finishStep_cases (fp : HostFpu) (s : Sys) (insn : U32) :
    Finish insn s (finishStep fp s s.cpu.pc s.cpu.branchPending s.cpu.exceptionCount insn) := by
  have effect : (s.onCpu enterStep).Effect insn (execute fp (s.onCpu enterStep) insn) :=
    effect_execute fp
  have entered : (s.onCpu enterStep).cpu.exceptionCount = s.cpu.exceptionCount :=
    enterStep_exceptionCount s.cpu
  simp only [finishStep]
  rcases effect_cases effect with same |
    ⟨fcr31, unknown, llBit, code, ce, bad, refill, miss, raised⟩
  · rw [if_neg (by rw [same, entered]; simp)]
    exact .completed effect (same.trans entered)
  · have counted : (execute fp (s.onCpu enterStep) insn).cpu.exceptionCount ≠
        s.cpu.exceptionCount := by
      rw [raised]
      simp [Sys.onCpu, atFault]
    rw [if_pos counted, raised]
    exact .faulted fcr31 unknown llBit miss

theorem fetch_cases (s : Sys) (vaddr : U64) :
    (∃ code refill, Missed s.cpu code vaddr refill ∧
      fetch s vaddr = (0, s.onCpu (·.raiseException code vaddr 0 refill))) ∨
    ∃ p, vaddr &&& 3 = 0 ∧ s.cpu.translateAddress vaddr false = .ok p ∧
      fetch s vaddr = Bus.read32 s p := by
  unfold fetch
  split
  case isTrue =>
    exact Or.inl ⟨_, false, missed_other (by decide), rfl⟩
  case isFalse aligned =>
    cases h : s.cpu.translateOrRaise vaddr vaddr false with
    | error d =>
      obtain ⟨code, refill, miss, rfl⟩ := translateOrRaise_error (fun _ => Iff.rfl) h
      exact Or.inl ⟨code, refill, miss, rfl⟩
    | ok p => exact Or.inr ⟨p, not_not.mp aligned, translateOrRaise_ok h, rfl⟩

theorem fetched_cpu {p : PhysicalAddress} (read : Bus.read32 (s.onCpu markSlot) p = (insn, u)) :
    u.cpu = s.cpu.markSlot := by
  have frame : Frame [] (s.onCpu markSlot) (Bus.read32 (s.onCpu markSlot) p).2 := frame_read32 _ p
  rw [read] at frame
  exact frame_cpu frame

theorem stepInsn_fetched (fp : HostFpu) {p : PhysicalAddress} (aligned : s.cpu.pc &&& 3 = 0)
    (translated : s.cpu.translateAddress s.cpu.pc false = .ok p)
    (read : Bus.read32 (s.onCpu markSlot) p = (insn, u)) :
    stepInsn fp s = (finishStep fp u s.cpu.pc s.cpu.branchPending s.cpu.exceptionCount insn).emitAll
      [.load p 4] := by
  have kept : (s.onCpu markSlot).cpu.translateAddress s.cpu.pc false = .ok p := translated
  have fetched : fetch (s.onCpu markSlot) s.cpu.pc = (insn, u) := by
    rw [fetch, if_neg (by rw [aligned]; simp), translateOrRaise, kept]
    exact read
  simp only [stepInsn]
  rw [show (s.onCpu fun c => { c with inDelaySlot := s.cpu.branchPending }) =
    s.onCpu markSlot from rfl,
    fetched, fetchEvents, kept]
  rw [if_neg (by rw [fetched_cpu read]; simp [Sys.onCpu, markSlot])]
  rfl

theorem stepInsn_cases (fp : HostFpu) (s : Sys) (running : s.cpu.halted = false) :
    StepEffect fp s (stepInsn fp s) := by
  rcases fetch_cases (s.onCpu markSlot) s.cpu.pc with ⟨code, refill, miss, faulted⟩ |
    ⟨p, aligned, translated, fetched⟩
  · have raised : stepInsn fp s =
        s.onCpu fun c => (c.markSlot.raiseException code c.pc 0 refill).retire := by
      simp only [stepInsn]
      rw [show (s.onCpu fun c => { c with inDelaySlot := s.cpu.branchPending }) =
        s.onCpu markSlot from rfl, faulted]
      rw [if_pos (by simp [Sys.onCpu])]
      rfl
    rw [raised]
    exact .fetchFault running ⟨miss.field, miss.refill_iff⟩
  · cases read : Bus.read32 (s.onCpu markSlot) p with
    | mk insn u =>
      have cpu := fetched_cpu read
      have finish := finishStep_cases fp u insn
      rw [cpu] at finish
      rw [stepInsn_fetched fp aligned translated read]
      exact .executed running aligned translated read (by rw [cpu]; rfl) finish

theorem checkInterrupts_cases (c : Cpu) :
    c.checkInterrupts = c ∧ ¬ c.Interrupted ∨
      c.checkInterrupts = c.raise ExcCode.Int ∧ c.Interrupted := by
  unfold checkInterrupts Interrupted
  split_ifs <;> simp_all

theorem step_cases (fp : HostFpu) (s : Sys) : StepEffect fp s (step fp s) := by
  unfold step
  split
  case isTrue stopped => exact .halted stopped
  case isFalse going =>
    have running : s.cpu.halted = false := by simpa using going
    split
    case isTrue => exact stepInsn_cases fp s running
    case isFalse settled =>
      rcases checkInterrupts_cases s.cpu with ⟨nothing, _⟩ | ⟨raised, pending⟩
      · have same : s.onCpu checkInterrupts = s := by simp only [Sys.onCpu, nothing]
        simp only [same]
        rw [if_neg (by simp)]
        exact stepInsn_cases fp s running
      · have entered : s.onCpu checkInterrupts = s.onCpu (·.raise ExcCode.Int) := by
          simp only [Sys.onCpu, raised]
        simp only [entered]
        rw [if_pos (by simp [Sys.onCpu, raise])]
        exact .interrupt running (by simpa using settled) pending

theorem step_interrupted (fp : HostFpu) (running : s.cpu.halted = false)
    (settled : s.cpu.branchPending = false) (pending : s.cpu.Interrupted) :
    step fp s = s.onCpu fun c => (c.raise ExcCode.Int).retire := by
  have raised : s.onCpu checkInterrupts = s.onCpu (·.raise ExcCode.Int) := by
    rcases checkInterrupts_cases s.cpu with ⟨_, nothing⟩ | ⟨raised, _⟩
    · exact absurd pending nothing
    · simp only [Sys.onCpu, raised]
  unfold step
  rw [if_neg (by simp [running]), if_neg (by simp [settled])]
  simp only [raised]
  rw [if_pos (by simp [raise])]
  rfl

theorem step_uninterrupted (fp : HostFpu) (running : s.cpu.halted = false)
    (quiet : ¬ s.cpu.Interrupted) : step fp s = stepInsn fp s := by
  have same : s.onCpu checkInterrupts = s := by
    rcases checkInterrupts_cases s.cpu with ⟨nothing, _⟩ | ⟨_, pending⟩
    · simp only [Sys.onCpu, nothing]
    · exact absurd pending quiet
  unfold step
  rw [if_neg (by simp [running])]
  simp only [same, ne_eq, not_true_eq_false, if_false, ite_self]

end Step

end N64.Cpu
