import N64Emu.RunActs
import N64Emu.Exceptions
import N64Emu.DelaySlot

/-!
# The clocks of the CPU

The cycle counter, Count, Compare, Random, Wired and the timer's interrupt bit
move at the end of a step and by MTC0 alone.
-/

set_option autoImplicit false

namespace N64

open Words

/-- A bus access, a register block or a level of the interrupt line. -/
def CpuAct.OnDevice : CpuAct → Prop
  | .device _ => True
  | .rcpInterrupt _ => True
  | _ => False

namespace Cpu

def ip7 (c : Cpu) : Bool := c.cop0 Cop0Reg.Cause &&& CAUSE_IP7 != 0

def clockRegs : List (BitVec 5) :=
  [Cop0Reg.Count, Cop0Reg.Compare, Cop0Reg.Random, Cop0Reg.Wired]

structure KeepsClocks (c d : Cpu) : Prop where
  cycles : d.cycles = c.cycles
  halted : d.halted = c.halted
  regs : ∀ i ∈ clockRegs, d.cop0 i = c.cop0 i
  ip7 : d.ip7 = c.ip7

/-- What the instruction of a step did to the clocks: nothing, or one MTC0. -/
def Moved (executes : U32 → Prop) (c d : Cpu) : Prop :=
  KeepsClocks c d ∨ ∃ insn v b, executes insn ∧ isMoveToCop0 insn ∧ KeepsClocks c b ∧
    KeepsClocks (b.setCop0Value (Insn.rd insn) v) d

section Keeps

variable {c d e : Cpu}

theorem KeepsClocks.refl : KeepsClocks c c := ⟨rfl, rfl, fun _ _ => rfl, rfl⟩

theorem KeepsClocks.trans (h : KeepsClocks c d) (k : KeepsClocks d e) : KeepsClocks c e :=
  ⟨k.cycles.trans h.cycles, k.halted.trans h.halted,
    fun i clock => (k.regs i clock).trans (h.regs i clock), k.ip7.trans h.ip7⟩

theorem keepsClocks_same (cop0 : d.cop0 = c.cop0) (cycles : d.cycles = c.cycles)
    (halted : d.halted = c.halted) : KeepsClocks c d := by
  refine ⟨cycles, halted, fun i _ => by rw [cop0], ?_⟩
  rw [Cpu.ip7, Cpu.ip7, cop0]

theorem Quiet.clocks (h : Quiet c d) : KeepsClocks c d :=
  keepsClocks_same h.cop0 h.cycles h.halted

theorem ip7_of_and (h : d.cop0 Cop0Reg.Cause &&& CAUSE_IP7 = c.cop0 Cop0Reg.Cause &&& CAUSE_IP7) :
    d.ip7 = c.ip7 := by
  rw [Cpu.ip7, Cpu.ip7, h]

theorem keepsClocks_setCop0Reg {i : BitVec 5} (v : U32) (other : i ∉ clockRegs)
    (cause : i ≠ Cop0Reg.Cause) : KeepsClocks c (c.setCop0Reg i v) := by
  refine ⟨rfl, rfl, fun j clock => ?_, ?_⟩
  · have apart : j ≠ i := fun same => other (by rw [← same]; exact clock)
    rw [cop0_setCop0Reg, if_neg apart]
  · apply ip7_of_and
    rw [cop0_setCop0Reg, if_neg cause.symm]

theorem keepsClocks_setCause {v : U32}
    (h : v &&& CAUSE_IP7 = c.cop0 Cop0Reg.Cause &&& CAUSE_IP7) :
    KeepsClocks c (c.setCop0Reg Cop0Reg.Cause v) := by
  refine ⟨rfl, rfl, fun j clock => ?_, ?_⟩
  · have apart : ∀ j ∈ clockRegs, j ≠ Cop0Reg.Cause := by decide
    rw [cop0_setCop0Reg, if_neg (apart j clock)]
  · apply ip7_of_and
    rw [cop0_setCop0Reg, if_pos rfl, h]

theorem keepsClocks_setRcpInterrupt (level : Bool) : KeepsClocks c (c.setRcpInterrupt level) := by
  cases level with
  | true => exact keepsClocks_setCause (or_and_of_disjoint _ rfl)
  | false => exact keepsClocks_setCause (andNot_and_of_disjoint _ rfl)

theorem keepsClocks_offLine (h : d.offLine = c.offLine) : KeepsClocks c d := by
  have down : KeepsClocks c c.offLine := keepsClocks_setRcpInterrupt false
  have up : KeepsClocks d d.offLine := keepsClocks_setRcpInterrupt false
  rw [h] at up
  exact ⟨up.cycles.symm.trans down.cycles, up.halted.symm.trans down.halted,
    fun i clock => (up.regs i clock).symm.trans (down.regs i clock), up.ip7.symm.trans down.ip7⟩

theorem raised_clock {i : BitVec 5} (code ce : U32) (bad : U64) (refill : Bool)
    (clock : i ∈ clockRegs) : (c.raiseException code bad ce refill).cop0 i = c.cop0 i := by
  have apart : ∀ j ∈ clockRegs, j ≠ Cop0Reg.Status ∧ (j ≠ Cop0Reg.BadVAddr ∧ j ≠ Cop0Reg.Context ∧
    j ≠ Cop0Reg.EntryHi) ∧ j ≠ Cop0Reg.Cause ∧ j ≠ Cop0Reg.EPC := by decide
  obtain ⟨status, fault, cause, epc⟩ := apart i clock
  rw [raiseException_eq]
  show (c.entered code ce bad).cop0 i = _
  rw [entered, cop0_setCop0Reg, if_neg status, enterBadVaddr_cop0 _ _ _ fault]
  simp only [enterCause]
  split_ifs <;> simp [cop0_setCop0Reg, cause, epc]

theorem keepsClocks_raiseException (code ce : U32) (bad : U64) (refill : Bool) :
    KeepsClocks c (c.raiseException code bad ce refill) := by
  refine ⟨?_, ?_, fun i clock => raised_clock code ce bad refill clock, ?_⟩
  · rw [raiseException_with]
  · rw [raiseException_with]
  · exact ip7_of_and (raiseException_cause_and c code ce bad refill rfl)

theorem keepsClocks_tlbReadIndexed : KeepsClocks c c.tlbReadIndexed := by
  have page (d : Cpu) (v : U32) : KeepsClocks d (d.setCop0Reg Cop0Reg.PageMask v) :=
    keepsClocks_setCop0Reg v (by decide) (by decide)
  have hi (d : Cpu) (v : U32) : KeepsClocks d (d.setCop0Reg Cop0Reg.EntryHi v) :=
    keepsClocks_setCop0Reg v (by decide) (by decide)
  have even (d : Cpu) (v : U32) : KeepsClocks d (d.setCop0Reg Cop0Reg.EntryLo0 v) :=
    keepsClocks_setCop0Reg v (by decide) (by decide)
  have odd (d : Cpu) (v : U32) : KeepsClocks d (d.setCop0Reg Cop0Reg.EntryLo1 v) :=
    keepsClocks_setCop0Reg v (by decide) (by decide)
  exact (((page c _).trans (hi _ _)).trans (even _ _)).trans (odd _ _)

theorem keepsClocks_tlbProbe : KeepsClocks c c.tlbProbe := by
  simp only [tlbProbe]
  split
  · exact keepsClocks_setCop0Reg _ (by decide) (by decide)
  · exact keepsClocks_setCop0Reg _ (by decide) (by decide)

theorem keepsClocks_doEret : KeepsClocks c c.doEret := by
  have status (d : Cpu) (v : U32) : KeepsClocks d (d.setCop0Reg Cop0Reg.Status v) :=
    keepsClocks_setCop0Reg v (by decide) (by decide)
  exact (status c _).trans (keepsClocks_same rfl rfl rfl)

theorem keepsClocks_enterStep : KeepsClocks c c.enterStep := by
  unfold enterStep
  split
  · exact KeepsClocks.refl
  · exact keepsClocks_same rfl rfl rfl

theorem keepsClocks_advancePc (pc : U64) (slot : Bool) : KeepsClocks c (c.advancePc pc slot) := by
  unfold advancePc
  split_ifs <;> exact keepsClocks_same rfl rfl rfl

end Keeps

/-- The end of a step, after an instruction that left `e`. -/
structure Retired (e d : Cpu) : Prop where
  cycles : d.cycles = e.cycles + 1
  halted : d.halted = e.halted
  cop0 : d.cop0 = e.retire.cop0

def Clocked (executes : U32 → Prop) (c d : Cpu) : Prop :=
  ∃ e, Moved executes c e ∧ Retired e d

section Effects

variable {fp : HostFpu} {insn : U32} {s t u : Sys} {c d e : Cpu} {executes : U32 → Prop}

theorem KeepsClocks.moved (h : KeepsClocks c d) : Moved executes c d := Or.inl h

theorem KeepsClocks.then (h : KeepsClocks c d) (k : Moved executes d e) : Moved executes c e := by
  rcases k with same | ⟨insn, v, b, word, code, before, set⟩
  · exact Or.inl (h.trans same)
  · exact Or.inr ⟨insn, v, b, word, code, h.trans before, set⟩

theorem Moved.kept (h : Moved executes c d) (k : KeepsClocks d e) : Moved executes c e := by
  rcases h with same | ⟨insn, v, b, word, code, before, set⟩
  · exact Or.inl (same.trans k)
  · exact Or.inr ⟨insn, v, b, word, code, before, set.trans k⟩

theorem Moved.cycles (h : Moved executes c d) : d.cycles = c.cycles := by
  rcases h with same | ⟨insn, v, b, _, _, before, set⟩
  · exact same.cycles
  · have only : Cop0Only b (b.setCop0Value (Insn.rd insn) v) := cop0Only_setCop0Value _ v
    have moved : (b.setCop0Value (Insn.rd insn) v).cycles = b.cycles := by rw [only]
    exact set.cycles.trans (moved.trans before.cycles)

theorem Moved.halted (h : Moved executes c d) : d.halted = c.halted := by
  rcases h with same | ⟨insn, v, b, _, _, before, set⟩
  · exact same.halted
  · have only : Cop0Only b (b.setCop0Value (Insn.rd insn) v) := cop0Only_setCop0Value _ v
    have moved : (b.setCop0Value (Insn.rd insn) v).halted = b.halted := by rw [only]
    exact set.halted.trans (moved.trans before.halted)

theorem Moved.imp {executes' : U32 → Prop} (h : Moved executes c d)
    (weaker : ∀ insn, executes insn → executes' insn) : Moved executes' c d := by
  rcases h with same | ⟨insn, v, b, word, code, before, set⟩
  · exact Or.inl same
  · exact Or.inr ⟨insn, v, b, weaker insn word, code, before, set⟩

theorem retired_retire (e : Cpu) : Retired e e.retire := by
  refine ⟨?_, ?_, rfl⟩
  · rw [retire_with]
  · rw [retire_with]

theorem Retired.same (h : Retired e d) {f : Cpu} (cycles : f.cycles = d.cycles)
    (halted : f.halted = d.halted) (cop0 : f.cop0 = d.cop0) : Retired e f :=
  ⟨cycles.trans h.cycles, halted.trans h.halted, cop0.trans h.cop0⟩

theorem KeepsClocks.clocked (h : KeepsClocks c e) (k : Retired e d) : Clocked executes c d :=
  ⟨e, h.moved, k⟩

theorem keepsClocks_stored {p : PhysicalAddress} {size : ℕ} (before : Sys.BeforeStore p size s u)
    (wrote : Sys.Wrote p (u.emit (.store p size)) size t) : KeepsClocks s.cpu t.cpu :=
  keepsClocks_offLine (stored_cpu before wrote)

theorem effect_moved (h : s.Effect insn t) : Moved (· = insn) s.cpu t.cpu := by
  have written (v : U32) (code : isMoveToCop0 insn) :
      Moved (· = insn) s.cpu (s.cpu.setCop0Value (Insn.rd insn) v) :=
    Or.inr ⟨insn, v, s.cpu, rfl, code, KeepsClocks.refl, KeepsClocks.refl⟩
  cases h with
  | cpu h =>
    cases h with
    | straight same => exact same.clocks.moved
    | branch same => exact same.clocks.moved
    | raised fcr31 unknown llBit miss =>
      have fault : KeepsClocks s.cpu (s.cpu.atFault fcr31 unknown llBit) :=
        keepsClocks_same rfl rfl rfl
      exact (fault.trans (keepsClocks_raiseException _ _ _ _)).moved
  | load _ _ same => exact same.clocks.moved
  | @linked _ _ _ _ c _ _ _ same =>
    have linked (a : U64) : KeepsClocks c { c with llBit := true, llAddr := a } :=
      keepsClocks_same rfl rfl rfl
    exact (same.clocks.trans (linked _)).moved
  | @store _ _ _ _ t _ before wrote =>
    have cleared : KeepsClocks t.cpu t.cpu.clearLlBit := keepsClocks_same rfl rfl rfl
    exact ((keepsClocks_stored before wrote).trans cleared).moved
  | conditional _ _ _ _ wrote =>
    have cleared : KeepsClocks s.cpu s.cpu.clearLlBit := keepsClocks_same rfl rfl rfl
    have stored := cleared.trans (keepsClocks_offLine wrote.frame.cpu)
    exact (stored.trans (straight_writeGpr _ _).clocks).moved
  | refused _ same =>
    have cleared : KeepsClocks s.cpu s.cpu.clearLlBit := keepsClocks_same rfl rfl rfl
    exact (cleared.trans same.clocks).moved
  | setCop0 _ code v =>
    rw [setCop0_cpu]
    exact written v code
  | tlbRead => exact keepsClocks_tlbReadIndexed.moved
  | tlbWrite _ index =>
    have entry : KeepsClocks s.cpu (s.cpu.tlbWriteIndexed index) := keepsClocks_same rfl rfl rfl
    exact entry.moved
  | tlbProbe => exact keepsClocks_tlbProbe.moved
  | eret => exact keepsClocks_doEret.moved

theorem finish_clocked (h : Finish insn s t) : Clocked (· = insn) s.cpu t.cpu := by
  cases h with
  | @faulted fcr31 unknown llBit code ce bad refill =>
    have fault : KeepsClocks s.cpu.enterStep (s.cpu.enterStep.atFault fcr31 unknown llBit) :=
      keepsClocks_same rfl rfl rfl
    have raised := fault.trans (keepsClocks_raiseException code ce bad refill)
    exact (keepsClocks_enterStep.trans raised).clocked ((retired_retire _).same rfl rfl rfl)
  | @completed e effect =>
    have moved := keepsClocks_enterStep.then (effect_moved effect)
    exact ⟨e.cpu.advancePc s.cpu.pc s.cpu.branchPending, moved.kept (keepsClocks_advancePc _ _),
      retired_retire _⟩

theorem Clocked.imp {executes' : U32 → Prop} (h : Clocked executes c d)
    (weaker : ∀ insn, executes insn → executes' insn) : Clocked executes' c d := by
  obtain ⟨e, moved, retired⟩ := h
  exact ⟨e, moved.imp weaker, retired⟩

theorem KeepsClocks.clockedBy (h : KeepsClocks c d) (k : Clocked executes d e) :
    Clocked executes c e := by
  obtain ⟨f, moved, retired⟩ := k
  exact ⟨f, h.then moved, retired⟩

theorem keepsClocks_markSlot : KeepsClocks c c.markSlot := keepsClocks_same rfl rfl rfl

theorem interrupt_clocked : Clocked executes c (c.raise ExcCode.Int).retire :=
  (keepsClocks_raiseException _ _ _ _).clocked (retired_retire _)

theorem step_clocked (fp : HostFpu) (running : s.cpu.halted = false) :
    Clocked (fun insn => CpuAct.step.Executes s insn) s.cpu (step fp s).cpu := by
  have effect := step_cases fp s
  generalize step fp s = t at effect ⊢
  cases effect with
  | halted stopped => simp [running] at stopped
  | interrupt => exact interrupt_clocked
  | @fetchFault _ code refill =>
    have marked : KeepsClocks s.cpu s.cpu.markSlot := keepsClocks_markSlot
    have raised := marked.trans (keepsClocks_raiseException code 0 s.cpu.pc refill)
    exact raised.clocked (retired_retire _)
  | @executed _ insn p u t aligned translated read _ finish =>
    have marked : KeepsClocks s.cpu u.cpu := by
      rw [fetched_cpu read]
      exact keepsClocks_markSlot
    have value : (Bus.read32 s p).1 = insn :=
      (congrArg Prod.fst (read32_onCpu s p markSlot)).symm.trans (congrArg Prod.fst read)
    have executes : CpuAct.step.Executes s insn := ⟨running, p, aligned, translated, value⟩
    apply (marked.clockedBy (finish_clocked finish)).imp
    intro word same
    rw [same]
    exact executes

theorem blockInsn_clocked (fp : HostFpu) (s : Sys) (insn : U32) :
    Clocked (· = insn) s.cpu (blockInsn fp s insn).2.cpu := by
  have effect := blockInsn_cases fp s insn
  generalize (blockInsn fp s insn).2 = t at effect ⊢
  cases effect with
  | interrupt => exact interrupt_clocked
  | executed _ finish => exact keepsClocks_markSlot.clockedBy (finish_clocked finish)

theorem word_clocked (fp : HostFpu) {a : CpuAct} (word : a.isWord = true)
    (running : s.cpu.halted = false) : Clocked (a.Executes s) s.cpu (a.perform fp s).cpu := by
  cases a with
  | step => exact step_clocked fp running
  | cached insn => exact (blockInsn_clocked fp s insn).imp fun _ same => same.symm
  | _ => cases word

theorem device_keepsClocks (fp : HostFpu) {a : CpuAct} (device : a.OnDevice) :
    KeepsClocks s.cpu (a.perform fp s).cpu := by
  cases a with
  | device a => exact keepsClocks_offLine (frame_perform a s).cpu
  | rcpInterrupt level => exact keepsClocks_setRcpInterrupt level
  | _ => cases device

end Effects

end Cpu

end N64
