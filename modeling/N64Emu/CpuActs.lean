import N64Emu.Branches
import N64Emu.CpuRun
import N64Emu.Boot
import N64Emu.Runs

/-!
# Runs of the CPU

What happens to the CPU between its reset and a state: steps, words executed
from a cached block, device accesses, and the setters a boot or a host calls.
-/

set_option autoImplicit false

namespace N64

open Words

inductive CpuAct where
  | step
  | cached (insn : U32)
  | device (a : DeviceAct)
  | rcpInterrupt (level : Bool)
  | setPc (pc : U64)
  | setGpr (i : BitVec 5) (value : U64)
  | setHiLo (hi lo : U64)
  | setFpr (i : BitVec 5) (value : U64)
  | setCop0 (i : BitVec 5) (value : U32)
  | setHalted (halted : Bool)

def CpuAct.perform (fp : HostFpu) : CpuAct → Sys → Sys
  | .step, s => Cpu.step fp s
  | .cached insn, s => (Cpu.blockInsn fp s insn).2
  | .device a, s => a.perform s
  | .rcpInterrupt level, s => s.onCpu (·.setRcpInterrupt level)
  | .setPc pc, s => s.onCpu (·.setPc pc)
  | .setGpr i value, s => s.onCpu (·.writeGpr i value)
  | .setHiLo hi lo, s => s.onCpu (·.setHiLo hi lo)
  | .setFpr i value, s => s.onCpu fun c => { c with fpr := Function.update c.fpr i value }
  | .setCop0 i value, s => Cpu.setCop0 s i value
  | .setHalted halted, s => s.onCpu fun c => { c with halted := halted }

namespace Cpu

/-- The word `step` fetches at the program counter. -/
def Fetches (s : Sys) (insn : U32) : Prop :=
  ∃ p, s.cpu.pc &&& 3 = 0 ∧ s.cpu.translateAddress s.cpu.pc false = .ok p ∧
    (Bus.read32 s p).1 = insn

end Cpu

/-- The act gets to executing the word `insn`. -/
def CpuAct.Executes (s : Sys) (insn : U32) : CpuAct → Prop
  | .step => s.cpu.halted = false ∧ Cpu.Fetches s insn
  | .cached word => word = insn
  | _ => False

def CpuAct.Idle (a : CpuAct) (s : Sys) : Prop :=
  match a with
  | .step => s.cpu.halted = true
  | .cached _ => False
  | .setPc _ => False
  | _ => True

section Devices

theorem frame_perform (a : DeviceAct) (s : Sys) : Frame Part.all s (a.perform s) := by
  cases a with
  | read8 addr => exact frame_read8 s addr
  | read16 addr => exact frame_read16 s addr
  | read32 addr => exact frame_read32 s addr
  | read64 addr => exact frame_read64 s addr
  | write8 addr value => exact frame_write8 s addr value
  | write16 addr value => exact frame_write16 s addr value
  | write32 addr value => exact frame_write32 s addr value
  | write64 addr value => exact frame_write64 s addr value
  | spWrite offset value => exact (frame_spWrite s offset value).mono (by decide)
  | spWritePc offset value => exact frame_spWritePc s offset value
  | dpWrite offset value => exact (frame_dpWrite s offset value).mono (by decide)
  | piWrite offset value => exact (frame_piWrite s offset value).mono (by decide)
  | siWrite offset value => exact (frame_siWrite s offset value).mono (by decide)
  | rspStep => exact Rsp.frame_step s

end Devices

namespace Cpu

/-- What a word of a cached block can do: the step without its fetch. -/
inductive CachedEffect (fp : HostFpu) (s : Sys) (insn : U32) : Sys → Prop
  | interrupt (settled : s.cpu.branchPending = false) (pending : s.cpu.Interrupted) :
      CachedEffect fp s insn (s.onCpu fun c => (c.raise ExcCode.Int).retire)
  | executed {t : Sys}
      (ran : t = finishStep fp (s.onCpu markSlot) s.cpu.pc s.cpu.branchPending
        s.cpu.exceptionCount insn)
      (finish : Finish insn (s.onCpu markSlot) t) : CachedEffect fp s insn t

def TakesInterrupt (c : Cpu) : Prop := c.branchPending = false ∧ c.Interrupted

theorem step_executes {fp : HostFpu} {s : Sys} (running : s.cpu.halted = false)
    (untaken : ¬ s.cpu.TakesInterrupt) : step fp s = stepInsn fp s := by
  by_cases settled : s.cpu.branchPending = false
  · exact step_uninterrupted fp running fun pending => untaken ⟨settled, pending⟩
  · have slot : s.cpu.branchPending = true := by simpa using settled
    rw [step, if_neg (by simp [running]), if_pos slot]

theorem blockInsn_taken (fp : HostFpu) {s : Sys} (insn : U32) (taken : s.cpu.TakesInterrupt) :
    blockInsn fp s insn = (false, s.onCpu fun c => (c.raise ExcCode.Int).retire) := by
  obtain ⟨settled, enabled, clear, masked⟩ := taken
  have entered : s.onCpu checkInterrupts = s.onCpu (·.raise ExcCode.Int) := by
    rcases checkInterrupts_cases s.cpu with ⟨_, untaken⟩ | ⟨raised, _⟩
    · exact absurd ⟨enabled, clear, masked⟩ untaken
    · simp only [Sys.onCpu, raised]
  simp only [blockInsn, settled, entered, enabled, clear, masked, Bool.not_false, decide_true,
    ne_eq, not_false_eq_true, Bool.and_self, if_true]
  rw [if_pos (by simp [Sys.onCpu, raise])]
  rfl

theorem blockInsn_executes (fp : HostFpu) {s : Sys} (insn : U32)
    (untaken : ¬ s.cpu.TakesInterrupt) : blockInsn fp s insn = executeWord fp s insn := by
  cases pendingSlot : s.cpu.branchPending with
  | true =>
    simp only [blockInsn, pendingSlot, Bool.not_true, Bool.false_and, Bool.false_eq_true, if_false]
    rw [if_neg (by simp)]
  | false =>
    have same : s.onCpu checkInterrupts = s := by
      rcases checkInterrupts_cases s.cpu with ⟨kept, _⟩ | ⟨_, pending⟩
      · simp only [Sys.onCpu, kept]
      · exact absurd ⟨pendingSlot, pending⟩ untaken
    simp only [blockInsn, same, ite_self]
    rw [if_neg (by simp)]

theorem blockInsn_cases (fp : HostFpu) (s : Sys) (insn : U32) :
    CachedEffect fp s insn (blockInsn fp s insn).2 := by
  by_cases taken : s.cpu.TakesInterrupt
  · rw [blockInsn_taken fp insn taken]
    exact .interrupt taken.1 taken.2
  · rw [blockInsn_executes fp insn taken]
    exact .executed rfl (finishStep_cases fp (s.onCpu markSlot) insn)

end Cpu

end N64
