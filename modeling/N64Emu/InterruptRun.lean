import N64Emu.InterruptLines
import N64Emu.RunInvariant
import N64Emu.BootInvariant
import N64Emu.CpuActs
import N64Emu.Exceptions

/-!
# The interrupt lines over runs

No instruction, exception or boot moves Cause.IP2: the CPU writes the two
software bits, the timer bit and the fields of an exception entry only.
-/

set_option autoImplicit false

namespace N64

open Words

def Cpu.KeepsLine (c d : Cpu) : Prop :=
  d.cop0 Cop0Reg.Cause &&& CAUSE_IP2 = c.cop0 Cop0Reg.Cause &&& CAUSE_IP2

namespace Cpu

section Registers

variable {c d e : Cpu}

theorem KeepsLine.refl : KeepsLine c c := rfl

theorem KeepsLine.trans (h : KeepsLine c d) (k : KeepsLine d e) : KeepsLine c e := Eq.trans k h

theorem keepsLine_same (h : d.cop0 = c.cop0) : KeepsLine c d := by
  rw [KeepsLine, h]

theorem keepsLine_setOther {i : BitVec 5} (v : U32) (other : i ≠ Cop0Reg.Cause) :
    KeepsLine c (c.setCop0Reg i v) := by
  rw [KeepsLine, cop0_setCop0Reg, if_neg other.symm]

theorem keepsLine_setCause {v : U32} (h : v &&& CAUSE_IP2 = c.cop0 Cop0Reg.Cause &&& CAUSE_IP2) :
    KeepsLine c (c.setCop0Reg Cop0Reg.Cause v) := by
  rw [KeepsLine, cop0_setCop0Reg, if_pos rfl, h]

theorem keepsLine_raiseException (code ce : U32) (bad : U64) (refill : Bool) :
    KeepsLine c (c.raiseException code bad ce refill) :=
  raiseException_cause_and c code ce bad refill rfl

theorem keepsLine_retire : KeepsLine c c.retire := retire_cause_and c rfl

theorem keepsLine_setCop0Value (i : BitVec 5) (v : U32) : KeepsLine c (c.setCop0Value i v) := by
  have acknowledged (d : Cpu) : KeepsLine d (d.setCop0Reg Cop0Reg.Cause
      (d.cop0 Cop0Reg.Cause &&& ~~~(1#32 <<< 15))) :=
    keepsLine_setCause (andNot_and_of_disjoint _ rfl)
  have software : v &&& 0x300#32 &&& CAUSE_IP2 = 0 := by
    rw [BitVec.and_assoc]
    exact BitVec.and_zero
  by_cases cause : i = Cop0Reg.Cause
  · subst cause
    exact keepsLine_setCause
      ((or_and_of_disjoint _ software).trans (andNot_and_of_disjoint _ rfl))
  · have one (w : U32) : KeepsLine c (c.setCop0Reg i w) := keepsLine_setOther w cause
    simp only [setCop0Value]
    split_ifs
    · exact KeepsLine.refl
    · exact one _
    · exact one _
    · exact one _
    · exact one _
    · exact (one _).trans (keepsLine_setOther _ (by decide))
    · exact one _
    · exact (one _).trans (acknowledged _)
    · exact one _

theorem keepsLine_tlbReadIndexed : KeepsLine c c.tlbReadIndexed := by
  have pageMask (d : Cpu) (v : U32) : KeepsLine d (d.setCop0Reg Cop0Reg.PageMask v) :=
    keepsLine_setOther v (by decide)
  have entryHi (d : Cpu) (v : U32) : KeepsLine d (d.setCop0Reg Cop0Reg.EntryHi v) :=
    keepsLine_setOther v (by decide)
  have entryLo0 (d : Cpu) (v : U32) : KeepsLine d (d.setCop0Reg Cop0Reg.EntryLo0 v) :=
    keepsLine_setOther v (by decide)
  have entryLo1 (d : Cpu) (v : U32) : KeepsLine d (d.setCop0Reg Cop0Reg.EntryLo1 v) :=
    keepsLine_setOther v (by decide)
  exact (((pageMask c _).trans (entryHi _ _)).trans (entryLo0 _ _)).trans (entryLo1 _ _)

theorem keepsLine_tlbProbe : KeepsLine c c.tlbProbe := by
  simp only [tlbProbe]
  split
  · exact keepsLine_setOther _ (by decide)
  · exact keepsLine_setOther _ (by decide)

theorem keepsLine_doEret : KeepsLine c c.doEret := by
  have status (d : Cpu) (v : U32) : KeepsLine d (d.setCop0Reg Cop0Reg.Status v) :=
    keepsLine_setOther v (by decide)
  exact (status c _).trans (keepsLine_same rfl)

end Registers

end Cpu

namespace Lines

variable {fp : HostFpu} {insn : U32} {s t : Sys} (k : Lines s)
include k

theorem setCpu {c : Cpu} (h : Cpu.KeepsLine s.cpu c) : Lines { s with cpu := c } := by
  refine ⟨?_, k.requests⟩
  show (c.cop0 Cop0Reg.Cause &&& CAUSE_IP2 != 0) = Mi.cpuIrqLevel s.bus.mi
  rw [h]
  exact k.cause

theorem relog (log : List Event) : Lines { s with log := log } := ⟨k.cause, k.requests⟩

theorem onCpu {f : Cpu → Cpu} (h : Cpu.KeepsLine s.cpu (f s.cpu)) : Lines (s.onCpu f) :=
  k.setCpu h

theorem setCop0 (i : BitVec 5) (v : U32) : Lines (Cpu.setCop0 s i v) := by
  have moved : Lines (s.onCpu (·.setCop0Value i v)) := k.onCpu (Cpu.keepsLine_setCop0Value i v)
  simp only [Cpu.setCop0]
  split
  · exact moved.relog _
  · exact moved

theorem readCpu {p : PhysicalAddress} {size : ℕ} {u : Sys} {c : Cpu}
    (read : Frame [] (s.emit (.load p size)) u) (same : Cpu.Straight s.cpu c) :
    Lines { u with cpu := c } := by
  have loaded : Lines u := (k.relog _).unwatched read
  have cpu : u.cpu = (s.emit (.load p size)).cpu := Cpu.frame_cpu read
  apply loaded.setCpu
  exact Cpu.keepsLine_same (by rw [cpu]; exact same.cop0)

theorem before {p : PhysicalAddress} {size : ℕ} {u : Sys} (h : Sys.BeforeStore p size s u) :
    Lines u := by
  cases h with
  | aligned => exact k
  | merge read => exact (k.relog _).unwatched read

theorem effect (h : s.Effect insn t) : Lines t := by
  cases h with
  | cpu h =>
    cases h with
    | straight same => exact k.setCpu (Cpu.keepsLine_same same.cop0)
    | branch same => exact k.setCpu (Cpu.keepsLine_same same.cop0)
    | raised fcr31 unknown llBit miss =>
      have fault : Cpu.KeepsLine s.cpu (s.cpu.atFault fcr31 unknown llBit) := rfl
      exact k.setCpu (fault.trans (Cpu.keepsLine_raiseException _ _ _ _))
  | load _ read same => exact k.readCpu read same
  | linked _ _ read same =>
    have loaded := k.readCpu read same
    exact loaded.setCpu (Cpu.keepsLine_same rfl)
  | store _ before wrote =>
    have stored := wrote.preserves lines_devices ((k.before before).relog _)
    exact stored.onCpu (Cpu.keepsLine_same rfl)
  | conditional _ _ _ _ wrote =>
    have cleared : Lines (s.onCpu Cpu.clearLlBit) := k.onCpu (Cpu.keepsLine_same rfl)
    have stored := wrote.preserves lines_devices (cleared.relog _)
    exact stored.onCpu (Cpu.keepsLine_same (Cpu.straight_writeGpr _ _).cop0)
  | refused _ same => exact k.setCpu (Cpu.keepsLine_same same.cop0)
  | setCop0 _ _ v => exact k.setCop0 _ v
  | tlbRead => exact (k.onCpu Cpu.keepsLine_tlbReadIndexed).relog _
  | tlbWrite => exact (k.onCpu (Cpu.keepsLine_same rfl)).relog _
  | tlbProbe => exact k.onCpu Cpu.keepsLine_tlbProbe
  | eret => exact k.onCpu Cpu.keepsLine_doEret

theorem finish (h : Cpu.Finish insn s t) : Lines t := by
  have entered : Cpu.KeepsLine s.cpu s.cpu.enterStep := by
    unfold Cpu.enterStep
    split <;> rfl
  cases h with
  | @faulted fcr31 unknown llBit code ce bad refill =>
    have fault : Cpu.KeepsLine s.cpu (s.cpu.enterStep.atFault fcr31 unknown llBit) := entered
    have raised := fault.trans (Cpu.keepsLine_raiseException code ce bad refill)
    exact k.onCpu ((raised.trans Cpu.keepsLine_retire).trans (Cpu.keepsLine_same rfl))
  | completed effect _ =>
    have executed := (k.onCpu entered).effect effect
    have advanced (c : Cpu) (pc : U64) (slot : Bool) : Cpu.KeepsLine c (c.advancePc pc slot) := by
      unfold Cpu.advancePc
      split_ifs <;> rfl
    exact executed.onCpu ((advanced _ _ _).trans Cpu.keepsLine_retire)

theorem cpuStep : Lines (Cpu.step fp s) := by
  have effect := Cpu.step_cases fp s
  generalize Cpu.step fp s = t at effect ⊢
  cases effect with
  | halted => exact k.onCpu (Cpu.keepsLine_same rfl)
  | interrupt =>
    exact k.onCpu ((Cpu.keepsLine_raiseException _ _ _ _).trans Cpu.keepsLine_retire)
  | fetchFault =>
    have marked : Cpu.KeepsLine s.cpu s.cpu.markSlot := rfl
    exact k.onCpu ((marked.trans (Cpu.keepsLine_raiseException _ _ _ _)).trans
      Cpu.keepsLine_retire)
  | @executed _ _ p _ _ _ _ read _ finish =>
    have marked : Lines (s.onCpu Cpu.markSlot) := k.onCpu (Cpu.keepsLine_same rfl)
    have fetched := lines_devices.read32 p marked
    rw [read] at fetched
    exact (fetched.finish finish).relog _

theorem blockInsn (insn : U32) : Lines (Cpu.blockInsn fp s insn).2 := by
  have effect := Cpu.blockInsn_cases fp s insn
  generalize (Cpu.blockInsn fp s insn).2 = t at effect ⊢
  cases effect with
  | interrupt =>
    exact k.onCpu ((Cpu.keepsLine_raiseException _ _ _ _).trans Cpu.keepsLine_retire)
  | executed _ finish =>
    have marked : Lines (s.onCpu Cpu.markSlot) := k.onCpu (Cpu.keepsLine_same rfl)
    exact marked.finish finish

theorem writeGpr (i : BitVec 5) (value : U64) : Lines (s.onCpu (·.writeGpr i value)) :=
  k.onCpu (Cpu.keepsLine_same (Cpu.straight_writeGpr i value).cop0)

end Lines

theorem lines_boot : BootInvariant Lines where
  write32 := fun addr value k => lines_devices.write32 addr value k
  loadPifRom := fun _ _ k => k.same rfl
  seedPif := fun _ _ k => k.same rfl
  mirrorPif := fun k => k.frame (frame_mirrorPif _) (by decide)
  writeGpr := fun i value k => k.writeGpr i value
  setCop0 := fun i value k => k.setCop0 i value
  startCpu := fun _ k => k.onCpu (Cpu.keepsLine_same rfl)
  resetRsp := fun k => k.same rfl
  installByte := fun _ _ k => k.same rfl

theorem lines_run (fp : HostFpu) : RunInvariant fp Lines where
  relog := fun log k => k.relog log
  reset := lines_reset
  cpuStep := fun k => k.cpuStep
  blockInsn := fun insn k => k.blockInsn insn
  device := fun a k => lines_devices.perform (fun _ h => h.rspStep) a k
  tick := fun d k => (k.viTick d).aiTick d
  pushMemToBus := fun k => k.pushMemToBus
  clearFrameReady := fun k => k.same rfl
  loadCartridge := by
    intro s t data loaded k
    unfold Bus.loadCartridge at loaded
    split at loaded
    · cases loaded
    · cases loaded
      exact k.same rfl
  boot := fun files cfg k => lines_boot.hleBootLoaded files cfg k

namespace Emulator

/-- After any loads, resets, boots, runs and bus accesses the three copies of
the interrupt state agree. -/
theorem interrupt_lines_agree (fp : HostFpu) (files : Files) (acts : List Act)
    (onBus : ∀ a ∈ acts, a.OnBus) :
    let s := (Runs.run (step fp) acts (construct files)).sys
    (s.cpu.cop0 Cop0Reg.Cause &&& CAUSE_IP2 ≠ 0 ↔ s.bus.mi.intr &&& s.bus.mi.intrMask ≠ 0) ∧
      (s.bus.pi.status &&& Pi.StatusIntr ≠ 0 ↔ s.bus.mi.intr &&& MiIntr.PI ≠ 0) ∧
      (s.bus.si.status &&& Si.StatusIntr ≠ 0 ↔ s.bus.mi.intr &&& MiIntr.SI ≠ 0) := by
  intro s
  have lines : Lines s := (lines_run fp).holds files acts onBus
  have shown {a b : U32} (same : (a != 0) = (b != 0)) : a ≠ 0 ↔ b ≠ 0 := by
    rw [← bne_iff_ne, ← bne_iff_ne, same]
  exact ⟨shown lines.cause, shown lines.requests.pi, shown lines.requests.si⟩

/-- A load, a transfer with the PI unmasked, a run and a reset. -/
theorem interrupt_lines_agree_transfer :
    let s := (Runs.run (step default) [.loadRomBytes (fun _ => none) [0x80, 0x37] {},
      .component (DeviceAct.write32 0x0430000C 0x200).perform,
      .component (DeviceAct.piWrite 0x08 0x7F).perform, .runCycles 64,
      .reset fun _ => none] (construct fun _ => none)).sys
    (s.cpu.cop0 Cop0Reg.Cause &&& CAUSE_IP2 ≠ 0 ↔ s.bus.mi.intr &&& s.bus.mi.intrMask ≠ 0) ∧
      (s.bus.pi.status &&& Pi.StatusIntr ≠ 0 ↔ s.bus.mi.intr &&& MiIntr.PI ≠ 0) ∧
      (s.bus.si.status &&& Si.StatusIntr ≠ 0 ↔ s.bus.mi.intr &&& MiIntr.SI ≠ 0) := by
  apply interrupt_lines_agree
  simp [Act.OnBus]

end Emulator

end N64
