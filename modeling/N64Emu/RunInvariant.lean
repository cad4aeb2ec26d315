import N64Emu.Emulator
import N64Emu.Runs
import N64Emu.DeviceInvariant

/-!
# Invariants of the emulator

What every step, tick, boot and reset of the machine preserves holds after any
sequence of calls of the host.
-/

set_option autoImplicit false

namespace N64

open Words Loops

/-- A use of a component is an access of the bus or of a register block. -/
def Emulator.Act.OnBus : Emulator.Act → Prop
  | .component f => ∃ a : DeviceAct, f = a.perform
  | _ => True

/-- `P` survives everything the emulator does to its machine, and every reset
establishes it. -/
structure RunInvariant (fp : HostFpu) (P : Sys → Prop) : Prop where
  relog : ∀ {s} log, P s → P { s with log := log }
  reset : ∀ s : Sys, P s.reset
  cpuStep : ∀ {s}, P s → P (Cpu.step fp s)
  blockInsn : ∀ {s} insn, P s → P (Cpu.blockInsn fp s insn).2
  device : ∀ {s} (a : DeviceAct), P s → P (a.perform s)
  tick : ∀ {s} d, P s → P (Emulator.tickDevices d s)
  pushMemToBus : ∀ {s}, P s → P s.pushMemToBus
  clearFrameReady : ∀ {s}, P s → P { s with vi.frameReady := false }
  loadCartridge : ∀ {s t} data, Bus.loadCartridge s data = some t → P s → P t
  boot : ∀ {s} files cfg, P s → P (Boot.hleBootLoaded files cfg s).2

namespace RunInvariant

variable {fp : HostFpu} {P : Sys → Prop} (inv : RunInvariant fp P)
include inv

section Machine

variable {m : Machine}

theorem commit {s : Sys} (h : P s) : P (m.commit s).sys := inv.relog [] h

theorem performed {f : Sys → Sys} (each : ∀ {s}, P s → P (f s)) (h : P m.sys) :
    P (m.perform f).sys :=
  inv.commit (each (inv.relog [] h))

theorem blockInsns (insns : List U32) (expectedPc : U64) (h : P m.sys) :
    P (Cpu.blockInsns fp insns expectedPc m).2.sys := by
  induction insns generalizing expectedPc m with
  | nil => exact h
  | cons insn rest ih =>
    have executed : P (m.commit (Cpu.blockInsn fp { m.sys with log := [] } insn).2).sys :=
      inv.commit (inv.blockInsn insn (inv.relog [] h))
    simp only [Cpu.blockInsns]
    split_ifs
    · exact h
    · exact ih _ executed
    · exact executed

theorem runPass (n taken : ℕ) (h : P m.sys) : P (Cpu.runPass fp n taken m).2.sys := by
  have found : P (Cpu.findBlock m).2.sys := (Cpu.findBlock_sys m).symm ▸ h
  simp only [Cpu.runPass]
  split
  · split
    · split
      · split
        · exact inv.performed inv.cpuStep (inv.blockInsns _ _ found)
        · exact inv.blockInsns _ _ found
      · exact inv.performed inv.cpuStep found
    · exact inv.performed inv.cpuStep found
  · exact inv.performed inv.cpuStep h

theorem runLoop (n fuel taken : ℕ) (h : P m.sys) : P (Cpu.runLoop fp n fuel taken m).2.sys := by
  induction fuel generalizing taken m with
  | zero => exact h
  | succ fuel ih =>
    simp only [Cpu.runLoop]
    split
    · exact ih _ (inv.runPass n taken h)
    · exact h

theorem cpuRun (n : ℕ) (h : P m.sys) : P (Cpu.run fp n m).2.sys := inv.runLoop n n 0 h

end Machine

section Emulator

variable {e : Emulator}

theorem resetHardware (e : Emulator) : P e.resetHardware.sys := inv.relog [] (inv.reset _)

theorem booted (files : Files) (cfg : BootConfig) (h : P e.sys) :
    P (e.boot files cfg).2.sys := by
  have machine : P (e.bootMachine files cfg).sys :=
    inv.commit (inv.boot files cfg (inv.relog [] h))
  cases ok : (Boot.hleBootLoaded files cfg { e.sys with log := [] }).1.ok with
  | false =>
    rw [Emulator.boot_failed ok]
    exact machine
  | true =>
    rw [Emulator.boot_succeeded ok]
    exact machine

theorem afterReset (files : Files) (e : Emulator) : P (e.reset files).sys := by
  have cold := inv.resetHardware e
  simp only [Emulator.reset]
  split
  · exact inv.booted files _ cold
  · exact cold

theorem construct (files : Files) : P (Emulator.construct files).sys := inv.afterReset files {}

theorem loadRomBytes (files : Files) (data : List U8) (cfg : BootConfig) (e : Emulator) :
    P (e.loadRomBytes files data cfg).2.sys := by
  have cold := inv.resetHardware e
  simp only [Emulator.loadRomBytes]
  split
  case h_1 => exact cold
  case h_2 s loaded =>
    apply inv.booted
    exact inv.loadCartridge data loaded cold

theorem loadRom (files : Files) (path : String) (e : Emulator) :
    P (e.loadRom files path).2.sys := by
  have cold := inv.resetHardware e
  simp only [Emulator.loadRom]
  split
  case h_1 => exact cold
  case h_2 s loaded =>
    apply inv.booted
    unfold Bus.loadCartridgeFile at loaded
    split at loaded
    · cases loaded
    case h_2 data _ =>
      split_ifs at loaded
      exact inv.loadCartridge data loaded cold

theorem stepCpu (maxCpuSteps : Cycles) {m : Machine} (h : P m.sys) :
    P (Emulator.stepCpu fp maxCpuSteps m).2.sys := by
  have ran := inv.cpuRun maxCpuSteps.toNat h
  simp only [Emulator.stepCpu]
  split
  · exact inv.performed inv.cpuStep ran
  · exact ran

theorem rspRun (maxSteps : ℕ) {s : Sys} (h : P s) : P (Rsp.run maxSteps s) :=
  whileDo_preserves P maxSteps h fun _ _ k => inv.device .rspStep k

theorem stepCpuRsp (maxCpuSteps : Cycles) (h : P e.sys) :
    P (e.stepCpuRsp fp maxCpuSteps).2.sys := by
  have stepped := inv.stepCpu maxCpuSteps h
  simp only [Emulator.stepCpuRsp]
  split
  · exact h
  · show P (if _ then _ else _ : Machine).sys
    split
    · exact stepped
    · exact inv.performed (inv.rspRun _) stepped

theorem flushDevices (h : P e.sys) : P e.flushDevices.sys := by
  simp only [Emulator.flushDevices]
  split
  · exact h
  · exact inv.performed (inv.tick _) h

theorem pushRsp (h : P e.sys) : P e.pushRsp.sys := by
  unfold Emulator.pushRsp
  split
  · exact inv.performed inv.pushMemToBus h
  · exact h

theorem cyclesPass {t : Cycles × Emulator} (h : P t.2.sys) :
    P (Emulator.cyclesPass fp t).2.sys := by
  have stepped := inv.stepCpuRsp (minCycles t.1 Emulator.kDeviceBatch) h
  simp only [Emulator.cyclesPass]
  split
  · exact inv.flushDevices stepped
  · exact stepped

theorem runCycles (cycles : Cycles) (h : P e.sys) : P (e.runCycles fp cycles).sys := by
  simp only [Emulator.runCycles]
  split
  · exact h
  · apply inv.pushRsp
    apply inv.flushDevices
    exact whileDo_preserves (fun t : Cycles × Emulator => P t.2.sys) _ h
      fun _ _ k => inv.cyclesPass k

theorem framePass (limit framesBefore : U64) {t : Emulator.FramePass} (h : P t.emulator.sys) :
    P (Emulator.framePass fp limit framesBefore t).emulator.sys :=
  inv.flushDevices (inv.stepCpuRsp _ h)

theorem runFrame (h : P e.sys) : P (e.runFrame fp).2.sys := by
  simp only [Emulator.runFrame]
  split
  · exact h
  · apply inv.pushRsp
    exact whileDo_preserves (fun t : Emulator.FramePass => P t.emulator.sys) _
      (inv.clearFrameReady h) fun _ _ k => inv.framePass _ _ k

theorem loop (maxCycles : Cycles) (fuel : ℕ) (h : P e.sys) :
    P (Emulator.runLoop fp maxCycles fuel e).sys := by
  induction fuel generalizing e with
  | zero => exact h
  | succ fuel ih =>
    have frame := inv.runFrame h
    have cycles := inv.runCycles (e.runChunk maxCycles) h
    simp only [Emulator.runLoop]
    split_ifs
    · exact h
    · exact h
    · exact frame
    · exact ih frame
    · exact cycles
    · exact ih cycles

theorem step (a : Emulator.Act) (onBus : a.OnBus) (h : P e.sys) :
    P (Emulator.step fp a e).sys := by
  cases a with
  | loadRom files path => exact inv.loadRom files path e
  | loadRomBytes files data cfg => exact inv.loadRomBytes files data cfg e
  | reset files => exact inv.afterReset files e
  | boot files cfg => exact inv.booted files cfg h
  | runCycles cycles => exact inv.runCycles cycles h
  | runFrame => exact inv.runFrame h
  | run fuel maxCycles => exact inv.loop maxCycles fuel h
  | component f =>
    obtain ⟨a, rfl⟩ := onBus
    exact inv.performed (inv.device a) h
  | schedule f => exact h
  | requestStop => exact h
  | clearFrameReady => exact inv.clearFrameReady h
  | setTiming t => exact h
  | setBootConfig cfg => exact h
  | setBlockCacheEnabled enabled => exact h

theorem reached (acts : List Emulator.Act) (onBus : ∀ a ∈ acts, a.OnBus) (h : P e.sys) :
    P (Runs.run (Emulator.step fp) acts e).sys := by
  induction acts generalizing e with
  | nil => exact h
  | cons a acts ih =>
    have first := inv.step a (onBus a List.mem_cons_self) h
    exact ih (fun b member => onBus b (List.mem_cons_of_mem a member)) first

theorem holds (files : Files) (acts : List Emulator.Act) (onBus : ∀ a ∈ acts, a.OnBus) :
    P (Runs.run (Emulator.step fp) acts (Emulator.construct files)).sys :=
  inv.reached acts onBus (inv.construct files)

end Emulator

end RunInvariant

end N64
