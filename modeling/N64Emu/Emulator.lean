import N64Emu.Boot
import N64Emu.CpuRun
import N64Emu.Scheduler

/-!
# The emulator

The facade that owns the machine, the scheduler and the boot configuration:
resets, ROM loads, boots and the run loops. The debugger is disabled and no
trace is attached; the target frame rate, which is only logged, is left out.
-/

set_option autoImplicit false

namespace N64

open Words Loops

/-- `std::min`. -/
def minCycles (a b : Cycles) : Cycles := if b < a then b else a

structure TimingConfig where
  cyclesPerFrame : Cycles := 0
  maxCyclesPerFrame : Cycles := 0
  rspStepsPerCpu : U32 := 4
  syncToVi : Bool := true
  deriving DecidableEq

namespace TimingConfig

/-- The configuration of a region with this many frames a second. -/
def region (fps : ℕ) : TimingConfig :=
  let cyclesPerFrame : Cycles := BitVec.ofNat 64 (kCpuClockHz / fps)
  { cyclesPerFrame := cyclesPerFrame
    maxCyclesPerFrame := cyclesPerFrame * 2
    rspStepsPerCpu := 4
    syncToVi := true }

def ntsc : TimingConfig := region 60

def pal : TimingConfig := region 50

end TimingConfig

structure FrameResult where
  cyclesRan : Cycles := 0
  viFrame : Bool := false
  viFrameIndex : U64 := 0
  hitLimit : Bool := false
  stopped : Bool := false
  deriving DecidableEq

structure Emulator where
  machine : Machine := {}
  scheduler : Scheduler := {}
  deviceDebt : Cycles := 0
  romLoaded : Bool := false
  booted : Bool := false
  stopRequested : Bool := false
  cyclesExecuted : Cycles := 0
  romPath : String := ""
  header : CartHeader := {}
  bootCfg : BootConfig := {}
  timing : TimingConfig := TimingConfig.ntsc

namespace Machine

/-- `perform` for a function that also returns a result. -/
def performWith {α : Type} (m : Machine) (f : Sys → α × Sys) : α × Machine :=
  let (result, s) := f { m.sys with log := [] }
  (result, m.commit s)

end Machine

namespace Rsp

/-- `run`: steps until the limit or a halt. -/
def run (maxSteps : ℕ) (s : Sys) : Sys := whileDo (fun s => !s.rsp.halted) step maxSteps s

end Rsp

namespace BootConfig

/-- The test of `load_rom_bytes` for an argument that is not the default. -/
def customized (cfg : BootConfig) : Bool :=
  cfg.skipRomCopy || cfg.forceCic != .Unknown || cfg.pifRomPath != "" || cfg.ipl3Path != "" ||
  cfg.forceTvSet || cfg.loadSize != 0 || cfg.mode != .Hle || cfg.resetType != 0

end BootConfig

namespace Emulator

def kDeviceBatch : Cycles := 32

def sys (e : Emulator) : Sys := e.machine.sys

def onSys (e : Emulator) (f : Sys → Sys) : Emulator := { e with machine := e.machine.perform f }

/-- The resets `reset` and both ROM loads start with. -/
def resetHardware (e : Emulator) : Emulator :=
  { e with
      stopRequested := false
      cyclesExecuted := 0
      booted := false
      deviceDebt := 0
      machine := { e.machine with
        sys := { e.machine.sys.reset with log := [] }
        cache := e.machine.cache.clear }
      scheduler := e.scheduler.reset }

/-- The timing of a booted cartridge's TV system. -/
def regionTiming (tv : TvType) : TimingConfig :=
  let t := if tv = .PAL then TimingConfig.pal else TimingConfig.ntsc
  let t := if t.cyclesPerFrame = 0 then
    { t with cyclesPerFrame := BitVec.ofNat 64 (kCpuClockHz / 60) } else t
  if t.maxCyclesPerFrame = 0 then { t with maxCyclesPerFrame := t.cyclesPerFrame * 2 } else t

def boot (files : Files) (cfg : BootConfig) (e : Emulator) : Bool × Emulator :=
  let e := { e with bootCfg := cfg, machine.cache := e.machine.cache.clear }
  let (r, m) := e.machine.performWith (Boot.hleBootLoaded files cfg)
  let e := { e with machine := m }
  if !r.ok then (false, { e with booted := false, header := {} })
  else
    (true, { e with
      header := r.header
      booted := true
      cyclesExecuted := 0
      stopRequested := false
      deviceDebt := 0
      timing := regionTiming r.header.tv })

section Boot

variable {files : Files} {cfg : BootConfig} {e : Emulator}

/-- The machine after a boot, whether it succeeds or fails. -/
def bootMachine (files : Files) (cfg : BootConfig) (e : Emulator) : Machine :=
  { e.machine with cache := e.machine.cache.clear }.commit
    (Boot.hleBootLoaded files cfg { e.sys with log := [] }).2

theorem boot_failed
    (failed : (Boot.hleBootLoaded files cfg { e.sys with log := [] }).1.ok = false) :
    e.boot files cfg = (false, { e with
      bootCfg := cfg, machine := e.bootMachine files cfg, booted := false, header := {} }) := by
  have refused : (!(Boot.hleBootLoaded files cfg { e.machine.sys with log := [] }).1.ok) = true :=
    congrArg not failed
  simp only [boot, Machine.performWith, refused, if_true]
  rfl

theorem boot_succeeded
    (ok : (Boot.hleBootLoaded files cfg { e.sys with log := [] }).1.ok = true) :
    e.boot files cfg = (true, { e with
      bootCfg := cfg
      machine := e.bootMachine files cfg
      header := (Boot.hleBootLoaded files cfg { e.sys with log := [] }).1.header
      booted := true
      cyclesExecuted := 0
      stopRequested := false
      deviceDebt := 0
      timing := regionTiming
        (Boot.hleBootLoaded files cfg { e.sys with log := [] }).1.header.tv }) := by
  have accepted : (!(Boot.hleBootLoaded files cfg { e.machine.sys with log := [] }).1.ok) = false :=
    congrArg not ok
  simp only [boot, Machine.performWith, accepted, Bool.false_eq_true, if_false]
  rfl

end Boot

/-- Whether `reset` boots again. -/
def canBoot (e : Emulator) : Bool :=
  e.sys.bus.hasCartridge ||
    (e.bootCfg.mode == .LlePif && (e.bootCfg.pifRomPath != "" || e.sys.bus.hasPifRom))

def reset (files : Files) (e : Emulator) : Emulator :=
  let e := e.resetHardware
  if e.canBoot then (e.boot files { e.bootCfg with resetType := 1 }).2 else e

def construct (files : Files) : Emulator := reset files {}

/-- What a load does when the bus refuses the image. -/
def rejectRom (e : Emulator) : Emulator :=
  { e with romLoaded := false, romPath := "", header := {} }

def acceptRom (e : Emulator) (s : Sys) (path : String) : Emulator :=
  { e with machine.sys := s, romLoaded := true, romPath := path }

def loadRom (files : Files) (path : String) (e : Emulator) : Bool × Emulator :=
  let e := e.resetHardware
  match Bus.loadCartridgeFile files e.sys path with
  | none => (false, e.rejectRom)
  | some s => (e.acceptRom s path).boot files { e.bootCfg with resetType := 0 }

def loadRomBytes (files : Files) (data : List U8) (bootArg : BootConfig) (e : Emulator) :
    Bool × Emulator :=
  let e := e.resetHardware
  match Bus.loadCartridge e.sys data with
  | none => (false, e.rejectRom)
  | some s => (e.acceptRom s "").boot files (if bootArg.customized then bootArg else e.bootCfg)

/-- The CPU part of `step_cpu_rsp`; a halted CPU still takes one step. -/
def stepCpu (fp : HostFpu) (maxCpuSteps : Cycles) (m : Machine) : Cycles × Machine :=
  let (did, m) := Cpu.run fp maxCpuSteps.toNat m
  if did = 0 then (1, m.perform (Cpu.step fp)) else (BitVec.ofNat 64 did, m)

def stepCpuRsp (fp : HostFpu) (maxCpuSteps : Cycles) (e : Emulator) : Cycles × Emulator :=
  if maxCpuSteps = 0 then (0, e)
  else
    let (cpuSteps, m) := stepCpu fp maxCpuSteps e.machine
    let rspSteps : U32 := (cpuSteps * e.timing.rspStepsPerCpu.setWidth 64).setWidth 32
    let m := if m.sys.rsp.halted then m else m.perform (Rsp.run rspSteps.toNat)
    (cpuSteps, { e with
      machine := m
      deviceDebt := e.deviceDebt + cpuSteps
      cyclesExecuted := e.cyclesExecuted + cpuSteps })

def tickDevices (d : Cycles) (s : Sys) : Sys := Ai.tick (Vi.tick s d) d

/-- The handler of the dispatched events is empty. -/
def flushDevices (e : Emulator) : Emulator :=
  if e.deviceDebt = 0 then e
  else
    let d := e.deviceDebt
    let e := { e with deviceDebt := 0 }.onSys (tickDevices d)
    { e with scheduler := (e.scheduler.advance d).dispatchDue.2 }

/-- The publication of the RSP memories that ends a run. -/
def pushRsp (e : Emulator) : Emulator :=
  if !e.sys.rsp.halted || e.sys.rsp.broke then e.onSys Sys.pushMemToBus else e

/-- One pass of the loop of `run_cycles`, with the cycles left. -/
def cyclesPass (fp : HostFpu) (t : Cycles × Emulator) : Cycles × Emulator :=
  let (did, e) := t.2.stepCpuRsp fp (minCycles t.1 kDeviceBatch)
  (t.1 - did, if kDeviceBatch ≤ e.deviceDebt then e.flushDevices else e)

/-- Every pass executes at least one step, so `cycles` passes are enough. -/
def runCycles (fp : HostFpu) (cycles : Cycles) (e : Emulator) : Emulator :=
  if cycles = 0 ∨ e.stopRequested then e
  else
    let t := whileDo (fun t => 0 < t.1 && !t.2.stopRequested) (cyclesPass fp) cycles.toNat
      (cycles, e)
    t.2.flushDevices.pushRsp

/-- The loop state of `run_frame`. -/
structure FramePass where
  ran : Cycles := 0
  viFrame : Bool := false
  emulator : Emulator

def frameGoing (limit : Cycles) (t : FramePass) : Bool :=
  !t.viFrame && !t.emulator.stopRequested && t.ran < limit

/-- One pass of the loop of `run_frame`; a new VI frame ends it. -/
def framePass (fp : HostFpu) (limit framesBefore : U64) (t : FramePass) : FramePass :=
  let (did, e) := t.emulator.stepCpuRsp fp (minCycles kDeviceBatch (limit - t.ran))
  let e := e.flushDevices
  { ran := t.ran + did
    viFrame := e.timing.syncToVi && (e.sys.vi.frameReady || framesBefore < e.sys.vi.frameCount)
    emulator := e }

def clearFrameReady (e : Emulator) : Emulator := { e with machine.sys.vi.frameReady := false }

def frameBudget (t : TimingConfig) : Cycles :=
  if t.cyclesPerFrame = 0 then BitVec.ofNat 64 (kCpuClockHz / 60) else t.cyclesPerFrame

def frameLimit (t : TimingConfig) : Cycles :=
  if t.maxCyclesPerFrame = 0 then frameBudget t * 2 else t.maxCyclesPerFrame

def runFrame (fp : HostFpu) (e : Emulator) : FrameResult × Emulator :=
  if e.stopRequested then ({ stopped := true }, e)
  else
    let framesBefore := e.sys.vi.frameCount
    let limit := frameLimit e.timing
    let t := whileDo (frameGoing limit) (framePass fp limit framesBefore) limit.toNat
      { emulator := e.clearFrameReady }
    let e' := t.emulator.pushRsp
    ({ cyclesRan := t.ran
       viFrame := t.viFrame || frameBudget e.timing ≤ t.ran
       viFrameIndex := e'.sys.vi.frameCount
       hitLimit := !t.viFrame && limit ≤ t.ran
       stopped := e'.stopRequested }, e')

/-- The chunk `run` asks for next. -/
def runChunk (maxCycles : Cycles) (e : Emulator) : Cycles :=
  minCycles (maxCycles - e.cyclesExecuted)
    (if e.timing.cyclesPerFrame ≠ 0 then e.timing.cyclesPerFrame else 1024)

/-- The loop of `run`. Without a limit of cycles the fuel counts the frames
that pass until the host stops it. -/
def runLoop (fp : HostFpu) (maxCycles : Cycles) : ℕ → Emulator → Emulator
  | 0, e => e
  | fuel+1, e =>
    if e.stopRequested then e
    else if maxCycles ≠ 0 ∧ maxCycles ≤ e.cyclesExecuted then e
    else if maxCycles = 0 then
      let (frame, e) := e.runFrame fp
      if frame.stopped ∨ frame.cyclesRan = 0 then e else runLoop fp maxCycles fuel e
    else
      let before := e.cyclesExecuted
      let e := e.runCycles fp (e.runChunk maxCycles)
      if e.cyclesExecuted = before then e else runLoop fp maxCycles fuel e

def run (fp : HostFpu) (fuel : ℕ) (maxCycles : Cycles) (e : Emulator) : Emulator :=
  runLoop fp maxCycles fuel { e with stopRequested := false }

/-- The calls of a host. `component` is any use of a component through its
accessor: a bus access, a controller, a CPU register. -/
inductive Act where
  | loadRom (files : Files) (path : String)
  | loadRomBytes (files : Files) (data : List U8) (cfg : BootConfig)
  | reset (files : Files)
  | boot (files : Files) (cfg : BootConfig)
  | runCycles (cycles : Cycles)
  | runFrame
  | run (fuel : ℕ) (maxCycles : Cycles)
  | component (f : Sys → Sys)
  | schedule (f : Scheduler → Scheduler)
  | requestStop
  | clearFrameReady
  | setTiming (t : TimingConfig)
  | setBootConfig (cfg : BootConfig)
  | setBlockCacheEnabled (enabled : Bool)

/-- What a call returns to the host. -/
inductive Reply where
  | none
  | ok (success : Bool)
  | frame (result : FrameResult)
  deriving DecidableEq

def perform (fp : HostFpu) : Act → Emulator → Reply × Emulator
  | .loadRom files path, e => (e.loadRom files path).map .ok id
  | .loadRomBytes files data cfg, e => (e.loadRomBytes files data cfg).map .ok id
  | .reset files, e => (.none, e.reset files)
  | .boot files cfg, e => (e.boot files cfg).map .ok id
  | .runCycles cycles, e => (.none, e.runCycles fp cycles)
  | .runFrame, e => (e.runFrame fp).map .frame id
  | .run fuel maxCycles, e => (.none, e.run fp fuel maxCycles)
  | .component f, e => (.none, e.onSys f)
  | .schedule f, e => (.none, { e with scheduler := f e.scheduler })
  | .requestStop, e => (.none, { e with stopRequested := true })
  | .clearFrameReady, e => (.none, e.clearFrameReady)
  | .setTiming t, e => (.none, { e with timing := t })
  | .setBootConfig cfg, e => (.none, { e with bootCfg := cfg })
  | .setBlockCacheEnabled enabled, e => (.none, { e with machine.enabled := enabled })

def step (fp : HostFpu) (a : Act) (e : Emulator) : Emulator := (perform fp a e).2

/-- The reply to a call, as the one entry it adds to a log of replies. -/
def replies (fp : HostFpu) (a : Act) (e : Emulator) : List Reply := [(perform fp a e).1]

end Emulator

end N64
