import N64Emu.CacheAlike
import N64Emu.RomLoads

/-!
# Soft reset

Two emulators with the same cartridge, PIF ROM, RDRAM size and boot
configuration have the same machine after a reset. What a reset leaves alone
is set by the host: the timing, unless the reset boots, and the block cache
switch.
-/

set_option autoImplicit false

namespace N64

open Words Loops

namespace BlockCache

/-- No slot is valid: nothing can be looked up. -/
structure Empty (c : BlockCache) : Prop where
  count : c.count = 0
  listed : c.physicallyAliasedSlots = []
  invalid : ∀ i, i < kDirectTableSize → (c.table i).valid = false

theorem empty_clear (c : BlockCache) : Empty c.clear where
  count := rfl
  listed := rfl
  invalid := by
    intro i hi
    simp only [clear, if_pos hi]

theorem Empty.onEvents {c : BlockCache} (h : Empty c) (es : List Event) :
    Empty (es.foldl onEvent c) := by
  induction es generalizing c with
  | nil => exact h
  | cons e es ih =>
    apply ih
    cases e with
    | notify p n => simpa [onEvent, h.count] using h
    | flush => exact empty_clear c
    | load p n => exact h
    | store p n => exact h
    | wrote cell => exact h

end BlockCache

namespace Emulator

/-- What a reset keeps: the media, the size of RDRAM and the configuration. -/
structure SameMedia (e f : Emulator) : Prop where
  rdramSize : e.sys.bus.rdramSize = f.sys.bus.rdramSize
  cartSize : e.sys.bus.cartSize = f.sys.bus.cartSize
  cart : e.sys.bus.cart = f.sys.bus.cart
  pifRomSize : e.sys.bus.pifRomSize = f.sys.bus.pifRomSize
  pifRom : e.sys.bus.pifRom = f.sys.bus.pifRom
  bootCfg : e.bootCfg = f.bootCfg

/-- The same state, but for the header, the ROM path and its flag, which no
call reads before it sets them, and the blocks of invalid cache slots. -/
structure SameState (e f : Emulator) : Prop where
  sys : e.sys = f.sys
  cache : e.machine.cache.Alike f.machine.cache
  scheduler : e.scheduler = f.scheduler
  deviceDebt : e.deviceDebt = f.deviceDebt
  stopRequested : e.stopRequested = f.stopRequested
  cyclesExecuted : e.cyclesExecuted = f.cyclesExecuted
  booted : e.booted = f.booted
  bootCfg : e.bootCfg = f.bootCfg

/-- The same state and the same settings of the host. -/
structure Alike (e f : Emulator) : Prop extends SameState e f where
  enabled : e.machine.enabled = f.machine.enabled
  timing : e.timing = f.timing

section Reset

variable {e f : Emulator}

theorem sys_reset_congr {s t : Sys} (rdramSize : s.bus.rdramSize = t.bus.rdramSize)
    (cartSize : s.bus.cartSize = t.bus.cartSize) (cart : s.bus.cart = t.bus.cart)
    (pifRomSize : s.bus.pifRomSize = t.bus.pifRomSize) (pifRom : s.bus.pifRom = t.bus.pifRom) :
    { s.reset with log := [] } = { t.reset with log := [] } := by
  obtain ⟨cpu, bus, vi, ai, pif, rsp, rdp, log⟩ := s
  obtain ⟨cpu', bus', vi', ai', pif', rsp', rdp', log'⟩ := t
  cases bus
  cases bus'
  simp only at *
  subst_vars
  rfl

theorem SameState.media (h : SameState e f) : SameMedia e f where
  rdramSize := by rw [h.sys]
  cartSize := by rw [h.sys]
  cart := by rw [h.sys]
  pifRomSize := by rw [h.sys]
  pifRom := by rw [h.sys]
  bootCfg := h.bootCfg

theorem SameMedia.resetHardware (h : SameMedia e f) :
    SameState e.resetHardware f.resetHardware where
  sys := sys_reset_congr h.rdramSize h.cartSize h.cart h.pifRomSize h.pifRom
  cache := BlockCache.Alike.clear e.machine.cache f.machine.cache
  scheduler := rfl
  deviceDebt := rfl
  stopRequested := rfl
  cyclesExecuted := rfl
  booted := rfl
  bootCfg := h.bootCfg

theorem boot_enabled (files : Files) (cfg : BootConfig) (e : Emulator) :
    (e.boot files cfg).2.machine.enabled = e.machine.enabled := by
  cases ok : (Boot.hleBootLoaded files cfg { e.sys with log := [] }).1.ok with
  | false => rw [boot_failed ok]; rfl
  | true => rw [boot_succeeded ok]; rfl

theorem SameState.boot (h : SameState e f) (files : Files) (cfg : BootConfig) :
    (e.boot files cfg).1 = (f.boot files cfg).1 ∧
      SameState (e.boot files cfg).2 (f.boot files cfg).2 ∧
      ((e.boot files cfg).1 = true ∨ e.timing = f.timing →
        (e.boot files cfg).2.timing = (f.boot files cfg).2.timing) := by
  have sys : (e.bootMachine files cfg).sys = (f.bootMachine files cfg).sys := by
    simp only [bootMachine, h.sys]
    rfl
  have cache : (e.bootMachine files cfg).cache.Alike (f.bootMachine files cfg).cache := by
    simp only [bootMachine, Machine.commit, h.sys]
    exact (BlockCache.Alike.clear _ _).onEvents _
  cases ok : (Boot.hleBootLoaded files cfg { e.sys with log := [] }).1.ok with
  | false =>
    have ok' := ok
    rw [h.sys] at ok'
    rw [boot_failed ok, boot_failed ok']
    exact ⟨rfl,
      ⟨sys, cache, h.scheduler, h.deviceDebt, h.stopRequested, h.cyclesExecuted, rfl, rfl⟩,
      fun same => same.resolve_left Bool.false_ne_true⟩
  | true =>
    have ok' := ok
    rw [h.sys] at ok'
    rw [boot_succeeded ok, boot_succeeded ok', h.sys]
    exact ⟨rfl, ⟨sys, cache, h.scheduler, rfl, rfl, rfl, rfl, rfl⟩, fun _ => rfl⟩

theorem SameMedia.canBoot (h : SameMedia e f) :
    e.resetHardware.canBoot = f.resetHardware.canBoot := by
  simp only [Emulator.canBoot, h.resetHardware.sys, h.resetHardware.bootCfg]

theorem reset_boots {files : Files} (boots : e.resetHardware.canBoot = true) :
    e.reset files =
      (e.resetHardware.boot files { e.resetHardware.bootCfg with resetType := 1 }).2 :=
  if_pos boots

theorem reset_rests {files : Files} (rests : ¬ e.resetHardware.canBoot = true) :
    e.reset files = e.resetHardware := if_neg rests

theorem SameMedia.reset (h : SameMedia e f) (files : Files) :
    SameState (e.reset files) (f.reset files) := by
  by_cases boots : f.resetHardware.canBoot = true
  · rw [reset_boots (h.canBoot.trans boots), reset_boots boots, h.resetHardware.bootCfg]
    exact (h.resetHardware.boot files _).2.1
  · rw [reset_rests (h.canBoot ▸ boots), reset_rests boots]
    exact h.resetHardware

theorem SameMedia.reset_timing (h : SameMedia e f) (files : Files)
    (settled : (e.reset files).booted = true ∨ e.timing = f.timing) :
    (e.reset files).timing = (f.reset files).timing := by
  by_cases boots : f.resetHardware.canBoot = true
  · rw [reset_boots (h.canBoot.trans boots), h.resetHardware.bootCfg] at settled ⊢
    rw [reset_boots boots]
    apply (h.resetHardware.boot files _).2.2
    rcases settled with booted | same
    · refine Or.inl ?_
      rw [booted_boot] at booted
      rw [boot_succeeded booted]
    · exact Or.inr same
  · rw [reset_rests (h.canBoot ▸ boots)] at settled ⊢
    rw [reset_rests boots]
    rcases settled with booted | same
    · cases booted
    · exact same

theorem reset_enabled (files : Files) (e : Emulator) :
    (e.reset files).machine.enabled = e.machine.enabled := by
  simp only [reset]
  split
  · exact boot_enabled files _ _
  · rfl

end Reset

section Run

variable {e f : Emulator}

namespace Alike

theorem machine (h : Alike e f) : e.machine.Alike f.machine := ⟨h.sys, h.enabled, h.cache⟩

theorem withMachine (h : Alike e f) {m n : Machine} (k : m.Alike n) :
    Alike { e with machine := m } { f with machine := n } :=
  ⟨⟨k.sys, k.cache, h.scheduler, h.deviceDebt, h.stopRequested, h.cyclesExecuted, h.booted,
    h.bootCfg⟩, k.enabled, h.timing⟩

theorem onSys (h : Alike e f) (g : Sys → Sys) : Alike (e.onSys g) (f.onSys g) :=
  h.withMachine (h.machine.perform g)

theorem resetHardware (h : Alike e f) : Alike e.resetHardware f.resetHardware :=
  ⟨h.media.resetHardware, h.enabled, h.timing⟩

theorem boot (h : Alike e f) (files : Files) (cfg : BootConfig) :
    (e.boot files cfg).1 = (f.boot files cfg).1 ∧
      Alike (e.boot files cfg).2 (f.boot files cfg).2 := by
  obtain ⟨reply, state, timing⟩ := h.toSameState.boot files cfg
  refine ⟨reply, state, ?_, timing (Or.inr h.timing)⟩
  rw [boot_enabled, boot_enabled]
  exact h.enabled

theorem reset (h : Alike e f) (files : Files) : Alike (e.reset files) (f.reset files) := by
  refine ⟨h.media.reset files, ?_, h.media.reset_timing files (Or.inr h.timing)⟩
  rw [reset_enabled, reset_enabled]
  exact h.enabled

theorem rejectRom (h : Alike e f) : Alike e.rejectRom f.rejectRom :=
  ⟨⟨h.sys, h.cache, h.scheduler, h.deviceDebt, h.stopRequested, h.cyclesExecuted, h.booted,
    h.bootCfg⟩, h.enabled, h.timing⟩

theorem acceptRom (h : Alike e f) (s : Sys) (path : String) :
    Alike (e.acceptRom s path) (f.acceptRom s path) :=
  ⟨⟨rfl, h.cache, h.scheduler, h.deviceDebt, h.stopRequested, h.cyclesExecuted, h.booted,
    h.bootCfg⟩, h.enabled, h.timing⟩

theorem loadRom (h : Alike e f) (files : Files) (path : String) :
    (e.loadRom files path).1 = (f.loadRom files path).1 ∧
      Alike (e.loadRom files path).2 (f.loadRom files path).2 := by
  have fresh := h.resetHardware
  simp only [Emulator.loadRom, fresh.sys, fresh.bootCfg]
  cases Bus.loadCartridgeFile files f.resetHardware.sys path with
  | none => exact ⟨rfl, fresh.rejectRom⟩
  | some s => exact (fresh.acceptRom s path).boot files _

theorem loadRomBytes (h : Alike e f) (files : Files) (data : List U8) (cfg : BootConfig) :
    (e.loadRomBytes files data cfg).1 = (f.loadRomBytes files data cfg).1 ∧
      Alike (e.loadRomBytes files data cfg).2 (f.loadRomBytes files data cfg).2 := by
  have fresh := h.resetHardware
  simp only [Emulator.loadRomBytes, fresh.sys, fresh.bootCfg]
  cases Bus.loadCartridge f.resetHardware.sys data with
  | none => exact ⟨rfl, fresh.rejectRom⟩
  | some s => exact (fresh.acceptRom s "").boot files _

theorem stepCpu (fp : HostFpu) (limit : Cycles) {m n : Machine} (h : m.Alike n) :
    (Emulator.stepCpu fp limit m).1 = (Emulator.stepCpu fp limit n).1 ∧
      (Emulator.stepCpu fp limit m).2.Alike (Emulator.stepCpu fp limit n).2 := by
  have ran := h.run fp limit.toNat
  unfold Emulator.stepCpu
  generalize Cpu.run fp limit.toNat m = a at ran ⊢
  generalize Cpu.run fp limit.toNat n = b at ran ⊢
  obtain ⟨did, m'⟩ := a
  obtain ⟨did', n'⟩ := b
  obtain ⟨counted, alike⟩ := ran
  obtain rfl : did = did' := counted
  by_cases halted : did = 0
  · simp only [if_pos halted]
    exact ⟨trivial, Machine.Alike.perform alike _⟩
  · simp only [if_neg halted]
    exact ⟨trivial, alike⟩

theorem stepCpuRsp (h : Alike e f) (fp : HostFpu) (limit : Cycles) :
    (e.stepCpuRsp fp limit).1 = (f.stepCpuRsp fp limit).1 ∧
      Alike (e.stepCpuRsp fp limit).2 (f.stepCpuRsp fp limit).2 := by
  have ran := stepCpu fp limit h.machine
  unfold Emulator.stepCpuRsp
  generalize Emulator.stepCpu fp limit e.machine = a at ran ⊢
  generalize Emulator.stepCpu fp limit f.machine = b at ran ⊢
  obtain ⟨steps, m⟩ := a
  obtain ⟨steps', n⟩ := b
  obtain ⟨counted, alike⟩ := ran
  obtain rfl : steps = steps' := counted
  by_cases nothing : limit = 0
  · rw [if_pos nothing, if_pos nothing]
    exact ⟨rfl, h⟩
  · rw [if_neg nothing, if_neg nothing]
    refine ⟨rfl, ?_⟩
    have after : Machine.Alike
        (if m.sys.rsp.halted then m else m.perform (Rsp.run
          ((steps * e.timing.rspStepsPerCpu.setWidth 64).setWidth 32 : U32).toNat))
        (if n.sys.rsp.halted then n else n.perform (Rsp.run
          ((steps * f.timing.rspStepsPerCpu.setWidth 64).setWidth 32 : U32).toNat)) := by
      have system : m.sys = n.sys := alike.sys
      rw [system, h.timing]
      by_cases halted : n.sys.rsp.halted = true
      · rw [if_pos halted, if_pos halted]
        exact alike
      · rw [if_neg halted, if_neg halted]
        exact Machine.Alike.perform alike _
    exact ⟨⟨after.sys, after.cache, h.scheduler, congrArg (· + steps) h.deviceDebt,
      h.stopRequested, congrArg (· + steps) h.cyclesExecuted, h.booted, h.bootCfg⟩, after.enabled,
      h.timing⟩

theorem flushDevices (h : Alike e f) : Alike e.flushDevices f.flushDevices := by
  unfold Emulator.flushDevices
  rw [← h.deviceDebt]
  by_cases nothing : e.deviceDebt = 0
  · rw [if_pos nothing, if_pos nothing]
    exact h
  · rw [if_neg nothing, if_neg nothing]
    have ticked := h.machine.perform (tickDevices e.deviceDebt)
    refine ⟨⟨ticked.sys, ticked.cache, ?_, rfl, h.stopRequested, h.cyclesExecuted, h.booted,
      h.bootCfg⟩, ticked.enabled, h.timing⟩
    exact congrArg (fun q : Scheduler => (q.advance e.deviceDebt).dispatchDue.2) h.scheduler

theorem pushRsp (h : Alike e f) : Alike e.pushRsp f.pushRsp := by
  unfold Emulator.pushRsp
  rw [h.sys]
  by_cases publish : !f.sys.rsp.halted || f.sys.rsp.broke
  · rw [if_pos publish, if_pos publish]
    exact h.onSys _
  · rw [if_neg publish, if_neg publish]
    exact h

theorem cyclesPass (fp : HostFpu) (left : Cycles) (h : Alike e f) :
    (Emulator.cyclesPass fp (left, e)).1 = (Emulator.cyclesPass fp (left, f)).1 ∧
      Alike (Emulator.cyclesPass fp (left, e)).2 (Emulator.cyclesPass fp (left, f)).2 := by
  have stepped := h.stepCpuRsp fp (minCycles left kDeviceBatch)
  unfold Emulator.cyclesPass
  generalize e.stepCpuRsp fp (minCycles left kDeviceBatch) = a at stepped ⊢
  generalize f.stepCpuRsp fp (minCycles left kDeviceBatch) = b at stepped ⊢
  obtain ⟨did, e'⟩ := a
  obtain ⟨did', f'⟩ := b
  obtain ⟨counted, alike⟩ := stepped
  obtain rfl : did = did' := counted
  refine ⟨rfl, ?_⟩
  have debt : e'.deviceDebt = f'.deviceDebt := alike.deviceDebt
  by_cases due : kDeviceBatch ≤ f'.deviceDebt
  · simp only [debt, if_pos due]
    exact Alike.flushDevices alike
  · simp only [debt, if_neg due]
    exact alike

theorem runCycles (h : Alike e f) (fp : HostFpu) (cycles : Cycles) :
    Alike (e.runCycles fp cycles) (f.runCycles fp cycles) := by
  unfold Emulator.runCycles
  rw [h.stopRequested]
  by_cases idle : cycles = 0 ∨ f.stopRequested = true
  · rw [if_pos idle, if_pos idle]
    exact h
  · rw [if_neg idle, if_neg idle]
    apply pushRsp
    apply flushDevices
    apply And.right (a := _ = _)
    refine whileDo_sim (fun a b : Cycles × Emulator => a.1 = b.1 ∧ Alike a.2 b.2) ?_ ?_
      cycles.toNat ⟨rfl, h⟩
    · intro a b k
      simp only [k.1, k.2.stopRequested]
    · rintro ⟨left, e'⟩ ⟨left', f'⟩ _ ⟨same, alike⟩
      obtain rfl : left = left' := same
      exact cyclesPass fp left alike

theorem clearFrameReady (h : Alike e f) : Alike e.clearFrameReady f.clearFrameReady := by
  have cleared : e.clearFrameReady.sys = f.clearFrameReady.sys :=
    congrArg (fun s : Sys => { s with vi.frameReady := false }) h.sys
  exact ⟨⟨cleared, h.cache, h.scheduler, h.deviceDebt, h.stopRequested, h.cyclesExecuted, h.booted,
    h.bootCfg⟩, h.enabled, h.timing⟩

/-- Two states of the loop of `run_frame` with alike emulators. -/
structure Frames (a b : FramePass) : Prop where
  ran : a.ran = b.ran
  viFrame : a.viFrame = b.viFrame
  emulator : Alike a.emulator b.emulator

theorem framePass (fp : HostFpu) (limit before : U64) {a b : FramePass} (h : Frames a b) :
    Frames (Emulator.framePass fp limit before a) (Emulator.framePass fp limit before b) := by
  have stepped := h.emulator.stepCpuRsp fp (minCycles kDeviceBatch (limit - a.ran))
  have flushed := stepped.2.flushDevices
  simp only [Emulator.framePass, ← h.ran]
  refine ⟨congrArg (a.ran + ·) stepped.1, ?_, flushed⟩
  simp only [flushed.timing, flushed.sys]

theorem runFrame (h : Alike e f) (fp : HostFpu) :
    (e.runFrame fp).1 = (f.runFrame fp).1 ∧ Alike (e.runFrame fp).2 (f.runFrame fp).2 := by
  unfold Emulator.runFrame
  rw [h.stopRequested]
  by_cases stopped : f.stopRequested = true
  · rw [if_pos stopped, if_pos stopped]
    exact ⟨rfl, h⟩
  · rw [if_neg stopped, if_neg stopped, h.timing, h.sys]
    have started : Frames { emulator := e.clearFrameReady } { emulator := f.clearFrameReady } :=
      ⟨rfl, rfl, h.clearFrameReady⟩
    have looped : Frames
        (whileDo (frameGoing (frameLimit f.timing))
          (Emulator.framePass fp (frameLimit f.timing) f.sys.vi.frameCount)
          (frameLimit f.timing).toNat { emulator := e.clearFrameReady })
        (whileDo (frameGoing (frameLimit f.timing))
          (Emulator.framePass fp (frameLimit f.timing) f.sys.vi.frameCount)
          (frameLimit f.timing).toNat { emulator := f.clearFrameReady }) := by
      refine whileDo_sim Frames ?_ ?_ _ started
      · intro a b k
        simp only [frameGoing, k.ran, k.viFrame, k.emulator.stopRequested]
      · intro a b _ k
        exact framePass fp _ _ k
    have pushed := looped.emulator.pushRsp
    exact ⟨by simp only [looped.ran, looped.viFrame, pushed.sys, pushed.stopRequested], pushed⟩

theorem runLoop (fp : HostFpu) (maxCycles : Cycles) (fuel : ℕ) (h : Alike e f) :
    Alike (Emulator.runLoop fp maxCycles fuel e) (Emulator.runLoop fp maxCycles fuel f) := by
  induction fuel generalizing e f with
  | zero => exact h
  | succ fuel ih =>
    have framed := h.runFrame fp
    have chunk : e.runChunk maxCycles = f.runChunk maxCycles := by
      simp only [runChunk, h.cyclesExecuted, h.timing]
    have chunked := h.runCycles fp (f.runChunk maxCycles)
    simp only [Emulator.runLoop, h.stopRequested, h.cyclesExecuted, framed.1, chunk,
      chunked.cyclesExecuted]
    split_ifs
    · exact h
    · exact h
    · exact framed.2
    · exact ih framed.2
    · exact chunked
    · exact ih chunked

/-- Every call of the host gets the same reply and keeps two emulators alike. -/
theorem perform (fp : HostFpu) (a : Act) (h : Alike e f) :
    (Emulator.perform fp a e).1 = (Emulator.perform fp a f).1 ∧
      Alike (Emulator.perform fp a e).2 (Emulator.perform fp a f).2 := by
  cases a with
  | loadRom files path =>
    obtain ⟨reply, alike⟩ := h.loadRom files path
    exact ⟨congrArg Reply.ok reply, alike⟩
  | loadRomBytes files data cfg =>
    obtain ⟨reply, alike⟩ := h.loadRomBytes files data cfg
    exact ⟨congrArg Reply.ok reply, alike⟩
  | reset files => exact ⟨rfl, h.reset files⟩
  | boot files cfg =>
    obtain ⟨reply, alike⟩ := h.boot files cfg
    exact ⟨congrArg Reply.ok reply, alike⟩
  | runCycles cycles => exact ⟨rfl, h.runCycles fp cycles⟩
  | runFrame =>
    obtain ⟨reply, alike⟩ := h.runFrame fp
    exact ⟨congrArg Reply.frame reply, alike⟩
  | run fuel maxCycles =>
    refine ⟨rfl, runLoop fp maxCycles fuel ?_⟩
    exact ⟨⟨h.sys, h.cache, h.scheduler, h.deviceDebt, rfl, h.cyclesExecuted, h.booted, h.bootCfg⟩,
      h.enabled, h.timing⟩
  | component g => exact ⟨rfl, h.onSys g⟩
  | schedule g =>
    exact ⟨rfl, ⟨h.sys, h.cache, congrArg g h.scheduler, h.deviceDebt, h.stopRequested,
      h.cyclesExecuted, h.booted, h.bootCfg⟩, h.enabled, h.timing⟩
  | requestStop =>
    exact ⟨rfl, ⟨h.sys, h.cache, h.scheduler, h.deviceDebt, rfl, h.cyclesExecuted, h.booted,
      h.bootCfg⟩, h.enabled, h.timing⟩
  | clearFrameReady => exact ⟨rfl, h.clearFrameReady⟩
  | setTiming t =>
    exact ⟨rfl, ⟨h.sys, h.cache, h.scheduler, h.deviceDebt, h.stopRequested, h.cyclesExecuted,
      h.booted, h.bootCfg⟩, h.enabled, rfl⟩
  | setBootConfig cfg =>
    exact ⟨rfl, ⟨h.sys, h.cache, h.scheduler, h.deviceDebt, h.stopRequested, h.cyclesExecuted,
      h.booted, rfl⟩, h.enabled, h.timing⟩
  | setBlockCacheEnabled enabled =>
    exact ⟨rfl, ⟨h.sys, h.cache, h.scheduler, h.deviceDebt, h.stopRequested, h.cyclesExecuted,
      h.booted, h.bootCfg⟩, rfl, h.timing⟩

theorem run (fp : HostFpu) (acts : List Act) (h : Alike e f) :
    Runs.trace (step fp) (replies fp) acts e = Runs.trace (step fp) (replies fp) acts f ∧
      Alike (Runs.run (step fp) acts e) (Runs.run (step fp) acts f) := by
  induction acts generalizing e f with
  | nil => exact ⟨rfl, h⟩
  | cons a as ih =>
    obtain ⟨reply, next⟩ := h.perform fp a
    obtain ⟨later, last⟩ := ih next
    refine ⟨?_, last⟩
    simp only [Runs.trace, replies, reply]
    exact congrArg _ later

end Alike

end Run

end Emulator

end N64
