import N64Emu.DeviceSide
import N64Emu.ElapsedCycles
import N64Emu.FramePeriod
import N64Emu.RdpReach

/-!
# Frames the host is given

`run_frame` runs the machine in short slices and lets the devices catch up
after each. A slice is shorter than a line, so the VI completes one frame in it
at most, and the call ends where it does. Over the calls of a host no frame is
lost and none is reported twice.
-/

set_option autoImplicit false

namespace N64

open Words Loops

namespace Sys

variable (s : Sys)

section Vi

theorem vi_notifyMemoryWrite (p : PhysicalAddress) (n : U32) :
    (s.notifyMemoryWrite p n).vi = s.vi := by
  unfold Sys.notifyMemoryWrite
  split <;> rfl

theorem vi_setRdramByte (addr : U32) (b : U8) : (s.setRdramByte addr b).vi = s.vi := by
  unfold Sys.setRdramByte
  split <;> rfl

theorem vi_cartWriteByte (addr : U32) (b : U8) : (s.cartWriteByte addr b).vi = s.vi := by
  unfold Sys.cartWriteByte
  split <;> rfl

theorem vi_storePifRam (off : ℕ) (b : U8) : (Bus.storePifRam s off b).vi = s.vi := by
  unfold Bus.storePifRam
  split <;> rfl

theorem vi_piWrite (offset value : U32) : (Pi.write s offset value).vi = s.vi := by
  have inward (t : Sys) : (Pi.startDmaToRdram t).vi = t.vi := by
    simp only [Pi.startDmaToRdram]
    exact (vi_notifyMemoryWrite _ _ _).trans
      (upTo_untouched Sys.vi _ _ fun _ _ u => vi_setRdramByte u _ _)
  have outward (t : Sys) : (Pi.startDmaToCart t).vi = t.vi := by
    simp only [Pi.startDmaToCart]
    exact upTo_untouched Sys.vi _ _ fun _ _ u => vi_cartWriteByte u _ _
  unfold Pi.write
  split
  case h_3 => exact inward _
  case h_4 => exact outward _
  case h_5 =>
    simp only [Pi.writeStatus]
    split_ifs <;> rfl
  all_goals rfl

theorem vi_mirrorPif : s.mirrorPif.vi = s.vi := rfl

theorem vi_siFinished (n : U32) :
    (Si.finishDma { s with bus.si.lastDmaBytes := n }).vi = s.vi := rfl

theorem vi_setDmaBusy : (Si.setDmaBusy s).vi = s.vi := rfl

theorem vi_dmaFromPif : (Si.dmaFromPif s).vi = s.vi := by
  have requested (t : Sys) : (Si.runRequested t).vi = t.vi := by
    unfold Si.runRequested
    split <;> rfl
  have copied (dram : U32) (t : Sys) : (upTo (fun i (s : Sys) =>
      s.setRdramByte (dram + BitVec.ofNat 32 i) (s.pif.pifRam i)) kPifRamSize t).vi = t.vi :=
    upTo_untouched Sys.vi _ t fun _ _ u => vi_setRdramByte u _ _
  simp only [Si.dmaFromPif]
  rw [vi_siFinished, vi_mirrorPif, vi_notifyMemoryWrite, copied, requested, vi_setDmaBusy]

theorem vi_dmaToPif : (Si.dmaToPif s).vi = s.vi := by
  have loaded (dram : U32) (t : Sys) : (upTo (fun i (s : Sys) =>
      s.pokePif i (s.bus.rdramByte (dram + BitVec.ofNat 32 i))) kPifRamSize t).vi = t.vi :=
    upTo_untouched Sys.vi _ t fun _ _ _ => rfl
  have answered (t : Sys) :
      (if t.pif.processRequested then t.processJoybus.mirrorPif else t).vi = t.vi := by
    split <;> rfl
  simp only [Si.dmaToPif]
  rw [vi_siFinished, answered, vi_mirrorPif, loaded, vi_setDmaBusy]

theorem vi_siWrite (offset value : U32) : (Si.write s offset value).vi = s.vi := by
  unfold Si.write
  split
  · rfl
  · exact vi_dmaFromPif s
  · exact vi_dmaToPif s
  · rfl
  · rfl

theorem vi_doDma (toSp : Bool) (lenReg : U32) : (SpRegs.doDma s toSp lenReg).vi = s.vi := by
  have byte (imem : Bool) (mem dram : U32) (i : ℕ) (t : Sys) :
      (SpRegs.dmaByte toSp imem mem dram i t).vi = t.vi := by
    simp only [SpRegs.dmaByte, SpRegs.setSpmem, Sys.setRdramByte]
    split_ifs <;> rfl
  have line (imem : Bool) (d : SpRegs.SpDmaLen) (t : SpRegs.DmaState) :
      (SpRegs.dmaLine toSp imem d t).sys.vi = t.sys.vi := by
    simp only [SpRegs.dmaLine]
    split
    · exact (vi_notifyMemoryWrite _ _ _).trans
        (upTo_untouched Sys.vi _ _ fun i _ u => byte imem _ _ i u)
    · exact (vi_notifyMemoryWrite _ _ _).trans
        (upTo_untouched Sys.vi _ _ fun i _ u => byte imem _ _ i u)
  have copied (imem : Bool) (t : Sys) : (SpRegs.copyToRsp t imem).vi = t.vi := by
    unfold SpRegs.copyToRsp
    split <;> rfl
  simp only [SpRegs.doDma]
  refine (copied _ _).trans ?_
  exact upTo_untouched (fun t : SpRegs.DmaState => t.sys.vi) _ _ fun _ _ t => line _ _ t

theorem vi_applyStatusWrite (value : U32) : (SpRegs.applyStatusWrite s value).vi = s.vi := by
  have kept {t : Sys} {value : U32} {mask : U32} {f : Sys → Sys} (h : t.vi = s.vi)
      (f_vi : ∀ u, (f u).vi = u.vi) : (onBit value mask f t).vi = s.vi :=
    onBit_preserves (fun t : Sys => t.vi = s.vi) h fun h => (f_vi _).trans h
  have signal (t : Sys) (h : t.vi = s.vi) (i : ℕ) : (SpRegs.signalStep value i t).vi = s.vi :=
    kept (kept h fun _ => rfl) fun _ => rfl
  refine upTo_preserves (fun t : Sys => t.vi = s.vi) 8 ?_ fun i _ t h => signal t h i
  iterate 9 refine kept ?_ fun _ => rfl
  rfl

theorem vi_spWrite (offset value : U32) : (SpRegs.write s offset value).vi = s.vi := by
  unfold SpRegs.write
  split
  · rfl
  · rfl
  · exact vi_doDma s true value
  · exact vi_doDma s false value
  · exact vi_applyStatusWrite s value
  · rfl
  · rfl

theorem vi_runCommands : (DpRegs.runCommands s).vi = s.vi := by
  have drew {s t : Sys} (h : Rdp.Drew s t) : t.vi = s.vi := by
    rw [h.rest]
  have ended (t : Sys) (d : DpRegisters) (done : U32) :
      (Mi.raise (DpRegs.setStatus (DpRegs.clearStatus { t with bus.dpRegs := d } done)
        DpRegisters.StCbufReady) MiIntr.DP).vi = t.vi := rfl
  unfold DpRegs.runCommands
  refine (ended _ _ _).trans ?_
  refine (drew (Rdp.Drew.runCommandList _ _ _ _)).trans ?_
  rfl

theorem vi_dpWrite (offset value : U32) : (DpRegs.write s offset value).vi = s.vi := by
  have status : (DpRegs.writeStatus s value).vi = s.vi := by
    refine onBit_preserves (fun t : Sys => t.vi = s.vi) ?_ id
    refine onBit_preserves (fun t : Sys => t.vi = s.vi) ?_ id
    refine onBit_preserves (fun t : Sys => t.vi = s.vi) ?_ id
    refine onBit_preserves (fun t : Sys => t.vi = s.vi) ?_ id
    refine onBit_preserves (fun t : Sys => t.vi = s.vi) ?_ id
    exact onBit_preserves (fun t : Sys => t.vi = s.vi) rfl id
  unfold DpRegs.write
  split
  · rfl
  · dsimp only
    split
    · exact vi_runCommands _
    · rfl
  · exact status
  · rfl

theorem vi_aiTick (d : Cycles) : (Ai.tick s d).vi = s.vi := by
  have finished (t : Sys) : (Ai.finishCurrentDma t).vi = t.vi := by
    simp only [Ai.finishCurrentDma]
    split <;> rfl
  simp only [Ai.tick]
  split
  · rfl
  · split
    · exact finished _
    · rfl

end Vi

end Sys

namespace Vi

/-- What only time moves on. -/
structure Clock where
  cycleAccum : Cycles
  cyclesPerLine : Cycles
  frameCount : U64
  frameReady : Bool

def clock (v : VideoInterface) : Clock where
  cycleAccum := v.cycleAccum
  cyclesPerLine := v.cyclesPerLine
  frameCount := v.frameCount
  frameReady := v.frameReady

theorem clock_write (s : Sys) (offset value : U32) :
    clock (Vi.write s offset value).vi = clock s.vi := by
  simp only [Vi.write]
  split_ifs <;> rfl

theorem clock_outside (P : Clock → Prop) : OutsideRsp fun s => P (clock s.vi) where
  cpu := fun _ h => h
  relog := fun _ h => h
  takeSemaphore := fun h => h
  pokeRdram := fun _ _ h => h
  storeDmem := fun _ _ h => h
  storeImem := fun _ _ h => h
  storePifRam := fun off b h => by rwa [Sys.vi_storePifRam]
  spWrite := fun offset value h => by rwa [Sys.vi_spWrite]
  spWritePc := fun offset value h => by
    unfold SpRegs.writePc
    split
    · exact h
    · exact h
  dpWrite := fun offset value h => by rwa [Sys.vi_dpWrite]
  miWrite := fun offset value h => by
    unfold Mi.write
    split <;> exact h
  viWrite := fun offset value h => by rwa [clock_write]
  aiWrite := fun offset value h => by
    unfold Ai.write
    split <;> exact h
  piWrite := fun offset value h => by rwa [Sys.vi_piWrite]
  riWrite := fun _ _ h => h
  siWrite := fun offset value h => by rwa [Sys.vi_siWrite]
  rsp := fun _ h => h
  pokeSpDmem := fun _ _ h => h
  pushMemToBus := fun h => h
  notifyBreak := fun intrOnBreak h => by
    simp only [SpRegs.notifyBreak]
    split
    · exact h
    · exact h

/-- The lines are as long as after a reset, and less than one has passed since the last. -/
def Paced (v : VideoInterface) : Prop :=
  v.cyclesPerLine = kDefaultCyclesPerLine ∧ v.cycleAccum.toNat < kDefaultCyclesPerLine.toNat

theorem Paced.timed {v : VideoInterface} (h : Paced v) : Timed v where
  positive := by
    rw [h.1]
    decide
  below := by
    rw [h.1]
    exact h.2

theorem Paced.tick {s : Sys} (h : Paced s.vi) (d : Cycles) : Paced (Vi.tick s d).vi := by
  have perLine := tick_cyclesPerLine h.timed d
  have below := (tick_timed h.timed d).below
  rw [perLine, h.1] at below
  exact ⟨perLine.trans h.1, below⟩

theorem paced_devices : DevicesInvariant fun s => Paced s.vi where
  toBusInvariant := (clock_outside fun c => c.cyclesPerLine = kDefaultCyclesPerLine ∧
    c.cycleAccum.toNat < kDefaultCyclesPerLine.toNat).toBusInvariant
  rspStep := (clock_outside fun c => c.cyclesPerLine = kDefaultCyclesPerLine ∧
    c.cycleAccum.toNat < kDefaultCyclesPerLine.toNat).rspStep
  tick := fun d h => by
    show Paced (Ai.tick (Vi.tick _ d) d).vi
    rw [Sys.vi_aiTick]
    exact h.tick d
  reset := fun _ => ⟨rfl, (by decide : (0 : Cycles).toNat < kDefaultCyclesPerLine.toNat)⟩
  pushMemToBus := fun h => h
  clearFrameReady := fun h => h
  loadCartridge := fun _ _ h => h
  loadPifRom := fun _ _ h => h
  seedPif := fun _ h => h
  mirrorPif := fun h => h
  resetRsp := fun h => h

/-- How a frame of the VI shows: the count goes up by one and the flag is set. -/
def Completed (v w : VideoInterface) : Prop := w.frameCount = v.frameCount + 1 ∧ w.frameReady = true

def Within (v w : VideoInterface) : Prop :=
  w.frameCount = v.frameCount ∧ w.frameReady = v.frameReady

theorem line_frame (s : Sys) : Within s.vi (line s).vi ∨ Completed s.vi (line s).vi := by
  have same : clock (line s).vi = { clock (advanced s.vi) with cycleAccum := s.vi.cycleAccum } := by
    unfold line
    rw [tickLine_eq]
    split <;> rfl
  have count : (line s).vi.frameCount = (advanced s.vi).frameCount :=
    congrArg Clock.frameCount same
  have ready : (line s).vi.frameReady = (advanced s.vi).frameReady :=
    congrArg Clock.frameReady same
  by_cases wraps : Wraps s.vi
  · exact Or.inr ⟨count.trans (if_pos wraps), ready.trans (if_pos wraps)⟩
  · exact Or.inl ⟨count.trans (if_neg wraps), ready.trans (if_neg wraps)⟩

theorem tick_frame {s : Sys} (paced : Paced s.vi) {d : Cycles} (short : d.toNat ≤ 32) :
    Within s.vi (Vi.tick s d).vi ∨ Completed s.vi (Vi.tick s d).vi := by
  have period : s.vi.cyclesPerLine.toNat = 5963 := by
    rw [paced.1]
    rfl
  have below : s.vi.cycleAccum.toNat < 5963 := paced.2
  have spent : credit s d = s.vi.cycleAccum.toNat + d.toNat := by
    rw [credit, BitVec.toNat_add, Nat.mod_eq_of_lt (by omega)]
  have few : credit s d / s.vi.cyclesPerLine.toNat < 2 := by
    rw [Nat.div_lt_iff_lt_mul (by omega)]
    omega
  rw [tick_eq paced.timed]
  generalize credit s d / s.vi.cyclesPerLine.toNat = k at few
  have one : k = 0 ∨ k = 1 := by omega
  rcases one with rfl | rfl
  · exact Or.inl ⟨rfl, rfl⟩
  · exact line_frame s

end Vi

namespace Emulator

open Vi

section Slice

variable {fp : HostFpu} {e : Emulator}

theorem word_clock (fp : HostFpu) {a : CpuAct} (word : a.isWord = true) (s : Sys) :
    clock (a.performFresh fp s).vi = clock s.vi := by
  have stands := (clock_outside (· = clock s.vi)).toBusInvariant
  have fresh : clock { s with log := [] }.vi = clock s.vi := rfl
  cases a with
  | step => exact stands.cpuStep fresh
  | cached insn => exact stands.blockInsn insn fresh
  | _ => cases word

theorem words_clock (fp : HostFpu) {acts : List CpuAct} (words : ∀ a ∈ acts, a.isWord = true)
    (s : Sys) : clock (Runs.run (CpuAct.performFresh fp) acts s).vi = clock s.vi := by
  induction acts generalizing s with
  | nil => rfl
  | cons a acts ih =>
    rw [Runs.run_cons, ih fun b member => words b (List.mem_cons_of_mem a member)]
    exact word_clock fp (words a List.mem_cons_self) s

theorem stepCpu_clock (fp : HostFpu) (chunk : Cycles) (m : Machine) :
    clock (stepCpu fp chunk m).2.sys.vi = clock m.sys.vi := by
  have performed := Cpu.run_performed fp chunk.toNat m
  have ran : clock (Cpu.run fp chunk.toNat m).2.sys.vi = clock m.sys.vi := by
    rw [performed.sys]
    exact words_clock fp performed.words m.sys
  rw [stepCpu]
  dsimp only
  split
  · exact (word_clock fp (a := .step) rfl _).trans ran
  · exact ran

/-- A slice of the CPU and the RSP takes no time of the VI. -/
theorem stepCpuRsp_clock (fp : HostFpu) (chunk : Cycles) (e : Emulator) :
    clock (e.stepCpuRsp fp chunk).2.sys.vi = clock e.sys.vi := by
  have stepped := stepCpu_clock fp chunk e.machine
  have rsp (n : ℕ) (s : Sys) : clock (Rsp.run n s).vi = clock s.vi :=
    whileDo_preserves (fun t : Sys => clock t.vi = clock s.vi) n rfl
      fun _ _ same => (clock_outside (· = clock s.vi)).rspStep same
  simp only [stepCpuRsp]
  split
  · rfl
  · show clock (if _ then _ else _ : Machine).sys.vi = _
    split
    · exact stepped
    · exact (rsp _ _).trans stepped

theorem stepCpuRsp_timing (fp : HostFpu) (chunk : Cycles) (e : Emulator) :
    (e.stepCpuRsp fp chunk).2.timing = e.timing := by
  simp only [stepCpuRsp]
  split <;> rfl

theorem flushDevices_timing (e : Emulator) : e.flushDevices.timing = e.timing := by
  rw [flushDevices]
  split <;> rfl

theorem flushDevices_vi (owed : e.deviceDebt ≠ 0) :
    e.flushDevices.sys.vi = (Vi.tick { e.sys with log := [] } e.deviceDebt).vi := by
  rw [flushDevices, if_neg owed]
  exact Sys.vi_aiTick _ _

theorem pushRsp_same (e : Emulator) : e.pushRsp.sys.vi = e.sys.vi ∧
    e.pushRsp.stopRequested = e.stopRequested := by
  rw [pushRsp]
  split <;> exact ⟨rfl, rfl⟩

theorem slice_spec (left : Cycles) (nonzero : left ≠ 0) : minCycles kDeviceBatch left ≠ 0 ∧
    (minCycles kDeviceBatch left).toNat ≤ left.toNat ∧
    (minCycles kDeviceBatch left).toNat ≤ 32 := by
  have batch : kDeviceBatch.toNat = 32 := rfl
  rw [minCycles]
  split
  case isTrue less =>
    have smaller : left.toNat < 32 := less
    exact ⟨nonzero, Nat.le_refl _, smaller.le⟩
  case isFalse more =>
    have small : ¬ left.toNat < 32 := more
    exact ⟨by decide, by omega, Nat.le_refl _⟩

/-- A slice of the machine after which the devices have caught up. -/
structure CaughtUp (did : Cycles) (e e' : Emulator) : Prop where
  elapsed : Elapsed did e e'
  settled : e'.deviceDebt = 0
  timing : e'.timing = e.timing
  running : e'.stopRequested = e.stopRequested
  paced : Paced e'.sys.vi
  frame : Within e.sys.vi e'.sys.vi ∨ Completed e.sys.vi e'.sys.vi

theorem slice_frame (fp : HostFpu) {chunk : Cycles} (nonzero : chunk ≠ 0) (small : chunk.toNat ≤ 32)
    (settled : e.deviceDebt = 0) (paced : Paced e.sys.vi) :
    let r := e.stepCpuRsp fp chunk
    0 < r.1.toNat ∧ r.1.toNat ≤ chunk.toNat ∧ CaughtUp r.1 e r.2.flushDevices := by
  have stands := stepCpuRsp_clock fp chunk e
  have timing := stepCpuRsp_timing fp chunk e
  obtain ⟨positive, few, elapsed, debt, stop⟩ := stepCpuRsp_spec fp chunk nonzero e
  generalize e.stepCpuRsp fp chunk = r at *
  obtain ⟨did, e'⟩ := r
  dsimp only at *
  have owed : e'.deviceDebt = did := debt.trans (by rw [settled]; exact BitVec.zero_add did)
  have ticked := flushDevices_vi (by rw [owed]; exact positive : e'.deviceDebt ≠ 0)
  rw [owed] at ticked
  obtain ⟨flushed, empty, kept⟩ := flushDevices_spec e'
  have perLine : e'.sys.vi.cyclesPerLine = e.sys.vi.cyclesPerLine :=
    congrArg Clock.cyclesPerLine stands
  have accum : e'.sys.vi.cycleAccum = e.sys.vi.cycleAccum := congrArg Clock.cycleAccum stands
  have count : e'.sys.vi.frameCount = e.sys.vi.frameCount := congrArg Clock.frameCount stands
  have ready : e'.sys.vi.frameReady = e.sys.vi.frameReady := congrArg Clock.frameReady stands
  have before : Paced { e'.sys with log := [] }.vi :=
    ⟨perLine.trans paced.1, by rw [accum]; exact paced.2⟩
  refine ⟨Nat.pos_of_ne_zero fun zero => positive (BitVec.eq_of_toNat_eq zero), few, ?_⟩
  refine ⟨?_, empty, (flushDevices_timing e').trans timing, kept.trans stop, ?_, ?_⟩
  · rw [← BitVec.add_zero did]
    exact elapsed.trans flushed
  · rw [ticked]
    exact before.tick did
  · rw [ticked]
    unfold Within Completed
    rw [← count, ← ready]
    exact tick_frame before (few.trans small)

end Slice

section Loop

variable {e : Emulator} {t : FramePass}

/-- How far the call has come: the cycles it ran have all reached the devices,
and it goes on until a frame is complete. -/
structure Framing (e : Emulator) (t : FramePass) : Prop where
  elapsed : Elapsed t.ran e t.emulator
  settled : t.emulator.deviceDebt = 0
  timing : t.emulator.timing = e.timing
  running : t.emulator.stopRequested = false
  bounded : t.ran.toNat ≤ (frameLimit e.timing).toNat
  paced : Paced t.emulator.sys.vi
  frame : t.viFrame = false ∧ Within e.sys.vi t.emulator.sys.vi ∨
    t.viFrame = true ∧ Completed e.sys.vi t.emulator.sys.vi

theorem Framing.pass (fp : HostFpu) (h : Framing e t) (sync : e.timing.syncToVi = true)
    (clear : e.sys.vi.frameReady = false) (going : frameGoing (frameLimit e.timing) t = true) :
    let t' := framePass fp (frameLimit e.timing) e.sys.vi.frameCount t
    Framing e t' ∧ t.ran.toNat < t'.ran.toNat := by
  simp only [frameGoing, Bool.and_eq_true, Bool.not_eq_true', decide_eq_true_eq] at going
  obtain ⟨⟨unfinished, -⟩, inside⟩ := going
  have room : t.ran.toNat < (frameLimit e.timing).toNat := inside
  have left : (frameLimit e.timing - t.ran).toNat =
      (frameLimit e.timing).toNat - t.ran.toNat := BitVec.toNat_sub_of_le room.le
  have nonzero : frameLimit e.timing - t.ran ≠ 0 := by
    intro nothing
    rw [nothing] at left
    exact absurd left.symm (Nat.sub_ne_zero_of_lt room)
  have within : Within e.sys.vi t.emulator.sys.vi := by
    rcases h.frame with ⟨-, within⟩ | ⟨finished, -⟩
    · exact within
    · exact absurd finished (by rw [unfinished]; exact Bool.false_ne_true)
  obtain ⟨chunk, most, small⟩ := slice_spec _ nonzero
  obtain ⟨positive, few, sliced⟩ := slice_frame fp chunk small h.settled h.paced
  show Framing e (framePass fp (frameLimit e.timing) e.sys.vi.frameCount t) ∧ _
  unfold framePass
  generalize minCycles kDeviceBatch (frameLimit e.timing - t.ran) = c at *
  generalize t.emulator.stepCpuRsp fp c = r at *
  obtain ⟨did, e'⟩ := r
  dsimp only at *
  generalize e'.flushDevices = e' at *
  have size := (frameLimit e.timing).isLt
  have ran : (t.ran + did).toNat = t.ran.toNat + did.toNat := by
    rw [BitVec.toNat_add, Nat.mod_eq_of_lt (by omega)]
  have bounded : (t.ran + did).toNat ≤ (frameLimit e.timing).toNat := by omega
  have more : t.ran.toNat < (t.ran + did).toNat := by omega
  have timing := sliced.timing.trans h.timing
  refine ⟨⟨h.elapsed.trans sliced.elapsed, sliced.settled, timing,
    sliced.running.trans h.running, bounded, sliced.paced, ?_⟩, more⟩
  show (e'.timing.syncToVi && (e'.sys.vi.frameReady ||
      e.sys.vi.frameCount < e'.sys.vi.frameCount)) = false ∧ _ ∨
    (e'.timing.syncToVi && (e'.sys.vi.frameReady ||
      e.sys.vi.frameCount < e'.sys.vi.frameCount)) = true ∧ _
  rw [timing, sync, Bool.true_and]
  rcases sliced.frame with still | complete
  · have count := still.1.trans within.1
    have ready := still.2.trans within.2
    refine Or.inl ⟨?_, count, ready⟩
    rw [count, ready, clear, Bool.false_or, decide_eq_false_iff_not]
    exact BitVec.lt_irrefl _
  · have count := complete.1.trans (congrArg (· + 1) within.1)
    refine Or.inr ⟨?_, count, complete.2⟩
    rw [complete.2, Bool.true_or]

/-- The loop of `run_frame`. -/
def frameLoop (fp : HostFpu) (e : Emulator) : FramePass :=
  whileDo (frameGoing (frameLimit e.timing))
    (framePass fp (frameLimit e.timing) e.sys.vi.frameCount) (frameLimit e.timing).toNat
    { emulator := e.clearFrameReady }

theorem frameLoop_spec (fp : HostFpu) (sync : e.timing.syncToVi = true)
    (going : e.stopRequested = false) (settled : e.deviceDebt = 0) (paced : Paced e.sys.vi) :
    Framing e.clearFrameReady (frameLoop fp e) ∧
      ((frameLoop fp e).viFrame = false → (frameLoop fp e).ran = frameLimit e.timing) := by
  have start : Framing e.clearFrameReady { emulator := e.clearFrameReady } :=
    ⟨Elapsed.refl _, settled, rfl, going, Nat.zero_le _, paced, Or.inl ⟨rfl, rfl, rfl⟩⟩
  have step (t : FramePass) (more : frameGoing (frameLimit e.timing) t = true)
      (h : Framing e.clearFrameReady t) := h.pass fp sync rfl more
  have reached : Framing e.clearFrameReady (frameLoop fp e) :=
    whileDo_preserves (Framing e.clearFrameReady) _ start fun t more h => (step t more h).1
  have ended : frameGoing (frameLimit e.timing) (frameLoop fp e) = false :=
    whileDo_ends (Framing e.clearFrameReady)
      (fun t => (frameLimit e.timing).toNat - t.ran.toNat) (fun t more h => (step t more h).1)
      (fun t more h => by
        obtain ⟨after, less⟩ := step t more h
        have inside : _ ≤ (frameLimit e.timing).toNat := after.bounded
        exact Nat.sub_lt_sub_left (Nat.lt_of_lt_of_le less inside) less)
      _ start (Nat.sub_le _ _)
  refine ⟨reached, fun nothing => ?_⟩
  simp only [frameGoing, nothing, reached.running, Bool.not_false, Bool.true_and,
    decide_eq_false_iff_not] at ended
  have all : ¬ (frameLoop fp e).ran.toNat < (frameLimit e.timing).toNat := ended
  have inside : (frameLoop fp e).ran.toNat ≤ (frameLimit e.timing).toNat := reached.bounded
  exact BitVec.eq_of_toNat_eq (by omega)

theorem runFrame_eq (fp : HostFpu) (going : e.stopRequested = false) :
    e.runFrame fp =
      ({ cyclesRan := (frameLoop fp e).ran
         viFrame := (frameLoop fp e).viFrame || frameBudget e.timing ≤ (frameLoop fp e).ran
         viFrameIndex := (frameLoop fp e).emulator.pushRsp.sys.vi.frameCount
         hitLimit := !(frameLoop fp e).viFrame && frameLimit e.timing ≤ (frameLoop fp e).ran
         stopped := (frameLoop fp e).emulator.pushRsp.stopRequested },
        (frameLoop fp e).emulator.pushRsp) := by
  rw [runFrame, if_neg (by rw [going]; exact Bool.false_ne_true)]
  rfl

end Loop

/-- What a call of `run_frame` reports, and how it leaves the machine. -/
structure Reported (e : Emulator) (r : FrameResult) (e' : Emulator) : Prop where
  elapsed : Elapsed r.cyclesRan e e'
  bounded : r.cyclesRan.toNat ≤ (frameLimit e.timing).toNat
  index : r.viFrameIndex = e'.sys.vi.frameCount
  complete : r.hitLimit = false → r.viFrame = true ∧ Completed e.sys.vi e'.sys.vi
  cut : r.hitLimit = true → r.cyclesRan = frameLimit e.timing ∧
    (r.viFrame = true ↔ frameBudget e.timing ≤ frameLimit e.timing) ∧
    e'.sys.vi.frameCount = e.sys.vi.frameCount ∧ e'.sys.vi.frameReady = false

section Call

variable {fp : HostFpu} {e : Emulator}

theorem runFrame_reported (fp : HostFpu) (sync : e.timing.syncToVi = true)
    (going : e.stopRequested = false) (settled : e.deviceDebt = 0) (paced : Paced e.sys.vi) :
    Reported e (e.runFrame fp).1 (e.runFrame fp).2 := by
  obtain ⟨framed, cut⟩ := frameLoop_spec fp sync going settled paced
  rw [runFrame_eq fp going]
  generalize frameLoop fp e = t at *
  obtain ⟨vi, -⟩ := pushRsp_same t.emulator
  have spent : Elapsed t.ran e t.emulator.pushRsp := by
    rw [← BitVec.add_zero t.ran]
    exact Elapsed.trans ⟨framed.elapsed.executed, framed.elapsed.cpu, framed.elapsed.time⟩
      (pushRsp_spec t.emulator).1
  refine ⟨spent, framed.bounded, rfl, fun short => ?_, fun long => ?_⟩
  · rw [vi]
    rcases framed.frame with ⟨nothing, -⟩ | ⟨finished, complete⟩
    · have all := cut nothing
      simp only [nothing, all, Bool.not_false, Bool.true_and, decide_eq_false_iff_not] at short
      exact absurd (BitVec.le_refl _) short
    · exact ⟨by simp only [finished, Bool.true_or], complete⟩
  · rw [vi]
    rcases framed.frame with ⟨nothing, within⟩ | ⟨finished, -⟩
    · have all := cut nothing
      refine ⟨all, ?_, within.1, within.2⟩
      simp only [nothing, all, Bool.false_or, decide_eq_true_eq]
    · simp only [finished, Bool.not_true, Bool.false_and, Bool.false_eq_true] at long

end Call

namespace Reply

def frames : Reply → ℕ
  | .frame r => if r.viFrame && !r.hitLimit then 1 else 0
  | _ => 0

def cycles : Reply → ℕ
  | .frame r => r.cyclesRan.toNat
  | _ => 0

end Reply

/-- The calls of a host that shows a running machine frame by frame. -/
def Act.Shows : Act → Prop
  | .component f => ∃ a : DeviceAct, f = a.perform
  | .setTiming t => t.syncToVi = true
  | .runFrame | .schedule _ | .requestStop | .clearFrameReady | .setBootConfig _
  | .setBlockCacheEnabled _ => True
  | _ => False

section Calls

variable {fp : HostFpu} {e : Emulator}

/-- What the calls rely on. -/
structure Synced (e : Emulator) : Prop where
  sync : e.timing.syncToVi = true
  settled : e.deviceDebt = 0
  paced : Paced e.sys.vi

/-- The counters after the calls, told by what they replied. -/
structure Counted (e : Emulator) (out : List Reply) (e' : Emulator) : Prop where
  frames : e'.sys.vi.frameCount =
    e.sys.vi.frameCount + BitVec.ofNat 64 (out.map Reply.frames).sum
  cycles : e'.cyclesExecuted = e.cyclesExecuted + BitVec.ofNat 64 (out.map Reply.cycles).sum

theorem Counted.add {e' e'' : Emulator} {out : List Reply} (h : Counted e out e') (r : Reply)
    (frames : e''.sys.vi.frameCount = e'.sys.vi.frameCount + BitVec.ofNat 64 r.frames)
    (cycles : e''.cyclesExecuted = e'.cyclesExecuted + BitVec.ofNat 64 r.cycles) :
    Counted e (out ++ [r]) e'' where
  frames := by
    rw [frames, h.frames, List.map_append, List.sum_append, BitVec.ofNat_add, BitVec.add_assoc]
    rfl
  cycles := by
    rw [cycles, h.cycles, List.map_append, List.sum_append, BitVec.ofNat_add, BitVec.add_assoc]
    rfl

theorem Act.Shows.onBus {a : Act} (shows : a.Shows) : a.OnBus := by
  cases a with
  | component f => exact shows
  | _ => trivial

theorem Synced.runFrame (h : Synced e) (going : e.stopRequested = false) :
    (e.runFrame fp).2.timing = e.timing := by
  obtain ⟨framed, -⟩ := frameLoop_spec fp h.sync going h.settled h.paced
  rw [runFrame_eq fp going]
  refine Eq.trans ?_ framed.timing
  show (frameLoop fp e).emulator.pushRsp.timing = _
  rw [pushRsp]
  split <;> rfl

theorem runFrame_stopped (fp : HostFpu) (stopped : e.stopRequested = true) :
    e.runFrame fp = ({ stopped := true }, e) := if_pos stopped

theorem Synced.step {a : Act} (h : Synced e) (shows : a.Shows) : Synced (step fp a e) where
  sync := by
    cases a with
    | runFrame =>
      cases going : e.stopRequested with
      | true =>
        show (e.runFrame fp).2.timing.syncToVi = true
        rw [runFrame_stopped fp going]
        exact h.sync
      | false =>
        show (e.runFrame fp).2.timing.syncToVi = true
        rw [h.runFrame going]
        exact h.sync
    | setTiming t => exact shows
    | component f => exact h.sync
    | schedule f => exact h.sync
    | requestStop => exact h.sync
    | clearFrameReady => exact h.sync
    | setBootConfig cfg => exact h.sync
    | setBlockCacheEnabled enabled => exact h.sync
    | _ => exact shows.elim
  settled := step_settled a h.settled
  paced := (paced_devices.runInvariant fp).step a shows.onBus h.paced

theorem Reported.counted {r : FrameResult} {e' : Emulator} (h : Reported e r e') :
    Counted e [.frame r] e' where
  frames := by
    rw [List.map_singleton, List.sum_singleton, Reply.frames]
    cases limit : r.hitLimit with
    | true =>
      rw [Bool.not_true, Bool.and_false, if_neg Bool.false_ne_true]
      exact (h.cut limit).2.2.1.trans (BitVec.add_zero _).symm
    | false =>
      obtain ⟨shown, complete⟩ := h.complete limit
      rw [shown, Bool.not_false, Bool.and_self, if_pos rfl]
      exact complete.1
  cycles := by
    rw [List.map_singleton, List.sum_singleton, Reply.cycles, BitVec.ofNat_toNat,
      BitVec.setWidth_eq]
    exact h.elapsed.executed

theorem Synced.counted (h : Synced e) :
    Counted e [.frame (e.runFrame fp).1] (e.runFrame fp).2 := by
  cases going : e.stopRequested with
  | true =>
    rw [runFrame_stopped fp going]
    exact ⟨(BitVec.add_zero _).symm, (BitVec.add_zero _).symm⟩
  | false => exact (runFrame_reported fp h.sync going h.settled h.paced).counted

theorem Counted.step {e' : Emulator} {out : List Reply} {a : Act} (h : Counted e out e')
    (synced : Synced e') (shows : a.Shows) :
    Counted e (out ++ replies fp a e') (Emulator.step fp a e') := by
  have idle {e'' : Emulator} (frames : e''.sys.vi.frameCount = e'.sys.vi.frameCount)
      (cycles : e''.cyclesExecuted = e'.cyclesExecuted) : Counted e (out ++ [.none]) e'' :=
    h.add .none (frames.trans (BitVec.add_zero _).symm) (cycles.trans (BitVec.add_zero _).symm)
  cases a with
  | runFrame =>
    have called : Counted e' [.frame (e'.runFrame fp).1] (e'.runFrame fp).2 := synced.counted
    have frames := called.frames
    have cycles := called.cycles
    rw [List.map_singleton, List.sum_singleton] at frames cycles
    exact h.add (.frame (e'.runFrame fp).1) frames cycles
  | component f =>
    obtain ⟨act, rfl⟩ := shows
    have stands : clock (e'.onSys act.perform).sys.vi = clock e'.sys.vi :=
      (clock_outside (· = clock e'.sys.vi)).toBusInvariant.perform
        (clock_outside (· = clock e'.sys.vi)).rspStep act rfl
    exact idle (congrArg Clock.frameCount stands) rfl
  | setTiming t => exact idle rfl rfl
  | schedule f => exact idle rfl rfl
  | requestStop => exact idle rfl rfl
  | clearFrameReady => exact idle rfl rfl
  | setBootConfig cfg => exact idle rfl rfl
  | setBlockCacheEnabled enabled => exact idle rfl rfl
  | _ => exact shows.elim

theorem Counted.run (fp : HostFpu) {acts : List Act} (shows : ∀ a ∈ acts, a.Shows)
    (synced : Synced e) :
    Counted e (Runs.trace (Emulator.step fp) (replies fp) acts e)
      (Runs.run (Emulator.step fp) acts e) := by
  have start : Counted e [] e ∧ Synced e :=
    ⟨⟨(BitVec.add_zero _).symm, (BitVec.add_zero _).symm⟩, synced⟩
  exact (Runs.trace_emits (P := fun out e' => Counted e out e' ∧ Synced e')
    (fun a member out e' h =>
      ⟨h.1.step h.2 (shows a member), h.2.step (shows a member)⟩) start).1

end Calls

section Run

variable {fp : HostFpu} {e : Emulator}

end Run

end Emulator

end N64
