import N64Emu.DeviceInvariant

/-!
# Devices beside another CPU

A device reaches the CPU through its interrupt line only. So a change of the
CPU that leaves the line alone can come before or after what a device does.
-/

set_option autoImplicit false

namespace N64

open Words Loops

/-- A change of the CPU that lets its interrupt line through. -/
structure CpuChange where
  apply : Cpu → Cpu
  line : ∀ (c : Cpu) (level : Bool),
    apply (c.setRcpInterrupt level) = (apply c).setRcpInterrupt level

namespace Sys

/-- The same devices beside the changed CPU. -/
def beside (s : Sys) (g : CpuChange) : Sys := { s with cpu := g.apply s.cpu }

end Sys

section Fields

variable (g : CpuChange) (s : Sys)

@[simp] theorem beside_cpu : (s.beside g).cpu = g.apply s.cpu := rfl
@[simp] theorem beside_bus : (s.beside g).bus = s.bus := rfl
@[simp] theorem beside_vi : (s.beside g).vi = s.vi := rfl
@[simp] theorem beside_ai : (s.beside g).ai = s.ai := rfl
@[simp] theorem beside_pif : (s.beside g).pif = s.pif := rfl
@[simp] theorem beside_rsp : (s.beside g).rsp = s.rsp := rfl
@[simp] theorem beside_rdp : (s.beside g).rdp = s.rdp := rfl
@[simp] theorem beside_log : (s.beside g).log = s.log := rfl

@[simp]
theorem mk_beside (c : Cpu) (b : Bus) (v : VideoInterface) (a : AudioInterface) (p : Pif)
    (rs : Rsp) (rd : Rdp) (l : List Event) :
    Sys.mk (g.apply c) b v a p rs rd l = (Sys.mk c b v a p rs rd l).beside g := rfl

theorem beside_ite (p : Prop) [Decidable p] (s t : Sys) :
    (if p then s else t).beside g = if p then s.beside g else t.beside g :=
  apply_ite (Sys.beside · g) p s t

theorem upTo_beside {body : ℕ → Sys → Sys}
    (each : ∀ i t, body i (t.beside g) = (body i t).beside g) (n : ℕ) (s : Sys) :
    upTo body n (s.beside g) = (upTo body n s).beside g := by
  induction n with
  | zero => rfl
  | succ n ih => rw [upTo_succ, upTo_succ, ih, each]

theorem onBit_beside {f : Sys → Sys} (each : ∀ t, f (t.beside g) = (f t).beside g)
    (value mask : U32) : onBit value mask f (s.beside g) = (onBit value mask f s).beside g := by
  unfold onBit
  split
  · exact each s
  · rfl

end Fields

section Memory

variable (g : CpuChange) (s : Sys)

@[simp]
theorem notifyMemoryWrite_beside (p : PhysicalAddress) (n : U32) :
    (s.beside g).notifyMemoryWrite p n = (s.notifyMemoryWrite p n).beside g := by
  unfold Sys.notifyMemoryWrite
  split <;> rfl

@[simp] theorem pokeRdram_beside (off : ℕ) (b : U8) :
    (s.beside g).pokeRdram off b = (s.pokeRdram off b).beside g := rfl

@[simp] theorem pokeCart_beside (off : ℕ) (b : U8) :
    (s.beside g).pokeCart off b = (s.pokeCart off b).beside g := rfl

@[simp] theorem pokePif_beside (off : ℕ) (b : U8) :
    (s.beside g).pokePif off b = (s.pokePif off b).beside g := rfl

@[simp] theorem pokeBusPif_beside (off : ℕ) (b : U8) :
    (s.beside g).pokeBusPif off b = (s.pokeBusPif off b).beside g := rfl

@[simp] theorem pokeSpDmem_beside (off : ℕ) (b : U8) :
    (s.beside g).pokeSpDmem off b = (s.pokeSpDmem off b).beside g := rfl

@[simp] theorem pokeSpImem_beside (off : ℕ) (b : U8) :
    (s.beside g).pokeSpImem off b = (s.pokeSpImem off b).beside g := rfl

@[simp] theorem pokeRspDmem_beside (off : ℕ) (b : U8) :
    (s.beside g).pokeRspDmem off b = (s.pokeRspDmem off b).beside g := rfl

@[simp] theorem pokeRspImem_beside (off : ℕ) (b : U8) :
    (s.beside g).pokeRspImem off b = (s.pokeRspImem off b).beside g := rfl

@[simp]
theorem setRdramByte_beside (addr : U32) (b : U8) :
    (s.beside g).setRdramByte addr b = (s.setRdramByte addr b).beside g := by
  simp only [Sys.setRdramByte, beside_ite]
  rfl

@[simp]
theorem cartWriteByte_beside (addr : U32) (b : U8) :
    (s.beside g).cartWriteByte addr b = (s.cartWriteByte addr b).beside g := by
  simp only [Sys.cartWriteByte, beside_ite]
  rfl

theorem storeBytes_beside {poke : Sys → ℕ → U8 → Sys}
    (each : ∀ t off b, poke (t.beside g) off b = (poke t off b).beside g) (off : ℕ)
    (bs : List U8) :
    Sys.storeBytes poke (s.beside g) off bs = (Sys.storeBytes poke s off bs).beside g := by
  induction bs generalizing s off with
  | nil => rfl
  | cons b bs ih =>
    rw [Sys.storeBytes, each]
    exact ih _ _

end Memory

section Interrupt

variable (g : CpuChange) (s : Sys)

@[simp]
theorem notify_beside : Mi.notify (s.beside g) = (Mi.notify s).beside g := by
  simp only [Mi.notify, Sys.beside, g.line]

@[simp]
theorem raise_beside (bit : U32) : Mi.raise (s.beside g) bit = (Mi.raise s bit).beside g := by
  simp [Mi.raise]

@[simp]
theorem clear_beside (bit : U32) : Mi.clear (s.beside g) bit = (Mi.clear s bit).beside g := by
  simp [Mi.clear]

@[simp]
theorem miWrite_beside (offset value : U32) :
    Mi.write (s.beside g) offset value = (Mi.write s offset value).beside g := by
  unfold Mi.write
  split
  · rfl
  · exact notify_beside g { s with bus.mi.intrMask := _ }
  · rfl

end Interrupt

section Peripherals

variable (g : CpuChange) (s : Sys)

@[simp]
theorem piFinishDma_beside : Pi.finishDma (s.beside g) = (Pi.finishDma s).beside g := by
  simp [Pi.finishDma]

theorem piAdvance_beside (dram cart length : U32) :
    Pi.advance (s.beside g) dram cart length = (Pi.advance s dram cart length).beside g := by
  simp [Pi.advance]

theorem startDmaToRdram_beside :
    Pi.startDmaToRdram (s.beside g) = (Pi.startDmaToRdram s).beside g := by
  have busy : Pi.setDmaBusy (s.beside g) = (Pi.setDmaBusy s).beside g := rfl
  simp only [Pi.startDmaToRdram, busy, beside_bus]
  rw [upTo_beside g fun i t => setRdramByte_beside g t _ _, notifyMemoryWrite_beside,
    piAdvance_beside]

theorem startDmaToCart_beside :
    Pi.startDmaToCart (s.beside g) = (Pi.startDmaToCart s).beside g := by
  have busy : Pi.setDmaBusy (s.beside g) = (Pi.setDmaBusy s).beside g := rfl
  simp only [Pi.startDmaToCart, busy, beside_bus]
  rw [upTo_beside g fun i t => cartWriteByte_beside g t _ _, piAdvance_beside]

theorem piWriteStatus_beside (value : U32) :
    Pi.writeStatus (s.beside g) value = (Pi.writeStatus s value).beside g := by
  simp only [Pi.writeStatus]
  split_ifs
  · simp
  · simp
  · rfl
  · rfl

theorem piWrite_beside (offset value : U32) :
    Pi.write (s.beside g) offset value = (Pi.write s offset value).beside g := by
  unfold Pi.write
  split
  case h_3 => exact startDmaToRdram_beside g { s with bus.pi.rdLen := value &&& 0x00FFFFFF }
  case h_4 => exact startDmaToCart_beside g { s with bus.pi.wrLen := value &&& 0x00FFFFFF }
  case h_5 => exact piWriteStatus_beside g s value
  all_goals rfl

@[simp]
theorem processJoybus_beside : (s.beside g).processJoybus = s.processJoybus.beside g := rfl

@[simp]
theorem mirrorPif_beside : (s.beside g).mirrorPif = s.mirrorPif.beside g := rfl

theorem siFinishDma_beside : Si.finishDma (s.beside g) = (Si.finishDma s).beside g := by
  simp [Si.finishDma]

theorem siRunRequested_beside : Si.runRequested (s.beside g) = (Si.runRequested s).beside g := by
  simp only [Si.runRequested, beside_ite]
  rfl

theorem dmaFromPif_beside : Si.dmaFromPif (s.beside g) = (Si.dmaFromPif s).beside g := by
  have busy : Si.setDmaBusy (s.beside g) = (Si.setDmaBusy s).beside g := rfl
  simp only [Si.dmaFromPif, busy, siRunRequested_beside, beside_bus]
  rw [upTo_beside g fun i t => setRdramByte_beside g t _ _, notifyMemoryWrite_beside]
  simp [siFinishDma_beside]

theorem dmaToPif_beside : Si.dmaToPif (s.beside g) = (Si.dmaToPif s).beside g := by
  have busy : Si.setDmaBusy (s.beside g) = (Si.setDmaBusy s).beside g := rfl
  simp only [Si.dmaToPif, busy, beside_bus]
  rw [upTo_beside g fun i t => pokePif_beside g t _ _, mirrorPif_beside]
  generalize Sys.mirrorPif _ = t
  by_cases requested : t.pif.processRequested = true
  · simp [requested, siFinishDma_beside]
  · simp [requested, siFinishDma_beside]

theorem siWrite_beside (offset value : U32) :
    Si.write (s.beside g) offset value = (Si.write s offset value).beside g := by
  unfold Si.write
  split
  · rfl
  · exact dmaFromPif_beside g s
  · exact dmaToPif_beside g s
  · simp
  · rfl

end Peripherals

section SignalProcessor

variable (g : CpuChange) (s : Sys)

theorem setSpmem_beside (imem : Bool) (off : ℕ) (b : U8) :
    SpRegs.setSpmem (s.beside g) imem off b = (SpRegs.setSpmem s imem off b).beside g := by
  cases imem <;> rfl

theorem dmaByte_beside (toSp imem : Bool) (mem dram : U32) (i : ℕ) :
    SpRegs.dmaByte toSp imem mem dram i (s.beside g) =
      (SpRegs.dmaByte toSp imem mem dram i s).beside g := by
  cases toSp with
  | true => exact setSpmem_beside g s _ _ _
  | false => exact setRdramByte_beside g s _ _

/-- The transfer with its machine beside the changed CPU. -/
def SpRegs.DmaState.beside (t : SpRegs.DmaState) (g : CpuChange) : SpRegs.DmaState :=
  { t with sys := t.sys.beside g }

theorem dmaState_beside (mem dram total : U32) :
    SpRegs.DmaState.mk (s.beside g) mem dram total =
      (SpRegs.DmaState.mk s mem dram total).beside g := rfl

theorem dmaLine_beside (toSp imem : Bool) (d : SpRegs.SpDmaLen) (t : SpRegs.DmaState) :
    SpRegs.dmaLine toSp imem d (t.beside g) = (SpRegs.dmaLine toSp imem d t).beside g := by
  have moved := upTo_beside g (fun i u => dmaByte_beside g u toSp imem t.mem t.dram i)
    d.length.toNat t.sys
  cases toSp with
  | true => simp [SpRegs.dmaLine, SpRegs.DmaState.beside, moved]
  | false => simp [SpRegs.dmaLine, SpRegs.DmaState.beside, moved]

theorem dmaLines_beside (toSp imem : Bool) (d : SpRegs.SpDmaLen) (n : ℕ) (t : SpRegs.DmaState) :
    upTo (fun _ t => SpRegs.dmaLine toSp imem d t) n (t.beside g) =
      (upTo (fun _ t => SpRegs.dmaLine toSp imem d t) n t).beside g := by
  induction n with
  | zero => rfl
  | succ n ih => rw [upTo_succ, upTo_succ, ih, dmaLine_beside]

theorem copyToRsp_beside (imem : Bool) :
    SpRegs.copyToRsp (s.beside g) imem = (SpRegs.copyToRsp s imem).beside g := by
  cases imem <;> rfl

theorem doDma_beside (toSp : Bool) (lenReg : U32) :
    SpRegs.doDma (s.beside g) toSp lenReg = (SpRegs.doDma s toSp lenReg).beside g := by
  have busy : SpRegs.setDmaBusy (s.beside g) = (SpRegs.setDmaBusy s).beside g := rfl
  simp only [SpRegs.doDma, busy, beside_bus]
  rw [dmaState_beside, dmaLines_beside]
  generalize upTo _ _ _ = t
  simp [SpRegs.DmaState.beside, copyToRsp_beside]

theorem spSetStatus_beside (bits : U32) :
    SpRegs.setStatus (s.beside g) bits = (SpRegs.setStatus s bits).beside g := rfl

theorem spClearStatus_beside (bits : U32) :
    SpRegs.clearStatus (s.beside g) bits = (SpRegs.clearStatus s bits).beside g := rfl

@[simp]
theorem spWritePc_beside (offset value : U32) :
    SpRegs.writePc (s.beside g) offset value = (SpRegs.writePc s offset value).beside g := by
  simp only [SpRegs.writePc, beside_ite]
  rfl

theorem notifyBreak_beside (intrOnBreak : Bool) :
    SpRegs.notifyBreak (s.beside g) intrOnBreak = (SpRegs.notifyBreak s intrOnBreak).beside g := by
  cases intrOnBreak with
  | true => exact raise_beside g (SpRegs.setStatus s _) _
  | false => rfl

theorem signalStep_beside (value : U32) (i : ℕ) :
    SpRegs.signalStep value i (s.beside g) = (SpRegs.signalStep value i s).beside g := by
  simp only [SpRegs.signalStep]
  rw [onBit_beside g _ fun t => spClearStatus_beside g t _,
    onBit_beside g _ fun t => spSetStatus_beside g t _]

theorem applyStatusWrite_beside (value : U32) :
    SpRegs.applyStatusWrite (s.beside g) value = (SpRegs.applyStatusWrite s value).beside g := by
  simp only [SpRegs.applyStatusWrite]
  rw [onBit_beside g _ (f := SpRegs.clearHalt) fun t => rfl,
    onBit_beside g _ (f := SpRegs.setHalt) fun t => rfl,
    onBit_beside g _ (f := SpRegs.clearBroke) fun t => rfl,
    onBit_beside g _ fun t => clear_beside g t _, onBit_beside g _ fun t => raise_beside g t _,
    onBit_beside g _ fun t => spClearStatus_beside g t _,
    onBit_beside g _ fun t => spSetStatus_beside g t _,
    onBit_beside g _ (f := SpRegs.clearIntrBreak) fun t => rfl,
    onBit_beside g _ (f := SpRegs.setIntrBreak) fun t => rfl,
    upTo_beside g fun i t => signalStep_beside g t value i]

theorem spWrite_beside (offset value : U32) :
    SpRegs.write (s.beside g) offset value = (SpRegs.write s offset value).beside g := by
  unfold SpRegs.write
  split
  case h_3 => exact doDma_beside g s true value
  case h_4 => exact doDma_beside g s false value
  case h_5 => exact applyStatusWrite_beside g s value
  all_goals rfl

end SignalProcessor

section Interfaces

variable (g : CpuChange) (s : Sys)

theorem viWrite_beside (offset value : U32) :
    Vi.write (s.beside g) offset value = (Vi.write s offset value).beside g := by
  simp only [Vi.write]
  split_ifs
  · rfl
  · exact clear_beside g { s with vi.interruptLine := false } _
  · rfl
  · rfl

theorem aiWrite_beside (offset value : U32) :
    Ai.write (s.beside g) offset value = (Ai.write s offset value).beside g := by
  unfold Ai.write
  split
  case h_1 => exact clear_beside g s _
  all_goals rfl

end Interfaces

section Reads

variable (g : CpuChange) (s : Sys)

/-- What a read gives and leaves, the machine beside the changed CPU. -/
def readBeside {α : Type} (r : α × Sys) : α × Sys := (r.1, r.2.beside g)

@[simp] theorem readBeside_fst {α : Type} (r : α × Sys) : (readBeside g r).1 = r.1 := rfl

@[simp] theorem readBeside_snd {α : Type} (r : α × Sys) :
    (readBeside g r).2 = r.2.beside g := rfl

@[simp]
theorem readMmio32_beside (p : PhysicalAddress) :
    Bus.readMmio32 (s.beside g) p = readBeside g (Bus.readMmio32 s p) := by
  simp only [Bus.readMmio32]
  split_ifs <;> rfl

@[simp]
theorem read8_beside (addr : U32) :
    Bus.read8 (s.beside g) addr = readBeside g (Bus.read8 s addr) := by
  simp only [Bus.read8, readMmio32_beside]
  split_ifs <;> rfl

@[simp]
theorem read16_beside (addr : U32) :
    Bus.read16 (s.beside g) addr = readBeside g (Bus.read16 s addr) := by
  simp only [Bus.read16, readMmio32_beside]
  split_ifs <;> rfl

@[simp]
theorem read32_beside (addr : U32) :
    Bus.read32 (s.beside g) addr = readBeside g (Bus.read32 s addr) := by
  simp only [Bus.read32, readMmio32_beside]
  split_ifs <;> rfl

@[simp]
theorem read64_beside (addr : U32) :
    Bus.read64 (s.beside g) addr = readBeside g (Bus.read64 s addr) := by
  simp only [Bus.read64, read32_beside, readBeside_snd, beside_bus]
  split_ifs <;> rfl

end Reads

section DisplayProcessor

variable (g : CpuChange) (s : Sys)

theorem storePixel16_beside (addr : U32) (p : U16) :
    Rdp.storePixel16 (s.beside g) addr p = (Rdp.storePixel16 s addr p).beside g := by
  simp only [Rdp.storePixel16, beside_ite]
  rfl

theorem storePixel32_beside (addr : U32) (p : U32) :
    Rdp.storePixel32 (s.beside g) addr p = (Rdp.storePixel32 s addr p).beside g := by
  simp only [Rdp.storePixel32, beside_ite]
  rfl

theorem writeColorPixel_beside (x y : ℤ) (pix16 : U16) (pix32 : U32) (use32 : Bool) :
    Rdp.writeColorPixel (s.beside g) x y pix16 pix32 use32 =
      (Rdp.writeColorPixel s x y pix16 pix32 use32).beside g := by
  simp only [Rdp.writeColorPixel, storePixel16_beside, storePixel32_beside, beside_ite]
  rfl

theorem writeFillPixel_beside (x y : ℤ) :
    Rdp.writeFillPixel (s.beside g) x y = (Rdp.writeFillPixel s x y).beside g := by
  simp only [Rdp.writeFillPixel, writeColorPixel_beside, beside_ite]
  rfl

theorem writeTexPixel_beside (x y : ℤ) (sample : Option Rdp.Sample) :
    Rdp.writeTexPixel (s.beside g) x y sample = (Rdp.writeTexPixel s x y sample).beside g := by
  cases sample with
  | none => rfl
  | some t =>
    simp only [Rdp.writeTexPixel, writeColorPixel_beside]
    rfl

theorem forPixels_beside (c : Rdp.Corners) {pixel : ℕ → ℕ → Sys → Sys}
    (each : ∀ row col t, pixel row col (t.beside g) = (pixel row col t).beside g) :
    Rdp.forPixels c pixel (s.beside g) = (Rdp.forPixels c pixel s).beside g :=
  upTo_beside g (fun row t => upTo_beside g (each row) _ t) _ s

theorem cmdFillRectangle_beside (cmd : U64) :
    Rdp.cmdFillRectangle (s.beside g) cmd = (Rdp.cmdFillRectangle s cmd).beside g := by
  simp only [Rdp.cmdFillRectangle]
  rw [forPixels_beside g s _ fun _ _ t => writeFillPixel_beside g t _ _]
  simp only [beside_ite]
  rfl

theorem cmdTextureRectangle_beside (hi lo : U64) (flip : Bool) :
    Rdp.cmdTextureRectangle (s.beside g) hi lo flip =
      (Rdp.cmdTextureRectangle s hi lo flip).beside g := by
  simp only [Rdp.cmdTextureRectangle]
  rw [forPixels_beside g s _ fun _ _ t => writeTexPixel_beside g t _ _ _]
  simp only [beside_ite]
  rfl

theorem executeCommandPair_beside (hi lo : U64) :
    Rdp.executeCommandPair (s.beside g) hi lo = (Rdp.executeCommandPair s hi lo).beside g := by
  simp only [Rdp.executeCommandPair]
  split_ifs
  · exact cmdTextureRectangle_beside g (Rdp.countCommand s) hi lo false
  · exact cmdTextureRectangle_beside g (Rdp.countCommand s) hi lo true
  · rfl

theorem executeCommand_beside (cmd : U64) :
    Rdp.executeCommand (s.beside g) cmd = (Rdp.executeCommand s cmd).beside g := by
  simp only [Rdp.executeCommand]
  split
  case h_1 => exact raise_beside g (Rdp.countCommand s) _
  case h_4 => exact cmdFillRectangle_beside g (Rdp.countCommand s) cmd
  all_goals rfl

theorem readCmd64_beside (addr : U32) (xbusDmem : Bool) :
    Rdp.readCmd64 (s.beside g) addr xbusDmem = readBeside g (Rdp.readCmd64 s addr xbusDmem) := by
  simp only [Rdp.readCmd64, Rdp.readCmdWord, read32_beside]
  cases xbusDmem <;> simp [readBeside]

theorem runList_beside (xbusDmem : Bool) (stop : U32) (fuel : ℕ) (pc : U32) :
    Rdp.runList xbusDmem stop fuel pc (s.beside g) =
      (Rdp.runList xbusDmem stop fuel pc s).beside g := by
  induction fuel generalizing pc s with
  | zero => rfl
  | succ fuel ih =>
    simp only [Rdp.runList, readCmd64_beside, readBeside_fst, readBeside_snd]
    split_ifs
    · rfl
    · rw [executeCommandPair_beside, ih]
    · rw [executeCommand_beside, ih]
    · rfl

theorem runCommandList_beside (start end_ : U32) (xbusDmem : Bool) :
    Rdp.runCommandList (s.beside g) start end_ xbusDmem =
      (Rdp.runCommandList s start end_ xbusDmem).beside g := by
  have ran := runList_beside g { s with rdp.busy := true } xbusDmem (end_ &&& ~~~7)
    (end_ &&& ~~~7).toNat (start &&& ~~~7)
  simp only [Rdp.runCommandList]
  split_ifs
  · rfl
  · exact congrArg (fun t : Sys => { t with rdp.busy := false }) ran

theorem dpSetStatus_beside (bits : U32) :
    DpRegs.setStatus (s.beside g) bits = (DpRegs.setStatus s bits).beside g := rfl

theorem dpClearStatus_beside (bits : U32) :
    DpRegs.clearStatus (s.beside g) bits = (DpRegs.clearStatus s bits).beside g := rfl

theorem runCommands_beside : DpRegs.runCommands (s.beside g) = (DpRegs.runCommands s).beside g := by
  simp only [DpRegs.runCommands, dpSetStatus_beside, dpClearStatus_beside, beside_bus,
    runCommandList_beside]
  generalize Rdp.runCommandList _ _ _ _ = t
  exact raise_beside g (DpRegs.setStatus (DpRegs.clearStatus { t with
    bus.dpRegs.current := t.bus.dpRegs.end_
    bus.dpRegs.start := t.bus.dpRegs.end_ } _) _) _

theorem dpFlush_beside : DpRegs.flush (s.beside g) = (DpRegs.flush s).beside g :=
  raise_beside g { DpRegs.setStatus s DpRegisters.StFlush with rdp := s.rdp.flush } _

theorem dpWriteStatus_beside (value : U32) :
    DpRegs.writeStatus (s.beside g) value = (DpRegs.writeStatus s value).beside g := by
  simp only [DpRegs.writeStatus]
  rw [onBit_beside g _ fun t => dpClearStatus_beside g t _,
    onBit_beside g _ fun t => dpSetStatus_beside g t _,
    onBit_beside g _ fun t => dpClearStatus_beside g t _,
    onBit_beside g _ fun t => dpSetStatus_beside g t _,
    onBit_beside g _ fun t => dpClearStatus_beside g t _,
    onBit_beside g _ fun t => dpFlush_beside g t]

theorem dpWrite_beside (offset value : U32) :
    DpRegs.write (s.beside g) offset value = (DpRegs.write s offset value).beside g := by
  unfold DpRegs.write
  split
  · rfl
  · have ran := runCommands_beside g (DpRegs.setStatus
      { s with bus.dpRegs.end_ := value &&& 0x00FFFFF8 } DpRegisters.StEndValid)
    simp only [beside_ite, ← ran]
    rfl
  · exact dpWriteStatus_beside g s value
  · rfl

end DisplayProcessor

section Writes

variable (g : CpuChange) (s : Sys)

theorem writeMmio32_beside (p : PhysicalAddress) (value : U32) :
    Bus.writeMmio32 (s.beside g) p value = (Bus.writeMmio32 s p value).beside g := by
  simp only [Bus.writeMmio32]
  split_ifs
  · exact spWrite_beside g s _ value
  · exact spWritePc_beside g s _ value
  · exact dpWrite_beside g s _ value
  · exact miWrite_beside g s _ value
  · exact viWrite_beside g s _ value
  · exact aiWrite_beside g s _ value
  · exact piWrite_beside g s _ value
  · rfl
  · exact siWrite_beside g s _ value
  · rfl

theorem storeDmem_beside (off : ℕ) (b : U8) :
    Bus.storeDmem (s.beside g) off b = (Bus.storeDmem s off b).beside g := rfl

theorem storeImem_beside (off : ℕ) (b : U8) :
    Bus.storeImem (s.beside g) off b = (Bus.storeImem s off b).beside g := rfl

theorem storePifRam_beside (off : ℕ) (value : U8) :
    Bus.storePifRam (s.beside g) off value = (Bus.storePifRam s off value).beside g := by
  simp only [Bus.storePifRam, beside_ite]
  rfl

theorem rdramBytes_beside (off : ℕ) (bs : List U8) :
    Sys.storeBytes Sys.pokeRdram (s.beside g) off bs =
      (Sys.storeBytes Sys.pokeRdram s off bs).beside g :=
  storeBytes_beside g s (fun _ _ _ => rfl) off bs

theorem dmemBytes_beside (off : ℕ) (bs : List U8) :
    Sys.storeBytes Bus.storeDmem (s.beside g) off bs =
      (Sys.storeBytes Bus.storeDmem s off bs).beside g :=
  storeBytes_beside g s (fun _ _ _ => rfl) off bs

theorem imemBytes_beside (off : ℕ) (bs : List U8) :
    Sys.storeBytes Bus.storeImem (s.beside g) off bs =
      (Sys.storeBytes Bus.storeImem s off bs).beside g :=
  storeBytes_beside g s (fun _ _ _ => rfl) off bs

@[simp]
theorem write8_beside (addr : U32) (value : U8) :
    Bus.write8 (s.beside g) addr value = (Bus.write8 s addr value).beside g := by
  simp only [Bus.write8, notifyMemoryWrite_beside, readMmio32_beside, readBeside_fst,
    readBeside_snd, writeMmio32_beside, pokeRdram_beside, storeDmem_beside, storeImem_beside,
    storePifRam_beside, beside_ite]
  rfl

@[simp]
theorem write16_beside (addr : U32) (value : U16) :
    Bus.write16 (s.beside g) addr value = (Bus.write16 s addr value).beside g := by
  simp only [Bus.write16, notifyMemoryWrite_beside, readMmio32_beside, readBeside_fst,
    readBeside_snd, writeMmio32_beside, rdramBytes_beside, dmemBytes_beside, write8_beside,
    beside_ite]
  rfl

@[simp]
theorem write32_beside (addr value : U32) :
    Bus.write32 (s.beside g) addr value = (Bus.write32 s addr value).beside g := by
  simp only [Bus.write32, notifyMemoryWrite_beside, writeMmio32_beside, rdramBytes_beside,
    dmemBytes_beside, imemBytes_beside, write8_beside, beside_ite]
  rfl

@[simp]
theorem write64_beside (addr : U32) (value : U64) :
    Bus.write64 (s.beside g) addr value = (Bus.write64 s addr value).beside g := by
  simp only [Bus.write64, notifyMemoryWrite_beside, rdramBytes_beside, write32_beside, beside_ite]
  rfl

end Writes

section RspStep

open Rsp

variable (g : CpuChange) (s : Sys)

theorem mirrorDmem_beside (off : U32) :
    mirrorDmem (s.beside g) off = (mirrorDmem s off).beside g :=
  notifyMemoryWrite_beside g (s.pokeSpDmem off.toNat (s.rsp.dmem off.toNat)) _ _

theorem rspStoreByte_beside (addr : U32) (v : U8) :
    Rsp.storeByte (s.beside g) addr v = (Rsp.storeByte s addr v).beside g :=
  mirrorDmem_beside g (s.pokeRspDmem (addr &&& 0xFFF).toNat v) _

theorem rspStoreHalf_beside (addr : U32) (v : U16) :
    Rsp.storeHalf (s.beside g) addr v = (Rsp.storeHalf s addr v).beside g := by
  simp [Rsp.storeHalf]

theorem rspStoreWord_beside (addr : U32) (v : U32) :
    Rsp.storeWord (s.beside g) addr v = (Rsp.storeWord s addr v).beside g := by
  simp only [Rsp.storeWord, pokeRspDmem_beside]
  exact upTo_beside g (fun i t => mirrorDmem_beside g t _) 4 _

theorem pushMemToBus_beside : (s.beside g).pushMemToBus = s.pushMemToBus.beside g := by
  simp only [Sys.pushMemToBus, beside_cpu, beside_bus, beside_vi, beside_ai, beside_pif, beside_rsp,
    beside_rdp, beside_log, mk_beside]

theorem setRsp_beside (r : Rsp) :
    ({ s.beside g with rsp := r } : Sys) = ({ s with rsp := r } : Sys).beside g := rfl

theorem doBreak_beside : doBreak (s.beside g) = (doBreak s).beside g := by
  simp only [doBreak, setRsp_beside, beside_rsp, pushMemToBus_beside, notifyBreak_beside]

theorem rspExecSpecial_beside (insn : U32) :
    Rsp.execSpecial (s.beside g) insn = (Rsp.execSpecial s insn).beside g := by
  simp only [Rsp.execSpecial, doBreak_beside, beside_ite]
  rfl

theorem moveFromCop0_beside (rdF : ℕ) :
    moveFromCop0 (s.beside g) rdF = readBeside g (moveFromCop0 s rdF) := by
  simp only [moveFromCop0]
  split_ifs <;> rfl

theorem moveToCop0_beside (rdF : ℕ) (val : U32) :
    moveToCop0 (s.beside g) rdF val = (moveToCop0 s rdF val).beside g := by
  simp only [moveToCop0, spWrite_beside, dpWrite_beside]
  split_ifs <;> rfl

theorem rspExecCop0_beside (insn : U32) :
    Rsp.execCop0 (s.beside g) insn = (Rsp.execCop0 s insn).beside g := by
  simp only [Rsp.execCop0, moveFromCop0_beside, readBeside_fst, readBeside_snd, moveToCop0_beside,
    beside_rsp]
  split_ifs <;> rfl

theorem transferByte_beside (store : Bool) (vt : BitVec 5) (addr : U32) (byte : ℕ) :
    transferByte store vt addr byte (s.beside g) =
      (transferByte store vt addr byte s).beside g := by
  cases store with
  | true => exact rspStoreByte_beside g s _ _
  | false => rfl

theorem transferShifted_beside (store : Bool) (vt : BitVec 5) (addr : U32) (lane : Fin 8)
    (shift : ℕ) : transferShifted store vt addr lane shift (s.beside g) =
      (transferShifted store vt addr lane shift s).beside g := by
  cases store with
  | true => exact rspStoreByte_beside g s _ _
  | false => rfl

theorem transferTransposed_beside (store : Bool) (vt : BitVec 5) (element : ℕ) (address : U32)
    (lane : ℕ) : transferTransposed store vt element address lane (s.beside g) =
      (transferTransposed store vt element address lane s).beside g := by
  cases store with
  | true => exact rspStoreHalf_beside g s _ _
  | false => rfl

theorem execVectorMemory_beside (insn : U32) (store : Bool) :
    execVectorMemory (s.beside g) insn store = (execVectorMemory s insn store).beside g := by
  simp only [execVectorMemory]
  split
  · rfl
  · simp only [beside_rsp]
    split_ifs
    · rfl
    · exact upTo_beside g (fun i t => transferShifted_beside g t _ _ _ _ _) _ s
    · exact upTo_beside g (fun i t => transferShifted_beside g t _ _ _ _ _) _ s
    · rfl
    · exact upTo_beside g (fun i t => transferShifted_beside g t _ _ _ _ _) _ s
    · exact upTo_beside g (fun i t => transferShifted_beside g t _ _ _ _ _) _ s
    · rfl
    · exact upTo_beside g (fun i t => transferByte_beside g t _ _ _ _) _ s
    · exact upTo_beside g (fun i t => transferTransposed_beside g t _ _ _ _ i) _ s
    · refine upTo_beside g (fun i t => ?_) _ s
      simp only [transferByte_beside, beside_ite]
    · exact upTo_beside g (fun i t => transferByte_beside g t _ _ _ _) _ s
    · exact upTo_beside g (fun i t => transferByte_beside g t _ _ _ _) _ s

theorem rspExecute_beside (insn : U32) :
    Rsp.execute (s.beside g) insn = (Rsp.execute s insn).beside g := by
  unfold Rsp.execute
  split
  · exact rspExecSpecial_beside g s insn
  · exact rspExecCop0_beside g s insn
  · exact rspStoreByte_beside g s _ _
  · exact rspStoreHalf_beside g s _ _
  · exact rspStoreWord_beside g s _ _
  · exact rspStoreWord_beside g s _ _
  · exact rspStoreWord_beside g s _ _
  · exact execVectorMemory_beside g s insn false
  · exact execVectorMemory_beside g s insn true
  · rfl

theorem rspStep_beside : Rsp.step (s.beside g) = (Rsp.step s).beside g := by
  simp only [Rsp.step, beside_rsp, setRsp_beside, rspExecute_beside, pushMemToBus_beside,
    beside_ite]

end RspStep

theorem perform_beside (g : CpuChange) (a : DeviceAct) (s : Sys) :
    a.perform (s.beside g) = (a.perform s).beside g := by
  cases a with
  | read8 addr => exact congrArg Prod.snd (read8_beside g s addr)
  | read16 addr => exact congrArg Prod.snd (read16_beside g s addr)
  | read32 addr => exact congrArg Prod.snd (read32_beside g s addr)
  | read64 addr => exact congrArg Prod.snd (read64_beside g s addr)
  | write8 addr value => exact write8_beside g s addr value
  | write16 addr value => exact write16_beside g s addr value
  | write32 addr value => exact write32_beside g s addr value
  | write64 addr value => exact write64_beside g s addr value
  | spWrite offset value => exact spWrite_beside g s offset value
  | spWritePc offset value => exact spWritePc_beside g s offset value
  | dpWrite offset value => exact dpWrite_beside g s offset value
  | piWrite offset value => exact piWrite_beside g s offset value
  | siWrite offset value => exact siWrite_beside g s offset value
  | rspStep => exact rspStep_beside g s

end N64
