import N64Emu.Frame

/-!
# Frames of the bus, the RDP and the RSP

The frame lemmas of everything a bus access or a coprocessor step can start.
A read changes nothing that is watched; a write may change every part.
-/

set_option autoImplicit false

namespace N64

open Words Loops

section Reads

variable {ps : List Part} (s : Sys)

theorem readMmio32_cases (p : PhysicalAddress) : (Bus.readMmio32 s p).2 = s ∨
    (Bus.readMmio32 s p).1 = s.bus.spRegs.semaphore ∧
      (Bus.readMmio32 s p).2 = { s with bus.spRegs.semaphore := 1 } := by
  simp only [Bus.readMmio32]
  split
  · split
    · exact Or.inr ⟨rfl, rfl⟩
    · exact Or.inl rfl
  · left
    split_ifs <;> rfl

theorem read32_cases (p : PhysicalAddress) : (Bus.read32 s p).2 = s ∨
    (Bus.read32 s p).1 = s.bus.spRegs.semaphore ∧
      (Bus.read32 s p).2 = { s with bus.spRegs.semaphore := 1 } := by
  simp only [Bus.read32]
  split
  · exact readMmio32_cases s _
  · exact Or.inl rfl

theorem frame_readMmio32 (p : PhysicalAddress) : Frame ps s (Bus.readMmio32 s p).2 := by
  rcases readMmio32_cases s p with same | ⟨-, taken⟩
  · rw [same]
    exact Frame.refl s
  · rw [taken]
    exact frame_readSemaphore s

theorem frame_read8 (addr : U32) : Frame ps s (Bus.read8 s addr).2 := by
  simp only [Bus.read8]
  split
  · exact frame_readMmio32 s _
  · exact Frame.refl s

theorem frame_read16 (addr : U32) : Frame ps s (Bus.read16 s addr).2 := by
  simp only [Bus.read16]
  split_ifs
  · exact frame_readMmio32 s _
  · exact frame_readMmio32 s _
  · exact Frame.refl s

theorem frame_read32 (addr : U32) : Frame ps s (Bus.read32 s addr).2 := by
  rcases read32_cases s addr with same | ⟨-, taken⟩
  · rw [same]
    exact Frame.refl s
  · rw [taken]
    exact frame_readSemaphore s

theorem frame_read64 (addr : U32) : Frame ps s (Bus.read64 s addr).2 := by
  simp only [Bus.read64]
  split
  · exact Frame.refl s
  · exact (frame_read32 s addr).trans (frame_read32 _ _)

end Reads

section Rdp

variable {ps : List Part} (s : Sys)

theorem frame_setRdp (r : Rdp) : Frame ps s { s with rdp := r } :=
  frame_unwatched s rfl rfl rfl rfl rfl

theorem frame_storePixel16 (addr : U32) (p : U16) : Frame ps s (Rdp.storePixel16 s addr p) := by
  simp only [Rdp.storePixel16]
  split
  · exact Frame.refl s
  · exact (frame_pokeRdram s _ _).trans (frame_pokeRdram _ _ _)

theorem frame_storePixel32 (addr : U32) (p : U32) : Frame ps s (Rdp.storePixel32 s addr p) := by
  simp only [Rdp.storePixel32]
  split
  · exact Frame.refl s
  · refine Frame.trans ?_ (frame_pokeRdram _ _ _)
    refine Frame.trans ?_ (frame_pokeRdram _ _ _)
    exact (frame_pokeRdram s _ _).trans (frame_pokeRdram _ _ _)

theorem frame_writeColorPixel (x y : ℤ) (pix16 : U16) (pix32 : U32) (use32 : Bool) :
    Frame ps s (Rdp.writeColorPixel s x y pix16 pix32 use32) := by
  simp only [Rdp.writeColorPixel]
  split_ifs
  · exact Frame.refl s
  · exact Frame.refl s
  · exact frame_storePixel16 s _ _
  · exact frame_storePixel16 s _ _
  · exact frame_storePixel32 s _ _
  · exact Frame.refl s

theorem frame_writeFillPixel (x y : ℤ) : Frame ps s (Rdp.writeFillPixel s x y) := by
  simp only [Rdp.writeFillPixel]
  split
  · exact Frame.refl s
  · split
    · exact (frame_writeColorPixel s _ _ _ _ _).trans (frame_setRdp _ _)
    · split
      · exact (frame_writeColorPixel s _ _ _ _ _).trans (frame_setRdp _ _)
      · exact Frame.refl s

theorem frame_writeTexPixel (x y : ℤ) (sample : Option Rdp.Sample) :
    Frame ps s (Rdp.writeTexPixel s x y sample) := by
  cases sample with
  | none => exact Frame.refl s
  | some t => exact (frame_writeColorPixel s _ _ _ _ _).trans (frame_setRdp _ _)

theorem frame_forPixels (c : Rdp.Corners) {pixel : ℕ → ℕ → Sys → Sys}
    (each : ∀ row col t, Frame ps t (pixel row col t)) : Frame ps s (Rdp.forPixels c pixel s) :=
  Frame.upTo _ s fun row t => Frame.upTo _ t fun col u => each row col u

theorem frame_cmdFillRectangle (cmd : U64) : Frame ps s (Rdp.cmdFillRectangle s cmd) := by
  simp only [Rdp.cmdFillRectangle]
  split
  · exact Frame.refl s
  · exact frame_forPixels s _ fun _ _ t => frame_writeFillPixel t _ _

theorem frame_cmdTextureRectangle (hi lo : U64) (flip : Bool) :
    Frame ps s (Rdp.cmdTextureRectangle s hi lo flip) := by
  simp only [Rdp.cmdTextureRectangle]
  split
  · exact Frame.refl s
  · exact frame_forPixels s _ fun _ _ t => frame_writeTexPixel t _ _ _

theorem frame_executeCommandPair (hi lo : U64) :
    Frame ps s (Rdp.executeCommandPair s hi lo) := by
  have count : Frame ps s (Rdp.countCommand s) := frame_setRdp s _
  simp only [Rdp.executeCommandPair]
  split_ifs
  · exact count.trans (frame_cmdTextureRectangle _ hi lo false)
  · exact count.trans (frame_cmdTextureRectangle _ hi lo true)
  · exact count

theorem frame_executeCommand (cmd : U64) : Frame [.irq] s (Rdp.executeCommand s cmd) := by
  have count : Frame [.irq] s (Rdp.countCommand s) := frame_setRdp s _
  simp only [Rdp.executeCommand]
  split
  case h_1 => exact count.trans (frame_raise _ _)
  case h_4 => exact count.trans (frame_cmdFillRectangle _ cmd)
  case h_13 => exact count
  all_goals exact count.trans (frame_setRdp _ _)

theorem frame_readCmdWord (addr : U32) (xbusDmem : Bool) :
    Frame ps s (Rdp.readCmdWord s addr xbusDmem).2 := by
  unfold Rdp.readCmdWord
  split
  · exact frame_read32 s _
  · exact frame_read32 s _

theorem frame_readCmd64 (addr : U32) (xbusDmem : Bool) :
    Frame ps s (Rdp.readCmd64 s addr xbusDmem).2 :=
  (frame_readCmdWord s addr xbusDmem).trans (frame_readCmdWord _ _ _)

theorem frame_runList (xbusDmem : Bool) (stop : U32) (fuel : ℕ) (pc : U32) :
    Frame [.irq] s (Rdp.runList xbusDmem stop fuel pc s) := by
  induction fuel generalizing pc s with
  | zero => exact Frame.refl s
  | succ fuel ih =>
    have first : Frame [.irq] s (Rdp.readCmd64 s pc xbusDmem).2 := frame_readCmd64 s pc xbusDmem
    simp only [Rdp.runList]
    split
    · split
      · split
        · exact first
        · refine Frame.trans ?_ (ih _ _)
          refine Frame.trans ?_ (frame_executeCommandPair _ _ _)
          exact first.trans (frame_readCmd64 _ _ _)
      · refine Frame.trans ?_ (ih _ _)
        exact first.trans (frame_executeCommand _ _)
    · exact Frame.refl s

theorem frame_runCommandList (start end_ : U32) (xbusDmem : Bool) :
    Frame [.irq] s (Rdp.runCommandList s start end_ xbusDmem) := by
  simp only [Rdp.runCommandList]
  split
  · exact Frame.refl s
  · refine Frame.trans ?_ (frame_setRdp _ _)
    refine Frame.trans ?_ (frame_runList _ _ _ _ _)
    exact frame_setRdp s _

theorem frame_setDp (d : DpRegisters) : Frame ps s { s with bus.dpRegs := d } := by
  refine Frame.quiet rfl rfl rfl rfl (Or.inl rfl) fun p _ => ?_
  cases p <;> rfl

theorem frame_dpSetStatus (bits : U32) : Frame ps s (DpRegs.setStatus s bits) := frame_setDp s _

theorem frame_dpClearStatus (bits : U32) : Frame ps s (DpRegs.clearStatus s bits) := frame_setDp s _

theorem frame_runCommands : Frame [.irq] s (DpRegs.runCommands s) := by
  refine Frame.trans ?_ (frame_raise _ _)
  refine Frame.trans ?_ (frame_dpSetStatus _ _)
  refine Frame.trans ?_ (frame_dpClearStatus _ _)
  refine Frame.trans ?_ (frame_setDp _ _)
  refine Frame.trans ?_ (frame_runCommandList _ _ _ _)
  exact (frame_dpSetStatus s _).trans (frame_dpClearStatus _ _)

theorem frame_dpFlush : Frame [.irq] s (DpRegs.flush s) := by
  refine Frame.trans ?_ (frame_raise _ _)
  exact (frame_dpSetStatus s _).trans (frame_setRdp _ _)

theorem frame_dpWriteStatus (value : U32) : Frame [.irq] s (DpRegs.writeStatus s value) := by
  refine Frame.trans ?_ (Frame.onBit _ (frame_dpFlush _))
  refine Frame.trans ?_ (Frame.onBit _ (frame_dpClearStatus _ _))
  refine Frame.trans ?_ (Frame.onBit _ (frame_dpSetStatus _ _))
  refine Frame.trans ?_ (Frame.onBit _ (frame_dpClearStatus _ _))
  refine Frame.trans ?_ (Frame.onBit _ (frame_dpSetStatus _ _))
  exact Frame.onBit s (frame_dpClearStatus s _)

theorem frame_dpWrite (offset value : U32) : Frame [.irq] s (DpRegs.write s offset value) := by
  unfold DpRegs.write
  split
  · exact (frame_setDp s _).trans (frame_dpSetStatus _ _)
  · have loaded : Frame [.irq] s (DpRegs.setStatus
        { s with bus.dpRegs.end_ := value &&& 0x00FFFFF8 } DpRegisters.StEndValid) :=
      (frame_setDp s _).trans (frame_dpSetStatus _ _)
    simp only []
    split
    · exact loaded.trans (frame_runCommands _)
    · exact loaded
  · exact frame_dpWriteStatus s value
  · exact Frame.refl s

end Rdp

section Writes

variable (s : Sys)

theorem frame_setRi (r : RdramInterface) {ps : List Part} : Frame ps s { s with bus.ri := r } := by
  refine Frame.quiet rfl rfl rfl rfl (Or.inl rfl) fun p _ => ?_
  cases p <;> rfl

theorem frame_writeMmio32 (p : PhysicalAddress) (value : U32) :
    Frame Part.all s (Bus.writeMmio32 s p value) := by
  simp only [Bus.writeMmio32]
  split_ifs
  · exact (frame_spWrite s _ value).mono (by decide)
  · exact frame_spWritePc s _ value
  · exact (frame_dpWrite s _ value).mono (by decide)
  · exact (frame_miWrite s _ value).mono (by decide)
  · exact (frame_viWrite s _ value).mono (by decide)
  · exact (frame_aiWrite s _ value).mono (by decide)
  · exact (frame_piWrite s _ value).mono (by decide)
  · exact frame_setRi s _
  · exact (frame_siWrite s _ value).mono (by decide)
  · exact Frame.refl s

theorem frame_storeDmem (off : ℕ) (b : U8) :
    Frame [.busDmem, .rspDmem] s (Bus.storeDmem s off b) := by
  refine Frame.trans ?_ ((frame_pokeRspDmem _ off b).mono (by decide))
  exact (frame_pokeSpDmem s off b).mono (by decide)

theorem frame_storeImem (off : ℕ) (b : U8) :
    Frame [.busImem, .rspImem] s (Bus.storeImem s off b) := by
  refine Frame.trans ?_ ((frame_pokeRspImem _ off b).mono (by decide))
  exact (frame_pokeSpImem s off b).mono (by decide)

theorem frame_storePifRam (off : ℕ) (value : U8) :
    Frame [.pif, .busPif] s (Bus.storePifRam s off value) := by
  have stored : Frame [.pif, .busPif] s ((s.pokeBusPif off value).pokePif off value) := by
    refine Frame.trans ?_ ((frame_pokePif _ off value).mono (by decide))
    exact (frame_pokeBusPif s off value).mono (by decide)
  unfold Bus.storePifRam
  split
  · refine Frame.trans ?_ ((frame_mirrorPif _).mono (by decide))
    exact stored.trans ((frame_processJoybus _).mono (by decide))
  · exact stored

theorem frame_storeBytes {ps : List Part} {poke : Sys → ℕ → U8 → Sys}
    (each : ∀ t off b, Frame ps t (poke t off b)) (off : ℕ) (bs : List U8) :
    Frame ps s (Sys.storeBytes poke s off bs) := by
  induction bs generalizing s off with
  | nil => exact Frame.refl s
  | cons b bs ih => exact (each s off b).trans (ih _ _)

theorem frame_write8 (addr : U32) (value : U8) : Frame Part.all s (Bus.write8 s addr value) := by
  have marked : Frame Part.all s (s.notifyMemoryWrite (Bus.physical addr) 1) :=
    frame_notifyMemoryWrite s _ _
  simp only [Bus.write8]
  refine marked.trans ?_
  split_ifs
  · exact (frame_readMmio32 _ _).trans (frame_writeMmio32 _ _ _)
  · exact frame_pokeRdram _ _ _
  · exact Frame.refl _
  · exact (frame_storeDmem _ _ _).mono (by decide)
  · exact (frame_storeImem _ _ _).mono (by decide)
  · exact (frame_storePifRam _ _ _).mono (by decide)
  · exact Frame.refl _

theorem frame_write16 (addr : U32) (value : U16) : Frame Part.all s (Bus.write16 s addr value) := by
  have marked : Frame Part.all s (s.notifyMemoryWrite (Bus.physical addr) 2) :=
    frame_notifyMemoryWrite s _ _
  simp only [Bus.write16]
  refine marked.trans ?_
  split_ifs
  · exact (frame_readMmio32 _ _).trans (frame_writeMmio32 _ _ _)
  · exact (frame_readMmio32 _ _).trans (frame_writeMmio32 _ _ _)
  · exact frame_storeBytes _ (fun t off b => frame_pokeRdram t off b) _ _
  · exact frame_storeBytes _ (fun t off b => (frame_storeDmem t off b).mono (by decide)) _ _
  · exact (frame_write8 _ _ _).trans (frame_write8 _ _ _)

theorem frame_write32 (addr : U32) (value : U32) : Frame Part.all s (Bus.write32 s addr value) := by
  have marked : Frame Part.all s (s.notifyMemoryWrite (Bus.physical addr) 4) :=
    frame_notifyMemoryWrite s _ _
  simp only [Bus.write32]
  refine marked.trans ?_
  split_ifs
  · exact frame_writeMmio32 _ _ _
  · exact frame_storeBytes _ (fun t off b => frame_pokeRdram t off b) _ _
  · exact frame_storeBytes _ (fun t off b => (frame_storeDmem t off b).mono (by decide)) _ _
  · exact frame_storeBytes _ (fun t off b => (frame_storeImem t off b).mono (by decide)) _ _
  · refine Frame.trans ?_ (frame_write8 _ _ _)
    refine Frame.trans ?_ (frame_write8 _ _ _)
    exact (frame_write8 _ _ _).trans (frame_write8 _ _ _)

theorem frame_write64 (addr : U32) (value : U64) : Frame Part.all s (Bus.write64 s addr value) := by
  have marked : Frame Part.all s (s.notifyMemoryWrite (Bus.physical addr) 8) :=
    frame_notifyMemoryWrite s _ _
  simp only [Bus.write64]
  refine marked.trans ?_
  split_ifs
  · exact frame_storeBytes _ (fun t off b => frame_pokeRdram t off b) _ _
  · exact (frame_write32 _ _ _).trans (frame_write32 _ _ _)

end Writes

end N64
