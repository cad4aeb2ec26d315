import N64Emu.RdpReach
import N64Emu.DeviceSide

/-!
# The coprocessors among the devices

The RSP and the RDP with their registers and memories. Nothing that the other
devices do, and no store outside their windows, touches any of them; a command
list of the RDP leaves the RSP's side alone.
-/

set_option autoImplicit false

namespace N64

open Words Loops

/-- The RSP with its registers and the bus copies of its memories. -/
structure SpView where
  rsp : Rsp
  regs : SpRegisters
  dmem : ℕ → U8
  imem : ℕ → U8

/-- Both coprocessors. -/
structure Coprocessors where
  sp : SpView
  rdp : Rdp
  dp : DpRegisters

namespace Sys

def sp (s : Sys) : SpView :=
  { rsp := s.rsp, regs := s.bus.spRegs, dmem := s.bus.spDmem, imem := s.bus.spImem }

def cops (s : Sys) : Coprocessors := { sp := s.sp, rdp := s.rdp, dp := s.bus.dpRegs }

variable (s : Sys)

theorem co_notifyMemoryWrite (p : PhysicalAddress) (n : U32) :
    (s.notifyMemoryWrite p n).cops = s.cops := by
  unfold Sys.notifyMemoryWrite
  split <;> rfl

theorem co_setRdramByte (addr : U32) (b : U8) : (s.setRdramByte addr b).cops = s.cops := by
  unfold Sys.setRdramByte
  split <;> rfl

theorem co_cartWriteByte (addr : U32) (b : U8) : (s.cartWriteByte addr b).cops = s.cops := by
  unfold Sys.cartWriteByte
  split <;> rfl

theorem co_storePifRam (off : ℕ) (b : U8) : (Bus.storePifRam s off b).cops = s.cops := by
  unfold Bus.storePifRam
  split <;> rfl

section Pi

theorem co_startDmaToRdram : (Pi.startDmaToRdram s).cops = s.cops := by
  simp only [Pi.startDmaToRdram]
  exact (co_notifyMemoryWrite _ _ _).trans
    (upTo_untouched Sys.cops _ _ fun _ _ t => co_setRdramByte t _ _)

theorem co_startDmaToCart : (Pi.startDmaToCart s).cops = s.cops := by
  simp only [Pi.startDmaToCart]
  exact upTo_untouched Sys.cops _ _ fun _ _ t => co_cartWriteByte t _ _

theorem co_piWriteStatus (value : U32) : (Pi.writeStatus s value).cops = s.cops := by
  simp only [Pi.writeStatus]
  split_ifs <;> rfl

theorem co_piWrite (offset value : U32) : (Pi.write s offset value).cops = s.cops := by
  unfold Pi.write
  split
  case h_3 => exact co_startDmaToRdram _
  case h_4 => exact co_startDmaToCart _
  case h_5 => exact co_piWriteStatus s value
  all_goals rfl

end Pi

section Si

theorem co_runRequested : (Si.runRequested s).cops = s.cops := by
  unfold Si.runRequested
  split <;> rfl

theorem co_mirrorPif : s.mirrorPif.cops = s.cops := rfl

theorem co_siFinished (n : U32) :
    (Si.finishDma { s with bus.si.lastDmaBytes := n }).cops = s.cops := rfl

theorem co_setDmaBusy : (Si.setDmaBusy s).cops = s.cops := rfl

theorem co_dmaFromPif : (Si.dmaFromPif s).cops = s.cops := by
  have copied (dram : U32) (t : Sys) : (upTo (fun i (s : Sys) =>
      s.setRdramByte (dram + BitVec.ofNat 32 i) (s.pif.pifRam i)) kPifRamSize t).cops = t.cops :=
    upTo_untouched Sys.cops _ t fun _ _ u => co_setRdramByte u _ _
  simp only [Si.dmaFromPif]
  rw [co_siFinished, co_mirrorPif, co_notifyMemoryWrite, copied, co_runRequested, co_setDmaBusy]

theorem co_dmaToPif : (Si.dmaToPif s).cops = s.cops := by
  have loaded (dram : U32) (t : Sys) : (upTo (fun i (s : Sys) =>
      s.pokePif i (s.bus.rdramByte (dram + BitVec.ofNat 32 i))) kPifRamSize t).cops = t.cops :=
    upTo_untouched Sys.cops _ t fun _ _ _ => rfl
  have answered (t : Sys) :
      (if t.pif.processRequested then t.processJoybus.mirrorPif else t).cops = t.cops := by
    split <;> rfl
  simp only [Si.dmaToPif]
  rw [co_siFinished, answered, co_mirrorPif, loaded, co_setDmaBusy]

theorem co_siWrite (offset value : U32) : (Si.write s offset value).cops = s.cops := by
  unfold Si.write
  split
  · rfl
  · exact co_dmaFromPif s
  · exact co_dmaToPif s
  · rfl
  · rfl

end Si

theorem co_viWrite (offset value : U32) : (Vi.write s offset value).cops = s.cops := by
  simp only [Vi.write]
  split_ifs <;> rfl

theorem co_aiWrite (offset value : U32) : (Ai.write s offset value).cops = s.cops := by
  unfold Ai.write
  split <;> rfl

theorem co_miWrite (offset value : U32) : (Mi.write s offset value).cops = s.cops := by
  unfold Mi.write
  split <;> rfl

section Ticks

theorem co_viTick (d : Cycles) : (Vi.tick s d).cops = s.cops := by
  simp only [Vi.tick]
  split
  · rfl
  · refine whileDo_preserves (fun t : Sys => t.cops = s.cops) _ rfl fun t _ same => ?_
    simp only [Vi.tickLine]
    split
    · exact same
    · exact same

theorem co_aiTick (d : Cycles) : (Ai.tick s d).cops = s.cops := by
  have finished (t : Sys) : (Ai.finishCurrentDma t).cops = t.cops := by
    simp only [Ai.finishCurrentDma]
    split <;> rfl
  simp only [Ai.tick]
  split
  · rfl
  · split
    · exact finished _
    · rfl

theorem co_tickDevices (d : Cycles) : (Emulator.tickDevices d s).cops = s.cops :=
  (co_aiTick _ d).trans (co_viTick s d)

end Ticks

theorem sp_of {s t : Sys} (same : t.cops = s.cops) : t.sp = s.sp :=
  congrArg Coprocessors.sp same

theorem rdp_of {s t : Sys} (same : t.cops = s.cops) : t.rdp = s.rdp :=
  congrArg Coprocessors.rdp same

section Dp

theorem sp_drew {s t : Sys} (h : Rdp.Drew s t) : t.sp = s.sp := by
  rw [h.rest]
  rfl

theorem sp_listEnded (d : DpRegisters) (done : U32) :
    (Mi.raise (DpRegs.setStatus (DpRegs.clearStatus { s with bus.dpRegs := d } done)
      DpRegisters.StCbufReady) MiIntr.DP).sp = s.sp := rfl

theorem sp_runCommands : (DpRegs.runCommands s).sp = s.sp := by
  unfold DpRegs.runCommands
  refine (sp_listEnded _ _ _).trans ?_
  refine (sp_drew (Rdp.Drew.runCommandList _ _ _ _)).trans ?_
  rfl

theorem sp_dpWriteStatus (value : U32) : (DpRegs.writeStatus s value).sp = s.sp := by
  refine onBit_preserves (fun t : Sys => t.sp = s.sp) ?_ id
  refine onBit_preserves (fun t : Sys => t.sp = s.sp) ?_ id
  refine onBit_preserves (fun t : Sys => t.sp = s.sp) ?_ id
  refine onBit_preserves (fun t : Sys => t.sp = s.sp) ?_ id
  refine onBit_preserves (fun t : Sys => t.sp = s.sp) ?_ id
  exact onBit_preserves (fun t : Sys => t.sp = s.sp) rfl id

theorem sp_dpWrite (offset value : U32) : (DpRegs.write s offset value).sp = s.sp := by
  unfold DpRegs.write
  split
  · rfl
  · dsimp only
    split
    · exact sp_runCommands _
    · rfl
  · exact sp_dpWriteStatus s value
  · rfl

end Dp

end Sys

end N64
