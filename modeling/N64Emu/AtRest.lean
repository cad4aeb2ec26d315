import N64Emu.DeviceSide
import N64Emu.RdpReach

/-!
# No device is seen busy

Every transfer and every command list ends inside the register access that
starts it. Between two accesses no status register shows work under way, so a
program that waits for a device leaves its loop at the first look.
-/

set_option autoImplicit false

namespace N64

open Words Loops

def SpRegs.busyBits : U32 := SpRegisters.StDmaBusy ||| SpRegisters.StDmaFull

def Pi.busyBits : U32 := Pi.StatusDmaBusy ||| Pi.StatusIoBusy ||| Pi.StatusError

def DpRegs.busyBits : U32 :=
  DpRegisters.StCmdBusy ||| DpRegisters.StPipeBusy ||| DpRegisters.StDmaBusy

/-- What shows the devices at work. -/
structure Work where
  sp : U32
  pi : U32
  si : U32
  dp : U32
  rdp : Bool

namespace Work

structure Done (w : Work) : Prop where
  sp : w.sp &&& SpRegs.busyBits = 0
  pi : w.pi &&& Pi.busyBits = 0
  si : w.si &&& Si.StatusDmaBusy = 0
  dp : w.dp &&& DpRegs.busyBits = 0
  ready : w.dp &&& DpRegisters.StCbufReady ≠ 0
  rdp : w.rdp = false

end Work

namespace Sys

def work (s : Sys) : Work :=
  { sp := s.bus.spRegs.status
    pi := s.bus.pi.status
    si := s.bus.si.status
    dp := s.bus.dpRegs.status
    rdp := s.rdp.busy }

def AtRest (s : Sys) : Prop := s.work.Done

end Sys

section Bits

variable {w : ℕ} {x m : BitVec w}

theorem clear_and (clear : x &&& m = 0) (y : BitVec w) : x &&& y &&& m = 0 := by
  rw [BitVec.and_assoc, BitVec.and_comm y, ← BitVec.and_assoc, clear]
  exact BitVec.zero_and

theorem clear_part {part : BitVec w} (clear : x &&& m = 0) (inside : m &&& part = part) :
    x &&& part = 0 := by
  rw [← inside, ← BitVec.and_assoc, clear]
  exact BitVec.zero_and

theorem clear_or {y : BitVec w} (clear : x &&& m = 0) (other : y &&& m = 0) :
    (x ||| y) &&& m = 0 := (or_and_of_disjoint x other).trans clear

theorem clear_again (clear : x &&& m = 0) (busy : BitVec w) :
    (x ||| busy) &&& ~~~busy &&& m = 0 := by
  rw [or_andNot_self]
  exact clear_and clear _

end Bits

namespace Sys

variable {s t : Sys}

theorem AtRest.same (h : AtRest s) (same : t.work = s.work) : AtRest t := by
  unfold AtRest
  rw [same]
  exact h

section Pi

theorem work_piBytes (n : ℕ) (f : ℕ → Sys → U32) (g : ℕ → Sys → U8) (s : Sys) :
    (upTo (fun i t => t.setRdramByte (f i t) (g i t)) n s).work = s.work :=
  upTo_untouched Sys.work n s fun i _ t => by
    unfold Sys.setRdramByte
    split <;> rfl

theorem work_cartBytes (n : ℕ) (f : ℕ → Sys → U32) (g : ℕ → Sys → U8) (s : Sys) :
    (upTo (fun i t => t.cartWriteByte (f i t) (g i t)) n s).work = s.work :=
  upTo_untouched Sys.work n s fun i _ t => by
    unfold Sys.cartWriteByte
    split <;> rfl

theorem work_notifyMemoryWrite (p : PhysicalAddress) (n : U32) :
    (s.notifyMemoryWrite p n).work = s.work := by
  unfold Sys.notifyMemoryWrite
  split <;> rfl

theorem AtRest.piFinished (h : AtRest s) (same : t.work = (Pi.setDmaBusy s).work) :
    AtRest (Pi.finishDma t) := by
  have pi : t.bus.pi.status = s.bus.pi.status ||| Pi.StatusDmaBusy := congrArg Work.pi same
  have rest : (Pi.finishDma t).work = { s.work with
      pi := (t.bus.pi.status &&& ~~~Pi.StatusDmaBusy) ||| Pi.StatusIntr } := by
    show Work.mk t.work.sp _ t.work.si t.work.dp t.work.rdp = _
    rw [same]
    rfl
  unfold AtRest
  rw [rest, pi]
  exact { h with pi := clear_or (clear_again h.pi _) (by decide) }

theorem AtRest.startDmaToRdram (h : AtRest s) : AtRest (Pi.startDmaToRdram s) := by
  refine AtRest.piFinished h ?_
  exact (work_notifyMemoryWrite _ _).trans (work_piBytes _ _ _ _)

theorem AtRest.startDmaToCart (h : AtRest s) : AtRest (Pi.startDmaToCart s) :=
  AtRest.piFinished h (work_cartBytes _ _ _ _)

theorem AtRest.piWriteStatus (h : AtRest s) (value : U32) : AtRest (Pi.writeStatus s value) := by
  have cleared (t : Sys) (k : AtRest t) (bits : U32) :
      AtRest { t with bus.pi.status := t.bus.pi.status &&& bits } :=
    { k with pi := clear_and k.pi bits }
  have reset : AtRest
      (if value &&& Pi.WrReset ≠ 0 then
        { s with bus.pi.status := s.bus.pi.status &&&
            ~~~(Pi.StatusDmaBusy ||| Pi.StatusIoBusy ||| Pi.StatusError) }
      else s) := by
    split
    · exact cleared s h _
    · exact h
  simp only [Pi.writeStatus]
  by_cases acknowledge : value &&& Pi.WrClrIntr ≠ 0
  · rw [if_pos acknowledge]
    exact cleared _ reset _
  · rw [if_neg acknowledge]
    exact reset

theorem AtRest.piWrite (h : AtRest s) (offset value : U32) : AtRest (Pi.write s offset value) := by
  unfold Pi.write
  split
  case h_3 => exact AtRest.startDmaToRdram h
  case h_4 => exact AtRest.startDmaToCart h
  case h_5 => exact h.piWriteStatus value
  all_goals exact h

end Pi

section Si

theorem AtRest.siFinished (h : AtRest s) (same : t.work = (Si.setDmaBusy s).work) (n : U32) :
    AtRest (Si.finishDma { t with bus.si.lastDmaBytes := n }) := by
  have si : t.bus.si.status = s.bus.si.status ||| Si.StatusDmaBusy := congrArg Work.si same
  have rest : (Si.finishDma { t with bus.si.lastDmaBytes := n }).work = { s.work with
      si := (t.bus.si.status &&& ~~~Si.StatusDmaBusy) ||| Si.StatusIntr } := by
    show Work.mk t.work.sp t.work.pi _ t.work.dp t.work.rdp = _
    rw [same]
    rfl
  unfold AtRest
  rw [rest, si]
  exact { h with si := clear_or (clear_again h.si _) (by decide) }

theorem work_mirrorPif : s.mirrorPif.work = s.work := rfl

theorem work_runRequested : (Si.runRequested s).work = s.work := by
  unfold Si.runRequested
  split <;> rfl

theorem AtRest.dmaFromPif (h : AtRest s) : AtRest (Si.dmaFromPif s) := by
  simp only [Si.dmaFromPif]
  refine AtRest.siFinished h ?_ _
  rw [work_mirrorPif, work_notifyMemoryWrite, work_piBytes, work_runRequested]

theorem AtRest.dmaToPif (h : AtRest s) : AtRest (Si.dmaToPif s) := by
  have loaded (dram : U32) (n : ℕ) : (upTo (fun i (t : Sys) =>
      t.pokePif i (t.bus.rdramByte (dram + BitVec.ofNat 32 i))) n (Si.setDmaBusy s)).work =
      (Si.setDmaBusy s).work :=
    upTo_untouched Sys.work n _ fun _ _ _ => rfl
  have answered (t : Sys) :
      (if t.pif.processRequested then t.processJoybus.mirrorPif else t).work = t.work := by
    split <;> rfl
  simp only [Si.dmaToPif]
  refine AtRest.siFinished h ?_ _
  rw [answered, work_mirrorPif, loaded]

theorem AtRest.siWrite (h : AtRest s) (offset value : U32) : AtRest (Si.write s offset value) := by
  unfold Si.write
  split
  · exact h
  · exact h.dmaFromPif
  · exact h.dmaToPif
  · exact { h with si := clear_and h.si _ }
  · exact h

end Si

section Sp

theorem work_dmaByte (toSp imem : Bool) (mem dram : U32) (i : ℕ) :
    (SpRegs.dmaByte toSp imem mem dram i s).work = s.work := by
  simp only [SpRegs.dmaByte, SpRegs.setSpmem, Sys.setRdramByte]
  split_ifs <;> rfl

theorem work_dmaLine (toSp imem : Bool) (d : SpRegs.SpDmaLen) (t : SpRegs.DmaState) :
    (SpRegs.dmaLine toSp imem d t).sys.work = t.sys.work := by
  have bytes := upTo_untouched Sys.work d.length.toNat t.sys
    fun i _ u => work_dmaByte (s := u) toSp imem t.mem t.dram i
  simp only [SpRegs.dmaLine]
  split
  · exact (work_notifyMemoryWrite _ _).trans bytes
  · exact (work_notifyMemoryWrite _ _).trans bytes

theorem AtRest.doDma (h : AtRest s) (toSp : Bool) (lenReg : U32) :
    AtRest (SpRegs.doDma s toSp lenReg) := by
  have lines (imem : Bool) (d : SpRegs.SpDmaLen) (n : ℕ) (t : SpRegs.DmaState) :
      (upTo (fun _ u => SpRegs.dmaLine toSp imem d u) n t).sys.work = t.sys.work :=
    upTo_untouched (fun u : SpRegs.DmaState => u.sys.work) n t
      fun _ _ u => work_dmaLine toSp imem d u
  have copied (imem : Bool) (t : Sys) : (SpRegs.copyToRsp t imem).work = t.work := by
    unfold SpRegs.copyToRsp
    split <;> rfl
  have finished (t : Sys) (same : t.work = (SpRegs.setDmaBusy s).work) (r : SpRegisters)
      (last : r.status = t.bus.spRegs.status &&& ~~~SpRegisters.StDmaBusy) :
      AtRest (Mi.raise { t with bus.spRegs := r } MiIntr.SP) := by
    have sp : t.bus.spRegs.status = s.bus.spRegs.status ||| SpRegisters.StDmaBusy :=
      congrArg Work.sp same
    have rest : (Mi.raise { t with bus.spRegs := r } MiIntr.SP).work =
        { s.work with sp := r.status } := by
      show Work.mk r.status t.work.pi t.work.si t.work.dp t.work.rdp = _
      rw [same]
      rfl
    unfold AtRest
    rw [rest, last, sp]
    exact { h with sp := clear_again h.sp _ }
  simp only [SpRegs.doDma]
  exact finished _ ((copied _ _).trans (lines _ _ _ _)) _ rfl

theorem AtRest.setSpStatus (h : AtRest s) (bits : U32) (other : bits &&& SpRegs.busyBits = 0) :
    AtRest (SpRegs.setStatus s bits) := { h with sp := clear_or h.sp other }

theorem AtRest.clearSpStatus (h : AtRest s) (bits : U32) : AtRest (SpRegs.clearStatus s bits) :=
  { h with sp := clear_and h.sp _ }

theorem AtRest.signalStep (h : AtRest s) (value : U32) {i : ℕ} (hi : i < 8) :
    AtRest (SpRegs.signalStep value i s) := by
  have other : SpRegisters.StSignal0 <<< i &&& SpRegs.busyBits = 0 := by
    interval_cases i <;> decide
  simp only [SpRegs.signalStep]
  refine onBit_preserves AtRest ?_ fun k => k.setSpStatus _ other
  exact onBit_preserves AtRest h fun k => k.clearSpStatus _

theorem AtRest.applyStatusWrite (h : AtRest s) (value : U32) :
    AtRest (SpRegs.applyStatusWrite s value) := by
  refine upTo_preserves AtRest 8 ?_ fun i hi t k => k.signalStep value hi
  refine onBit_preserves AtRest ?_ fun k => k.setSpStatus _ (by decide)
  refine onBit_preserves AtRest ?_ fun k => k.clearSpStatus _
  refine onBit_preserves AtRest ?_ fun k => k.setSpStatus _ (by decide)
  refine onBit_preserves AtRest ?_ fun k => k.clearSpStatus _
  refine onBit_preserves AtRest ?_ fun k => k
  refine onBit_preserves AtRest ?_ fun k => k
  refine onBit_preserves AtRest ?_ fun k => k.clearSpStatus _
  refine onBit_preserves AtRest ?_ fun k => k.setSpStatus _ (by decide)
  exact onBit_preserves AtRest h fun k => (k.clearSpStatus _).clearSpStatus _

theorem AtRest.spWrite (h : AtRest s) (offset value : U32) :
    AtRest (SpRegs.write s offset value) := by
  unfold SpRegs.write
  split
  case h_3 => exact h.doDma true value
  case h_4 => exact h.doDma false value
  case h_5 => exact h.applyStatusWrite value
  all_goals exact h

theorem AtRest.notifyBreak (h : AtRest s) (intrOnBreak : Bool) :
    AtRest (SpRegs.notifyBreak s intrOnBreak) := by
  have broken := h.setSpStatus (SpRegisters.StBroke ||| SpRegisters.StHalt) (by decide)
  simp only [SpRegs.notifyBreak]
  split
  · exact broken
  · exact broken

end Sp

section Dp

theorem AtRest.setDp (h : AtRest s) {d : DpRegisters} (done : d.status &&& DpRegs.busyBits = 0)
    (ready : d.status &&& DpRegisters.StCbufReady ≠ 0) : AtRest { s with bus.dpRegs := d } :=
  { h with dp := done, ready := ready }

theorem AtRest.setDpStatus (h : AtRest s) (bits : U32) (other : bits &&& DpRegs.busyBits = 0) :
    AtRest (DpRegs.setStatus s bits) := by
  refine { h with dp := clear_or h.dp other, ready := ?_ }
  intro clear
  have both := BitVec.and_or_distrib_right.symm.trans clear
  exact h.ready (BitVec.or_eq_zero_iff.mp both).1

theorem AtRest.clearDpStatus (h : AtRest s) {bits : U32}
    (other : bits &&& DpRegisters.StCbufReady = 0) : AtRest (DpRegs.clearStatus s bits) :=
  { h with
    dp := clear_and h.dp _
    ready := by
      have kept := andNot_and_of_disjoint s.bus.dpRegs.status other
      exact fun clear => h.ready (kept.symm.trans clear) }

theorem work_runCommandList (start end_ : U32) (xbusDmem : Bool) (idle : s.rdp.busy = false) :
    (Rdp.runCommandList s start end_ xbusDmem).work = s.work := by
  have drew := (Rdp.Drew.runCommandList s start end_ xbusDmem).rest
  have done : (Rdp.runCommandList s start end_ xbusDmem).rdp.busy = false := by
    simp only [Rdp.runCommandList]
    split
    · exact idle
    · rfl
  rw [drew]
  show Work.mk s.work.sp s.work.pi s.work.si s.work.dp _ = s.work
  rw [done, ← idle]
  rfl

/-- The end of a list drops the busy flags and shows the command buffer ready. -/
theorem AtRest.listEnded (h : AtRest s) (same : t.work = { s.work with dp := t.work.dp })
    (d : DpRegisters) {bits : U32} (all : ~~~bits &&& DpRegs.busyBits = 0) :
    AtRest (Mi.raise (DpRegs.setStatus (DpRegs.clearStatus { t with bus.dpRegs := d } bits)
      DpRegisters.StCbufReady) MiIntr.DP) := by
  have rest : (Mi.raise (DpRegs.setStatus (DpRegs.clearStatus { t with bus.dpRegs := d } bits)
      DpRegisters.StCbufReady) MiIntr.DP).work =
      { t.work with dp := (d.status &&& ~~~bits) ||| DpRegisters.StCbufReady } := rfl
  unfold AtRest
  rw [rest, same]
  refine { h with dp := ?_, ready := ?_ }
  · exact clear_or (andNot_and_of_subset _ all) (by decide)
  · exact (or_and_of_subset _ (by decide)).mpr (by decide)

theorem AtRest.runCommands (h : AtRest s) : AtRest (DpRegs.runCommands s) := by
  have ran (u : Sys) (same : u.work = { s.work with dp := u.work.dp }) (start end_ : U32)
      (xbus : Bool) : (Rdp.runCommandList u start end_ xbus).work = { s.work with
        dp := (Rdp.runCommandList u start end_ xbus).work.dp } := by
    have idle : u.rdp.busy = false := (congrArg Work.rdp same).trans h.rdp
    rw [work_runCommandList start end_ xbus idle]
    exact same
  unfold DpRegs.runCommands
  refine AtRest.listEnded h ?_ _ (by decide)
  refine ran _ ?_ _ _ _
  rfl

theorem AtRest.dpFlush (h : AtRest s) : AtRest (DpRegs.flush s) :=
  { h.setDpStatus DpRegisters.StFlush (by decide) with rdp := rfl }

theorem AtRest.dpWriteStatus (h : AtRest s) (value : U32) :
    AtRest (DpRegs.writeStatus s value) := by
  refine onBit_preserves AtRest ?_ fun k => k.dpFlush
  refine onBit_preserves AtRest ?_ fun k => k.clearDpStatus (by decide)
  refine onBit_preserves AtRest ?_ fun k => k.setDpStatus _ (by decide)
  refine onBit_preserves AtRest ?_ fun k => k.clearDpStatus (by decide)
  refine onBit_preserves AtRest ?_ fun k => k.setDpStatus _ (by decide)
  exact onBit_preserves AtRest h fun k => k.clearDpStatus (by decide)

theorem AtRest.dpWrite (h : AtRest s) (offset value : U32) :
    AtRest (DpRegs.write s offset value) := by
  unfold DpRegs.write
  split
  · exact AtRest.setDpStatus (s := { s with bus.dpRegs.start := _, bus.dpRegs.current := _ }) h _
      (by decide)
  · have loaded : AtRest (DpRegs.setStatus
        { s with bus.dpRegs.end_ := value &&& 0x00FFFFF8 } DpRegisters.StEndValid) :=
      AtRest.setDpStatus (s := { s with bus.dpRegs.end_ := value &&& 0x00FFFFF8 }) h _
        (by decide)
    dsimp only
    split
    · exact loaded.runCommands
    · exact loaded
  · exact h.dpWriteStatus value
  · exact h

end Dp

theorem AtRest.viWrite (h : AtRest s) (offset value : U32) : AtRest (Vi.write s offset value) := by
  simp only [Vi.write]
  split_ifs <;> exact h

theorem AtRest.aiWrite (h : AtRest s) (offset value : U32) : AtRest (Ai.write s offset value) := by
  unfold Ai.write
  split <;> exact h

theorem AtRest.miWrite (h : AtRest s) (offset value : U32) : AtRest (Mi.write s offset value) := by
  unfold Mi.write
  split <;> exact h

theorem AtRest.spWritePc (h : AtRest s) (offset value : U32) :
    AtRest (SpRegs.writePc s offset value) := by
  unfold SpRegs.writePc
  split <;> exact h

theorem AtRest.storePifRam (h : AtRest s) (off : ℕ) (b : U8) :
    AtRest (Bus.storePifRam s off b) := by
  unfold Bus.storePifRam
  split <;> exact h

theorem work_viTick (d : Cycles) : (Vi.tick s d).work = s.work := by
  simp only [Vi.tick]
  split
  · rfl
  · refine whileDo_preserves (fun t : Sys => t.work = s.work) _ rfl fun t _ same => ?_
    simp only [Vi.tickLine]
    split
    · exact same
    · exact same

theorem work_aiTick (d : Cycles) : (Ai.tick s d).work = s.work := by
  have finished (t : Sys) : (Ai.finishCurrentDma t).work = t.work := by
    simp only [Ai.finishCurrentDma]
    split <;> rfl
  simp only [Ai.tick]
  split
  · rfl
  · split
    · exact finished _
    · rfl

theorem work_tickDevices (d : Cycles) : (Emulator.tickDevices d s).work = s.work :=
  (work_aiTick d).trans (work_viTick d)

theorem atRest_reset (s : Sys) : AtRest s.reset where
  sp := (by decide : SpRegisters.StHalt &&& SpRegs.busyBits = 0)
  pi := (by decide : 0 &&& Pi.busyBits = 0)
  si := (by decide : 0 &&& Si.StatusDmaBusy = 0)
  dp := (by decide : DpRegisters.StCbufReady &&& DpRegs.busyBits = 0)
  ready := (by decide : DpRegisters.StCbufReady &&& DpRegisters.StCbufReady ≠ 0)
  rdp := rfl

end Sys

theorem atRest_bus : OutsideRsp Sys.AtRest where
  cpu := fun _ h => h
  relog := fun _ h => h
  takeSemaphore := fun h => h
  pokeRdram := fun _ _ h => h
  storeDmem := fun _ _ h => h
  storeImem := fun _ _ h => h
  storePifRam := fun off b h => h.storePifRam off b
  spWrite := fun offset value h => h.spWrite offset value
  spWritePc := fun offset value h => h.spWritePc offset value
  dpWrite := fun offset value h => h.dpWrite offset value
  miWrite := fun offset value h => h.miWrite offset value
  viWrite := fun offset value h => h.viWrite offset value
  aiWrite := fun offset value h => h.aiWrite offset value
  piWrite := fun offset value h => h.piWrite offset value
  riWrite := fun _ _ h => h
  siWrite := fun offset value h => h.siWrite offset value
  rsp := fun _ h => h
  pokeSpDmem := fun _ _ h => h
  pushMemToBus := fun h => h
  notifyBreak := fun intrOnBreak h => h.notifyBreak intrOnBreak

theorem atRest_devices : DevicesInvariant Sys.AtRest where
  toBusInvariant := atRest_bus.toBusInvariant
  rspStep := atRest_bus.rspStep
  tick := fun d h => h.same (Sys.work_tickDevices d)
  reset := Sys.atRest_reset
  pushMemToBus := fun h => h
  clearFrameReady := fun h => h
  loadCartridge := fun _ _ h => h
  loadPifRom := fun _ _ h => h
  seedPif := fun _ h => h
  mirrorPif := fun h => h
  resetRsp := fun h => h

namespace Sys

/-- The status registers as a program polls them. -/
structure Polled (s : Sys) : Prop where
  sp : (Bus.read32 s 0xA4040010).1 &&& SpRegs.busyBits = 0
  spFull : (Bus.read32 s 0xA4040014).1 = 0
  spBusy : (Bus.read32 s 0xA4040018).1 = 0
  dp : (Bus.read32 s 0xA410000C).1 &&& DpRegs.busyBits = 0
  dpReady : (Bus.read32 s 0xA410000C).1 &&& DpRegisters.StCbufReady ≠ 0
  pi : (Bus.read32 s 0xA4600010).1 &&& Pi.busyBits = 0
  si : (Bus.read32 s 0xA4800018).1 &&& Si.StatusDmaBusy = 0

theorem AtRest.polled {s : Sys} (h : AtRest s) : Polled s where
  sp := h.sp
  spFull := by
    have full : s.bus.spRegs.status &&& SpRegisters.StDmaFull = 0 := clear_part h.sp (by decide)
    exact if_neg (not_not.mpr full)
  spBusy := by
    have busy : s.bus.spRegs.status &&& SpRegisters.StDmaBusy = 0 := clear_part h.sp (by decide)
    exact if_neg (not_not.mpr busy)
  dp := h.dp
  dpReady := h.ready
  pi := h.pi
  si := h.si

end Sys

namespace Emulator

/-- After any loads, resets, boots, runs and bus accesses no device is seen busy. -/
theorem no_device_seen_busy (fp : HostFpu) (files : Files) (acts : List Act)
    (onBus : ∀ a ∈ acts, a.OnBus) :
    let s := (Runs.run (step fp) acts (construct files)).sys
    s.Polled ∧ s.rdp.busy = false := by
  have rest := (atRest_devices.runInvariant fp).holds files acts onBus
  exact ⟨rest.polled, rest.rdp⟩

/-- A load, transfers of the PI, the SI and the SP and a command list. -/
theorem no_device_seen_busy_transfers :
    let s := (Runs.run (step default) [.loadRomBytes (fun _ => none) [0x80, 0x37] {},
      .component (DeviceAct.piWrite 0x08 0x7F).perform,
      .component (DeviceAct.siWrite 0x10 0).perform,
      .component (DeviceAct.spWrite 0x08 0x1007).perform,
      .component (DeviceAct.dpWrite 0x00 0x100).perform,
      .component (DeviceAct.dpWrite 0x04 0x108).perform, .runFrame] (construct fun _ => none)).sys
    s.Polled ∧ s.rdp.busy = false := by
  apply no_device_seen_busy
  simp [Act.OnBus]

end Emulator

end N64
