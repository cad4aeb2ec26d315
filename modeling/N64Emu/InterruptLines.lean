import N64Emu.DeviceInvariant
import N64Emu.Boot

/-!
# The interrupt lines

A pending interrupt is kept three times: in the status register of the PI and
the SI, in MI_INTR, and as the level on Cause.IP2. A device that changes its
own copy raises or clears the MI bit with it, and every change of MI_INTR or of
the mask ends in the callback that sets the level.
-/

set_option autoImplicit false

namespace N64

open Words Loops

/-- The PI and SI status registers show their bits of MI_INTR. -/
structure Requests (pi si intr : U32) : Prop where
  pi : (pi &&& Pi.StatusIntr != 0) = (intr &&& MiIntr.PI != 0)
  si : (si &&& Si.StatusIntr != 0) = (intr &&& MiIntr.SI != 0)

/-- Cause.IP2 is the level of the MI, and the devices agree with MI_INTR. -/
structure Lines (s : Sys) : Prop where
  cause : (s.cpu.cop0 Cop0Reg.Cause &&& CAUSE_IP2 != 0) = Mi.cpuIrqLevel s.bus.mi
  requests : Requests s.bus.pi.status s.bus.si.status s.bus.mi.intr

section Level

variable {s : Sys}

theorem cause_setRcpInterrupt (c : Cpu) (level : Bool) :
    ((c.setRcpInterrupt level).cop0 Cop0Reg.Cause &&& CAUSE_IP2 != 0) = level := by
  cases level with
  | true =>
    simp only [Cpu.setRcpInterrupt, Cpu.setCop0Reg, if_true, Function.update_self]
    exact testBit_or_self _ rfl (by decide)
  | false =>
    simp only [Cpu.setRcpInterrupt, Cpu.setCop0Reg, Bool.false_eq_true, if_false,
      Function.update_self]
    exact testBit_clear_self _ rfl

theorem lines_notify (requests : Requests s.bus.pi.status s.bus.si.status s.bus.mi.intr) :
    Lines (Mi.notify s) :=
  ⟨cause_setRcpInterrupt _ _, requests⟩

/-- An interrupt bit that belongs to neither the PI nor the SI. -/
def OtherSource (bit : U32) : Prop := bit &&& MiIntr.PI = 0 ∧ bit &&& MiIntr.SI = 0

theorem Lines.raise {bit : U32} (k : Lines s) (other : OtherSource bit) :
    Lines (Mi.raise s bit) := by
  apply lines_notify
  exact ⟨k.requests.pi.trans (testBit_or_other _ other.1).symm,
    k.requests.si.trans (testBit_or_other _ other.2).symm⟩

theorem Lines.clear {bit : U32} (k : Lines s) (other : OtherSource bit) :
    Lines (Mi.clear s bit) := by
  apply lines_notify
  exact ⟨k.requests.pi.trans (testBit_clear_other _ other.1).symm,
    k.requests.si.trans (testBit_clear_other _ other.2).symm⟩

theorem Lines.raiseSp (k : Lines s) : Lines (Mi.raise s MiIntr.SP) := k.raise ⟨rfl, rfl⟩

theorem Lines.raiseDp (k : Lines s) : Lines (Mi.raise s MiIntr.DP) := k.raise ⟨rfl, rfl⟩

theorem Lines.same {t : Sys} (k : Lines s)
    (kept : (t.cpu, t.bus.mi, t.bus.pi.status, t.bus.si.status) =
      (s.cpu, s.bus.mi, s.bus.pi.status, s.bus.si.status)) : Lines t := by
  simp only [Prod.mk.injEq] at kept
  obtain ⟨cpu, mi, pi, si⟩ := kept
  constructor
  · rw [cpu, mi]
    exact k.cause
  · rw [mi, pi, si]
    exact k.requests

theorem Lines.frame {ps : List Part} {t : Sys} (k : Lines s) (h : Frame ps s t)
    (out : .irq ∉ ps) : Lines t :=
  k.same (h.parts .irq out)

theorem Lines.unwatched {t : Sys} (k : Lines s) (h : Frame [] s t) : Lines t :=
  k.frame h List.not_mem_nil

end Level

namespace Lines

variable {s : Sys} (k : Lines s)
include k

theorem miWrite (offset value : U32) : Lines (Mi.write s offset value) := by
  unfold Mi.write
  split
  · exact ⟨k.cause, k.requests⟩
  · exact lines_notify k.requests
  · exact k

/-- The end of a transfer sets the PI's status bit and raises its MI bit. -/
theorem piFinishDma : Lines (Pi.finishDma s) := by
  apply lines_notify
  constructor
  · exact (testBit_or_self _ rfl (by decide)).trans (testBit_or_self _ rfl (by decide)).symm
  · exact k.requests.si.trans (testBit_or_other _ rfl).symm

theorem piBusy : Lines (Pi.setDmaBusy s) :=
  ⟨k.cause, ⟨(testBit_or_other _ rfl).trans k.requests.pi, k.requests.si⟩⟩

theorem piAdvance (dram cart length : U32) : Lines (Pi.advance s dram cart length) := by
  apply piFinishDma
  exact k.same rfl

theorem startDmaToRdram : Lines (Pi.startDmaToRdram s) := by
  apply piAdvance
  refine Lines.unwatched ?_ (frame_notifyMemoryWrite _ _ _)
  exact k.piBusy.unwatched (Frame.upTo _ _ fun i t => frame_setRdramByte t _ _)

theorem startDmaToCart : Lines (Pi.startDmaToCart s) := by
  apply piAdvance
  exact k.piBusy.unwatched (Frame.upTo _ _ fun i t => frame_cartWriteByte t _ _)

theorem piWriteStatus (value : U32) : Lines (Pi.writeStatus s value) := by
  have reset : Lines
      (if value &&& Pi.WrReset ≠ 0 then
        { s with bus.pi.status := s.bus.pi.status &&&
            ~~~(Pi.StatusDmaBusy ||| Pi.StatusIoBusy ||| Pi.StatusError) }
      else s) := by
    split
    · exact ⟨k.cause, ⟨(testBit_clear_other _ rfl).trans k.requests.pi, k.requests.si⟩⟩
    · exact k
  simp only [Pi.writeStatus]
  by_cases acknowledge : value &&& Pi.WrClrIntr ≠ 0
  · rw [if_pos acknowledge]
    apply lines_notify
    constructor
    · exact (testBit_clear_self _ rfl).trans (testBit_clear_self _ rfl).symm
    · exact reset.requests.si.trans (testBit_clear_other _ rfl).symm
  · rw [if_neg acknowledge]
    exact reset

theorem piWrite (offset value : U32) : Lines (Pi.write s offset value) := by
  unfold Pi.write
  split
  case h_3 => exact startDmaToRdram (k.same rfl)
  case h_4 => exact startDmaToCart (k.same rfl)
  case h_5 => exact k.piWriteStatus value
  case h_14 => exact k
  all_goals exact k.same rfl

theorem siFinishDma : Lines (Si.finishDma s) := by
  apply lines_notify
  constructor
  · exact k.requests.pi.trans (testBit_or_other _ rfl).symm
  · exact (testBit_or_self _ rfl (by decide)).trans (testBit_or_self _ rfl (by decide)).symm

theorem siBusy : Lines (Si.setDmaBusy s) :=
  ⟨k.cause, ⟨k.requests.pi, (testBit_or_other _ rfl).trans k.requests.si⟩⟩

theorem siDmaBytes (length : U32) : Lines { s with bus.si.lastDmaBytes := length } := k.same rfl

theorem dmaFromPif : Lines (Si.dmaFromPif s) := by
  have ran := k.siBusy.frame (frame_siRunRequested _) (by decide)
  apply siFinishDma
  apply siDmaBytes
  refine Lines.frame ?_ (frame_mirrorPif _) (by decide)
  refine Lines.unwatched ?_ (frame_notifyMemoryWrite _ _ _)
  refine Lines.unwatched ?_ (Frame.upTo _ _ fun i t => frame_setRdramByte t _ _)
  exact ran

theorem dmaToPif : Lines (Si.dmaToPif s) := by
  have loaded (dram : U32) (n : ℕ) : Lines (upTo (fun i t =>
      t.pokePif i (t.bus.rdramByte (dram + BitVec.ofNat 32 i))) n (Si.setDmaBusy s)) :=
    upTo_preserves Lines n k.siBusy fun i _ t h => h.frame (frame_pokePif t i _) (by decide)
  have mirrored (dram : U32) (n : ℕ) := (loaded dram n).frame (frame_mirrorPif _) (by decide)
  have answered (dram : U32) (n : ℕ) :=
    ((mirrored dram n).frame (frame_processJoybus _) (by decide)).frame (frame_mirrorPif _)
      (by decide)
  apply siFinishDma
  apply siDmaBytes
  split
  · exact answered _ _
  · exact mirrored _ _

theorem siWrite (offset value : U32) : Lines (Si.write s offset value) := by
  unfold Si.write
  split
  · exact k.same rfl
  · exact k.dmaFromPif
  · exact k.dmaToPif
  · apply lines_notify
    constructor
    · exact k.requests.pi.trans (testBit_clear_other _ rfl).symm
    · exact (testBit_clear_self _ rfl).trans (testBit_clear_self _ rfl).symm
  · exact k

theorem viWrite (offset value : U32) : Lines (Vi.write s offset value) := by
  simp only [Vi.write]
  split_ifs
  · exact k
  · apply Lines.clear
    · exact k.same rfl
    · exact ⟨rfl, rfl⟩
  · exact k.same rfl
  · exact k.same rfl

theorem aiWrite (offset value : U32) : Lines (Ai.write s offset value) := by
  unfold Ai.write
  split
  case h_1 => exact k.clear ⟨rfl, rfl⟩
  case h_7 => exact k
  all_goals exact k.same rfl

end Lines

section Display

variable {s : Sys} (k : Lines s)
include k

theorem Lines.executeCommand (cmd : U64) : Lines (Rdp.executeCommand s cmd) := by
  have counted : Lines (Rdp.countCommand s) := k.same rfl
  simp only [Rdp.executeCommand]
  split
  case h_1 => exact counted.raiseDp
  case h_4 => exact counted.unwatched (frame_cmdFillRectangle _ cmd)
  all_goals exact counted.same rfl

theorem Lines.runList (xbusDmem : Bool) (stop : U32) (fuel : ℕ) (pc : U32) :
    Lines (Rdp.runList xbusDmem stop fuel pc s) := by
  induction fuel generalizing pc s with
  | zero => exact k
  | succ fuel ih =>
    have first := k.unwatched (frame_readCmd64 s pc xbusDmem)
    simp only [Rdp.runList]
    split_ifs
    · exact first
    · apply ih
      exact (first.unwatched (frame_readCmd64 _ _ _)).unwatched (frame_executeCommandPair _ _ _)
    · apply ih
      exact first.executeCommand _
    · exact k

theorem Lines.runCommandList (start end_ : U32) (xbusDmem : Bool) :
    Lines (Rdp.runCommandList s start end_ xbusDmem) := by
  simp only [Rdp.runCommandList]
  split
  · exact k
  · have started : Lines { s with rdp.busy := true } := k.same rfl
    exact (started.runList _ _ _ _).same rfl

theorem Lines.setDp (d : DpRegisters) : Lines { s with bus.dpRegs := d } :=
  k.unwatched (frame_setDp s d)

theorem Lines.runCommands : Lines (DpRegs.runCommands s) := by
  have started : Lines (DpRegs.clearStatus
      (DpRegs.setStatus s (DpRegisters.StCmdBusy ||| DpRegisters.StPipeBusy))
      DpRegisters.StCbufReady) := k.same rfl
  have ran := started.runCommandList s.bus.dpRegs.start s.bus.dpRegs.end_
  apply Lines.raiseDp
  apply Lines.setDp
  apply Lines.setDp
  apply Lines.setDp
  exact ran _

theorem Lines.dpFlush : Lines (DpRegs.flush s) := by
  apply Lines.raiseDp
  exact k.same rfl

theorem Lines.dpWriteStatus (value : U32) : Lines (DpRegs.writeStatus s value) := by
  refine onBit_preserves Lines ?_ fun h => h.dpFlush
  refine onBit_preserves Lines ?_ fun h => h.same rfl
  refine onBit_preserves Lines ?_ fun h => h.same rfl
  refine onBit_preserves Lines ?_ fun h => h.same rfl
  refine onBit_preserves Lines ?_ fun h => h.same rfl
  exact onBit_preserves Lines k fun h => h.same rfl

theorem Lines.dpWrite (offset value : U32) : Lines (DpRegs.write s offset value) := by
  unfold DpRegs.write
  split
  · exact k.same rfl
  · have loaded : Lines (DpRegs.setStatus
        { s with bus.dpRegs.end_ := value &&& 0x00FFFFF8 } DpRegisters.StEndValid) := k.same rfl
    simp only []
    split
    · exact loaded.runCommands
    · exact loaded
  · exact k.dpWriteStatus value
  · exact k

end Display

section Signal

variable {s : Sys} (k : Lines s)
include k

theorem Lines.setSp (r : SpRegisters) : Lines { s with bus.spRegs := r } := k.same rfl

theorem Lines.doDma (toSp : Bool) (lenReg : U32) : Lines (SpRegs.doDma s toSp lenReg) := by
  have busy : Lines (SpRegs.setDmaBusy s) := k.same rfl
  have lines (imem : Bool) (d : SpRegs.SpDmaLen) (n : ℕ) (t : SpRegs.DmaState)
      (start : t.sys = SpRegs.setDmaBusy s) :
      Lines (upTo (fun _ u => SpRegs.dmaLine toSp imem d u) n t).sys := by
    refine Lines.frame (start ▸ busy) (frame_dmaLines toSp imem d n t) ?_
    cases toSp <;> cases imem <;> decide
  apply Lines.raiseSp
  apply Lines.setSp
  exact (lines _ _ _ _ rfl).frame (frame_copyToRsp _ _) (by decide)

theorem Lines.signalStep (value : U32) (i : ℕ) : Lines (SpRegs.signalStep value i s) := by
  simp only [SpRegs.signalStep]
  refine onBit_preserves Lines ?_ fun h => h.same rfl
  exact onBit_preserves Lines k fun h => h.same rfl

theorem Lines.applyStatusWrite (value : U32) : Lines (SpRegs.applyStatusWrite s value) := by
  refine upTo_preserves Lines 8 ?_ fun i _ t h => h.signalStep value i
  refine onBit_preserves Lines ?_ fun h => h.same rfl
  refine onBit_preserves Lines ?_ fun h => h.same rfl
  refine onBit_preserves Lines ?_ fun h => h.same rfl
  refine onBit_preserves Lines ?_ fun h => h.same rfl
  refine onBit_preserves Lines ?_ fun h => h.raiseSp
  refine onBit_preserves Lines ?_ fun h => h.clear ⟨rfl, rfl⟩
  refine onBit_preserves Lines ?_ fun h => h.same rfl
  refine onBit_preserves Lines ?_ fun h => h.same rfl
  exact onBit_preserves Lines k fun h => h.same rfl

theorem Lines.spWrite (offset value : U32) : Lines (SpRegs.write s offset value) := by
  unfold SpRegs.write
  split
  case h_3 => exact k.doDma true value
  case h_4 => exact k.doDma false value
  case h_5 => exact k.applyStatusWrite value
  case h_7 => exact k
  all_goals exact k.same rfl

end Signal

theorem lines_devices : DeviceInvariant Lines where
  unwatched := fun h k => k.unwatched h
  spWrite := fun offset value k => k.spWrite offset value
  dpWrite := fun offset value k => k.dpWrite offset value
  miWrite := fun offset value k => k.miWrite offset value
  viWrite := fun offset value k => k.viWrite offset value
  aiWrite := fun offset value k => k.aiWrite offset value
  piWrite := fun offset value k => k.piWrite offset value
  siWrite := fun offset value k => k.siWrite offset value
  storeDmem := fun off b k => k.frame (frame_storeDmem _ off b) (by decide)
  storeImem := fun off b k => k.frame (frame_storeImem _ off b) (by decide)
  storePifRam := fun off b k => k.frame (frame_storePifRam _ off b) (by decide)

section Step

variable {s : Sys} (k : Lines s)
include k

theorem Lines.quietRsp {r : Rsp} (h : Rsp.Quiet s.rsp r) : Lines { s with rsp := r } :=
  k.unwatched (Rsp.frame_quiet s h)

theorem Lines.pushMemToBus : Lines s.pushMemToBus := k.same rfl

theorem Lines.doBreak : Lines (Rsp.doBreak s) := by
  simp only [Rsp.doBreak, SpRegs.notifyBreak]
  split
  · apply Lines.raiseSp
    exact k.same rfl
  · exact k.same rfl

theorem Lines.moveToCop0 (rdF : ℕ) (val : U32) : Lines (Rsp.moveToCop0 s rdF val) := by
  have written := k.spWrite (BitVec.ofNat 32 (rdF * 4)) val
  simp only [Rsp.moveToCop0]
  split_ifs
  · exact written.same rfl
  · exact written
  · exact k.dpWrite _ val
  · exact k

theorem Lines.executeRsp (insn : U32) : Lines (Rsp.execute s insn) := by
  unfold Rsp.execute
  split
  · unfold Rsp.execSpecial
    split
    · exact k.doBreak
    · exact k.quietRsp (Rsp.quiet_execSpecialReg insn)
  · simp only [Rsp.execCop0]
    split_ifs
    · exact (k.unwatched (Rsp.frame_moveFromCop0 s _)).quietRsp (Rsp.quiet_writeGpr _ _)
    · exact k.moveToCop0 _ _
    · exact k
  · exact k.frame (Rsp.frame_storeByte s _ _) (by decide)
  · exact k.frame (Rsp.frame_storeHalf s _ _) (by decide)
  · exact k.frame (Rsp.frame_storeWord s _ _) (by decide)
  · exact k.frame (Rsp.frame_storeWord s _ _) (by decide)
  · exact k.frame (Rsp.frame_storeWord s _ _) (by decide)
  · exact k.frame (Rsp.frame_execVectorMemory s insn false) (by decide)
  · exact k.frame (Rsp.frame_execVectorMemory s insn true) (by decide)
  · exact k.quietRsp (Rsp.quiet_executeReg insn)

theorem Lines.rspStep : Lines (Rsp.step s) := by
  have entered : Lines { s with rsp := Rsp.enterStep s.rsp } := k.quietRsp Rsp.quiet_enterStep
  simp only [Rsp.step]
  split
  · exact k.same rfl
  · have executed := entered.executeRsp (Rsp.fetch s.rsp s.rsp.pc)
    split
    · exact executed.same rfl
    · exact executed.same rfl

theorem Lines.tickLine : Lines (Vi.tickLine s) := by
  simp only [Vi.tickLine]
  split
  · apply Lines.raise
    · exact k.same rfl
    · exact ⟨rfl, rfl⟩
  · exact k.same rfl

theorem Lines.viTick (cpuCycles : Cycles) : Lines (Vi.tick s cpuCycles) := by
  simp only [Vi.tick]
  split
  · exact k
  · exact whileDo_preserves Lines _ (k.same rfl) fun t _ h => h.tickLine

theorem Lines.finishCurrentDma : Lines (Ai.finishCurrentDma s) := by
  have raised (a : AudioInterface) : Lines (Mi.raise { s with ai := a } MiIntr.AI) := by
    apply Lines.raise
    · exact k.same rfl
    · exact ⟨rfl, rfl⟩
  simp only [Ai.finishCurrentDma]
  split
  · exact (raised _).same rfl
  · exact (raised _).same rfl

theorem Lines.aiTick (cpuCycles : Cycles) : Lines (Ai.tick s cpuCycles) := by
  simp only [Ai.tick]
  split
  · exact k
  · split
    · apply Lines.finishCurrentDma
      exact k.same rfl
    · exact k.same rfl

end Step

theorem lines_reset (s : Sys) : Lines s.reset := by
  have idle : Requests 0 0 0 := ⟨by decide, by decide⟩
  have quiet : (0#32 &&& CAUSE_IP2 != 0) = (0#32 &&& 0#32 != 0) := by decide
  exact ⟨quiet, idle⟩

end N64
