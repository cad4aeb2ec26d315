import N64Emu.CommandPairs
import N64Emu.CpuExecute
import N64Emu.LowMasks

/-!
# Byte and halfword stores to the command registers

Four registers read as a state and are written with commands. A store of less
than a word reads the register, merges the stored bytes and writes the word
back, so the state outside the stored bytes comes back as commands. The store
acts like a word store with zeros outside exactly when these are redundant.
-/

set_option autoImplicit false

namespace N64

open Words Loops CommandPairs SpRegisters SpRegs

inductive CommandReg where
  | SpStatus | MiIntrMask | PiStatus | DpcStatus
  deriving DecidableEq

def CommandReg.addr : CommandReg → PhysicalAddress
  | .SpStatus => Mmio.SP_REGS_BASE + 0x10
  | .MiIntrMask => Mmio.MI_BASE + 0x0C
  | .PiStatus => Mmio.PI_BASE + 0x10
  | .DpcStatus => Mmio.DP_CMD_BASE + 0x0C

/-- The state a write to one of the registers can change, and the bus copies of
the SP memories. -/
structure RcpState where
  sp : SpRegisters
  mi : MipsInterface
  pi : PeripheralInterface
  dp : DpRegisters
  rsp : Rsp
  rdp : Rdp
  dmem : Bytes
  imem : Bytes

def Sys.rcp (s : Sys) : RcpState :=
  { sp := s.bus.spRegs
    mi := s.bus.mi
    pi := s.bus.pi
    dp := s.bus.dpRegs
    rsp := s.rsp
    rdp := s.rdp
    dmem := s.bus.spDmem
    imem := s.bus.spImem }

theorem onBit_id {σ : Type} (x command : U32) (a : σ) : onBit x command id a = a := by
  unfold onBit
  split
  · rfl
  · rfl

section SpWrite

/-- SP_STATUS after a write of `x`. -/
def spStatusAfter (x a : U32) : U32 :=
  let a := onBit x WrClearHalt (fun a => a &&& ~~~StHalt &&& ~~~StBroke) a
  let a := onBit x WrSetHalt (· ||| StHalt) a
  let a := onBit x WrClearBroke (· &&& ~~~StBroke) a
  let a := pairStep x WrClearSStep WrSetSStep StSingleStep a
  let a := pairStep x WrClearIntrBreak WrSetIntrBreak StIntrOnBreak a
  upTo (fun i => pairStep x (1#32 <<< (9 + i * 2)) (1#32 <<< (10 + i * 2)) (1#32 <<< (7 + i))) 8 a

def haltAfter (x : U32) (dmem imem : Bytes) (r : Rsp) : Rsp :=
  let r := onBit x WrClearHalt
    (fun r => { (r.setHalted false).setBroke false with dmem := dmem, imem := imem }) r
  let r := onBit x WrSetHalt (·.setHalted true) r
  onBit x WrClearBroke (·.setBroke false) r

/-- The RSP after a write of `x` to SP_STATUS. -/
def rspAfter (x : U32) (dmem imem : Bytes) (r : Rsp) : Rsp :=
  let r := onBit x WrClearIntrBreak (·.setIntrOnBreak false) (haltAfter x dmem imem r)
  onBit x WrSetIntrBreak (·.setIntrOnBreak true) r

/-- What one command of SP_STATUS does to the status, the pending bits and the RSP. -/
def RcpState.spCommand (status intr : U32 → U32) (rsp : Rsp → Rsp) (d : RcpState) : RcpState :=
  { d with sp.status := status d.sp.status, mi.intr := intr d.mi.intr, rsp := rsp d.rsp }

variable {x command : U32} {s : Sys}

theorem rcp_onBit (f : Sys → Sys) (status intr : U32 → U32) (rsp : Rsp → Rsp)
    (acts : (f s).rcp = s.rcp.spCommand status intr rsp) :
    (onBit x command f s).rcp =
      s.rcp.spCommand (onBit x command status) (onBit x command intr) (onBit x command rsp) := by
  by_cases carried : x &&& command = 0
  · have skip {σ : Type} (g : σ → σ) (a : σ) : onBit x command g a = a :=
      if_neg (not_not.mpr carried)
    simp only [RcpState.spCommand, skip]
  · have run {σ : Type} (g : σ → σ) (a : σ) : onBit x command g a = g a := if_pos carried
    simp only [RcpState.spCommand, run]
    exact acts

theorem rcp_signalStep (i : ℕ) : (signalStep x i s).rcp = s.rcp.spCommand
    (pairStep x (1#32 <<< (9 + i * 2)) (1#32 <<< (10 + i * 2)) (1#32 <<< (7 + i))) id id := by
  have bit : StSignal0 <<< i = 1#32 <<< (7 + i) := by
    rw [StSignal0, BitVec.shiftLeft_add]
  rw [signalStep, bit,
    rcp_onBit (setStatus · (1#32 <<< (7 + i))) (· ||| 1#32 <<< (7 + i)) id id rfl,
    rcp_onBit (clearStatus · (1#32 <<< (7 + i))) (· &&& ~~~(1#32 <<< (7 + i))) id id rfl]
  simp only [RcpState.spCommand, onBit_id, pairStep, id]

theorem rcp_signals (n : ℕ) : (upTo (signalStep x) n s).rcp = s.rcp.spCommand
    (upTo (fun i => pairStep x (1#32 <<< (9 + i * 2)) (1#32 <<< (10 + i * 2)) (1#32 <<< (7 + i))) n)
    id id := by
  induction n with
  | zero => rfl
  | succ n ih =>
    rw [upTo_succ, rcp_signalStep, ih]
    rfl

theorem rcp_applyStatusWrite : (applyStatusWrite s x).rcp = s.rcp.spCommand (spStatusAfter x)
    (pairStep x WrClearIntr WrSetIntr MiIntr.SP) (rspAfter x s.bus.spDmem s.bus.spImem) := by
  rw [applyStatusWrite, rcp_signals,
    rcp_onBit setIntrBreak (· ||| StIntrOnBreak) id (·.setIntrOnBreak true) rfl,
    rcp_onBit clearIntrBreak (· &&& ~~~StIntrOnBreak) id (·.setIntrOnBreak false) rfl,
    rcp_onBit (setStatus · StSingleStep) (· ||| StSingleStep) id id rfl,
    rcp_onBit (clearStatus · StSingleStep) (· &&& ~~~StSingleStep) id id rfl,
    rcp_onBit (Mi.raise · MiIntr.SP) id (· ||| MiIntr.SP) id rfl,
    rcp_onBit (Mi.clear · MiIntr.SP) id (· &&& ~~~MiIntr.SP) id rfl,
    rcp_onBit clearBroke (· &&& ~~~StBroke) id (·.setBroke false) rfl,
    rcp_onBit setHalt (· ||| StHalt) id (·.setHalted true) rfl,
    rcp_onBit clearHalt (fun a => a &&& ~~~StHalt &&& ~~~StBroke) id
      (fun r => { (r.setHalted false).setBroke false with
        dmem := s.bus.spDmem, imem := s.bus.spImem }) rfl]
  simp only [RcpState.spCommand, onBit_id, spStatusAfter, rspAfter, haltAfter, pairStep, id]

end SpWrite

section Registers

/-- MI_INTR_MASK after a write of `x`. -/
def maskAfter (x a : U32) : U32 := upTo (Mi.maskStep x) 6 a &&& 0x3F

/-- PI_STATUS after a write of `x`. -/
def piStatusAfter (x a : U32) : U32 :=
  let a := onBit x Pi.WrReset
    (· &&& ~~~(Pi.StatusDmaBusy ||| Pi.StatusIoBusy ||| Pi.StatusError)) a
  onBit x Pi.WrClrIntr (· &&& ~~~Pi.StatusIntr) a

/-- DPC_STATUS after a write of `x`. -/
def dpStatusAfter (x a : U32) : U32 :=
  let a := pairStep x (1#32 <<< 0) (1#32 <<< 1) DpRegisters.StXbusDma a
  let a := pairStep x (1#32 <<< 2) (1#32 <<< 3) DpRegisters.StFreeze a
  pairStep x (1#32 <<< 4) (1#32 <<< 5) DpRegisters.StFlush a

namespace CommandReg

def value (d : RcpState) : CommandReg → U32
  | .SpStatus => d.sp.status
  | .MiIntrMask => d.mi.intrMask
  | .PiStatus => d.pi.status
  | .DpcStatus => d.dp.status

def write (x : U32) (d : RcpState) : CommandReg → RcpState
  | .SpStatus => d.spCommand (spStatusAfter x) (pairStep x WrClearIntr WrSetIntr MiIntr.SP)
      (rspAfter x d.dmem d.imem)
  | .MiIntrMask => { d with mi.intrMask := maskAfter x d.mi.intrMask }
  | .PiStatus => { d with
      pi.status := piStatusAfter x d.pi.status
      mi.intr := onBit x Pi.WrClrIntr (· &&& ~~~MiIntr.PI) d.mi.intr }
  | .DpcStatus => { d with
      dp.status := dpStatusAfter x d.dp.status
      rdp := onBit x (1#32 <<< 5) Rdp.flush d.rdp
      mi.intr := onBit x (1#32 <<< 5) (· ||| MiIntr.DP) d.mi.intr }

end CommandReg

variable (r : CommandReg) (s : Sys) (x : U32)

theorem readMmio32_reg : Bus.readMmio32 s r.addr = (r.value s.rcp, s) := by
  cases r with
  | SpStatus => rfl
  | MiIntrMask => rfl
  | PiStatus => rfl
  | DpcStatus => rfl

theorem rcp_piWriteStatus : (Pi.writeStatus s x).rcp = CommandReg.PiStatus.write x s.rcp := by
  simp only [CommandReg.write, Pi.writeStatus, piStatusAfter, onBit]
  split_ifs
  · rfl
  · rfl
  · rfl
  · rfl

theorem rcp_dpWriteStatus : (DpRegs.writeStatus s x).rcp = CommandReg.DpcStatus.write x s.rcp := by
  have set (t : Sys) (bits command : U32) :
      (onBit x command (DpRegs.setStatus · bits) t).rcp =
        { t.rcp with dp.status := onBit x command (· ||| bits) t.rcp.dp.status } := by
    unfold onBit
    split
    · rfl
    · rfl
  have clear (t : Sys) (bits command : U32) :
      (onBit x command (DpRegs.clearStatus · bits) t).rcp =
        { t.rcp with dp.status := onBit x command (· &&& ~~~bits) t.rcp.dp.status } := by
    unfold onBit
    split
    · rfl
    · rfl
  have flush (t : Sys) (command : U32) : (onBit x command DpRegs.flush t).rcp =
      { t.rcp with
          dp.status := onBit x command (· ||| DpRegisters.StFlush) t.rcp.dp.status
          rdp := onBit x command Rdp.flush t.rcp.rdp
          mi.intr := onBit x command (· ||| MiIntr.DP) t.rcp.mi.intr } := by
    unfold onBit
    split
    · rfl
    · rfl
  rw [DpRegs.writeStatus, flush, clear, set, clear, set, clear]
  rfl

theorem rcp_writeMmio32 : (Bus.writeMmio32 s r.addr x).rcp = r.write x s.rcp := by
  cases r with
  | SpStatus => exact rcp_applyStatusWrite
  | MiIntrMask => rfl
  | PiStatus => exact rcp_piWriteStatus s x
  | DpcStatus => exact rcp_dpWriteStatus s x

end Registers

section Stores

/-- A byte or a halfword. -/
inductive SubWord where
  | byte (value : U8)
  | half (value : U16)

namespace SubWord

/-- The bits of the word a store at `p` writes. -/
def mask (p : PhysicalAddress) : SubWord → U32
  | .byte _ => 0xFF#32 <<< Bus.laneShift p
  | .half _ => if p &&& 2 = 0 then 0xFFFF0000 else 0x0000FFFF

def word (p : PhysicalAddress) : SubWord → U32
  | .byte value => value.setWidth 32 <<< Bus.laneShift p
  | .half value => if p &&& 2 = 0 then value.setWidth 32 <<< 16 else value.setWidth 32

def onBus (s : Sys) (addr : U32) : SubWord → Sys
  | .byte value => Bus.write8 s addr value
  | .half value => Bus.write16 s addr value

def size : SubWord → ℕ
  | .byte _ => 1
  | .half _ => 2

def onCpu (s : Sys) (vaddr : U64) : SubWord → Sys
  | .byte value => Cpu.storeByte s vaddr value
  | .half value => Cpu.storeHalf s vaddr value

end SubWord

theorem isMmioRegion_reg {r : CommandReg} {p : PhysicalAddress} (here : p &&& ~~~3 = r.addr) :
    Bus.isMmioRegion p = true := by
  have rounded : p.toNat / 4 * 4 = r.addr.toNat := by
    rw [← here]
    exact (LowMasks.toNat_andNot_low (n := 2) p).symm
  have listed : r.addr.toNat = 0x04040010 ∨ r.addr.toNat = 0x0430000C ∨
      r.addr.toNat = 0x04600010 ∨ r.addr.toNat = 0x0410000C := by
    cases r <;> decide
  simp only [Bus.isMmioRegion, Mmio.inRange, Mmio.SP_REGS_BASE, Mmio.SP_REGS2_BASE,
    Mmio.DP_CMD_BASE, Mmio.MI_BASE, Mmio.VI_BASE, Mmio.AI_BASE, Mmio.PI_BASE, Mmio.RI_BASE,
    Mmio.SI_BASE, Bool.or_eq_true, Bool.and_eq_true]
  simp
  omega

theorem rcp_notify (s : Sys) (p : PhysicalAddress) (size : U32) :
    (s.notifyMemoryWrite p size).rcp = s.rcp := by
  unfold Sys.notifyMemoryWrite
  split
  · rfl
  · rfl

theorem rcp_onBus {r : CommandReg} (w : SubWord) (s : Sys) {addr : U32}
    (here : Bus.physical addr &&& ~~~3 = r.addr) : (w.onBus s addr).rcp =
      r.write ((r.value s.rcp &&& ~~~w.mask (Bus.physical addr)) ||| w.word (Bus.physical addr))
        s.rcp := by
  have mmio := isMmioRegion_reg here
  cases w with
  | byte value =>
    simp only [SubWord.onBus, Bus.write8, mmio, if_true, here, readMmio32_reg, rcp_writeMmio32,
      rcp_notify]
    rfl
  | half value =>
    simp only [SubWord.onBus, Bus.write16, mmio, if_true, here, readMmio32_reg]
    by_cases high : Bus.physical addr &&& 2 = 0
    · simp only [high, if_true, rcp_writeMmio32, rcp_notify, SubWord.mask, SubWord.word]
      rfl
    · simp only [high, if_false, rcp_writeMmio32, rcp_notify, SubWord.mask, SubWord.word]
      rfl

theorem rcp_write32 (r : CommandReg) (s : Sys) (x : U32) :
    (Bus.write32 s r.addr x).rcp = r.write x s.rcp := by
  have direct : Bus.physical r.addr = r.addr := by cases r <;> decide
  have aligned : r.addr &&& ~~~3 = r.addr := by cases r <;> decide
  simp only [Bus.write32, direct, isMmioRegion_reg aligned, if_true, aligned, rcp_writeMmio32,
    rcp_notify]

/-- A store of the CPU is the store on the bus at the address it translates to. -/
theorem rcp_onCpu (w : SubWord) (s : Sys) {vaddr : U64} {addr : U32} {r : CommandReg}
    (here : Bus.physical addr &&& ~~~3 = r.addr)
    (mapped : s.cpu.probeWrite vaddr (BitVec.ofNat 64 w.size) = .ok addr) :
    (w.onCpu s vaddr).rcp = (w.onBus s addr).rcp := by
  cases w with
  | byte value =>
    have mapped' : s.cpu.probeWrite vaddr (BitVec.ofNat 64 1) = .ok addr := mapped
    have emitted := rcp_onBus (.byte value) (s.emit (.store addr 1)) here
    rw [rcp_onBus (.byte value) s here]
    simp only [SubWord.onCpu, Cpu.storeByte, Cpu.storeWith, Sys.access, mapped']
    exact emitted
  | half value =>
    have mapped' : s.cpu.probeWrite vaddr (BitVec.ofNat 64 2) = .ok addr := mapped
    have emitted := rcp_onBus (.half value) (s.emit (.store addr 2)) here
    rw [rcp_onBus (.half value) s here]
    simp only [SubWord.onCpu, Cpu.storeHalf, Cpu.storeWith, Sys.access, mapped']
    exact emitted

end Stores

section Status

variable {e v a : U32}

theorem has_low {x y command : U32} (same : x &&& 0xFF = y &&& 0xFF)
    (low : command &&& 0xFF = command) : has x command = has y command := by
  have inside (z : U32) : z &&& command = z &&& 0xFF &&& command := by
    rw [BitVec.and_assoc, BitVec.and_comm 0xFF command, low]
  rw [has, has, inside x, inside y, same]

def LowByte (e v a : U32) : Prop := e &&& 0xFF = 0 ∨ (v &&& 0xFF = 0 ∧ e &&& 0xFF = a &&& 0xFF)

theorem getLsbD_spStatusAfter (x a : U32) (j : ℕ) : (spStatusAfter x a).getLsbD j =
    if 7 ≤ j ∧ j < 7 + 8 then
      pairFlag (has x (1#32 <<< (9 + (j - 7) * 2))) (has x (1#32 <<< (10 + (j - 7) * 2)))
        (a.getLsbD j)
    else if j = 6 then pairFlag (has x WrClearIntrBreak) (has x WrSetIntrBreak) (a.getLsbD j)
    else if j = 5 then pairFlag (has x WrClearSStep) (has x WrSetSStep) (a.getLsbD j)
    else if j = 1 then !has x WrClearBroke && (!has x WrClearHalt && a.getLsbD j)
    else if j = 0 then pairFlag (has x WrClearHalt) (has x WrSetHalt) (a.getLsbD j)
    else a.getLsbD j := by
  have both (b : U32) : onBit x WrClearHalt (fun a => a &&& ~~~StHalt &&& ~~~StBroke) b =
      onBit x WrClearHalt (· &&& ~~~StBroke) (onBit x WrClearHalt (· &&& ~~~StHalt) b) := by
    rw [onBit_eq, onBit_eq, onBit_eq]
    cases has x WrClearHalt with
    | false => rfl
    | true => rfl
  rw [spStatusAfter, both, getLsbD_pairs x _ _ _ 7 8 (by omega)]
  simp only [StHalt, StBroke, StSingleStep, StIntrOnBreak]
  rw [getLsbD_pairStep x _ _ _ (by decide), getLsbD_pairStep x _ _ _ (by decide), getLsbD_clear,
    getLsbD_set x _ _ (by decide), getLsbD_clear, getLsbD_clear]
  by_cases zero : j = 0
  · simp [zero, pairFlag]
  · by_cases one : j = 1
    · simp [one]
    · by_cases five : j = 5
      · simp [five]
      · by_cases six : j = 6
        · simp [six]
        · simp [zero, one, five, six]

/-- The commands of the low byte: none of them is added, or none is stored and
the added ones are bits of the register. -/
theorem LowByte.commands (low : LowByte e v a) :
    (∀ command, command &&& 0xFF = command → has e command = false) ∨
    ∀ command, command &&& 0xFF = command →
      has v command = false ∧ has e command = has a command := by
  have zero (command : U32) : has 0 command = false := by simp [has]
  rcases low with stored | ⟨outside, own⟩
  · exact Or.inl fun command inside => (has_low stored inside).trans (zero command)
  · exact Or.inr fun command inside =>
      ⟨(has_low outside inside).trans (zero command), has_low own inside⟩

/-- The three commands in the low byte that share the halt and broke flags. -/
theorem LowByte.halts (low : LowByte e v a) :
    (has e WrClearHalt = false ∧ has e WrSetHalt = false ∧ has e WrClearBroke = false) ∨
    (has v WrClearHalt = false ∧ has v WrSetHalt = false ∧ has v WrClearBroke = false ∧
      has e WrClearHalt = a.getLsbD 0 ∧ has e WrSetHalt = a.getLsbD 1) := by
  have zero : has a WrClearHalt = a.getLsbD 0 := has_shift a (by decide)
  have one : has a WrSetHalt = a.getLsbD 1 := has_shift a (by decide)
  rw [← zero, ← one]
  rcases low.commands with nothing | own
  · exact Or.inl ⟨nothing _ (by decide), nothing _ (by decide), nothing _ (by decide)⟩
  · exact Or.inr ⟨(own _ (by decide)).1, (own _ (by decide)).1, (own _ (by decide)).1,
      (own _ (by decide)).2, (own _ (by decide)).2⟩

/-- The commands on the halt and broke flags are redundant only when neither is set. -/
theorem halt_bits_iff (low : LowByte e v a) :
    ((spStatusAfter (e ||| v) a).getLsbD 0 = (spStatusAfter v a).getLsbD 0 ∧
      (spStatusAfter (e ||| v) a).getLsbD 1 = (spStatusAfter v a).getLsbD 1) ↔
    has e WrClearHalt = false ∧ has e WrSetHalt = false := by
  simp only [getLsbD_spStatusAfter, has_or]
  rcases low.halts with ⟨clear, set, broke⟩ | ⟨clear, set, broke, halted, stopped⟩
  · simp [clear, set, broke]
  · rw [clear, set, broke, halted, stopped]
    cases a.getLsbD 0 <;> cases a.getLsbD 1 <;> simp [pairFlag]

theorem spStatus_eq_iff (low : LowByte e v a) : spStatusAfter (e ||| v) a = spStatusAfter v a ↔
    (has e WrClearHalt = false ∧ has e WrSetHalt = false) ∧
    Redundant (has a StSingleStep) WrClearSStep WrSetSStep e v ∧
    Redundant (has a StIntrOnBreak) WrClearIntrBreak WrSetIntrBreak e v ∧
    ∀ i < 8, Redundant (has a (StSignal0 <<< i)) (1#32 <<< (9 + i * 2)) (1#32 <<< (10 + i * 2))
      e v := by
  have step : has a StSingleStep = a.getLsbD 5 := has_shift a (by decide)
  have intr : has a StIntrOnBreak = a.getLsbD 6 := has_shift a (by decide)
  have signal (i : ℕ) (inside : i < 8) : has a (StSignal0 <<< i) = a.getLsbD (7 + i) := by
    rw [StSignal0, ← BitVec.shiftLeft_add, has_shift a (by omega)]
  have five (x : U32) : (spStatusAfter x a).getLsbD 5 =
      pairFlag (has x WrClearSStep) (has x WrSetSStep) (a.getLsbD 5) :=
    getLsbD_spStatusAfter x a 5
  have six (x : U32) : (spStatusAfter x a).getLsbD 6 =
      pairFlag (has x WrClearIntrBreak) (has x WrSetIntrBreak) (a.getLsbD 6) :=
    getLsbD_spStatusAfter x a 6
  have signals (x : U32) (i : ℕ) (inside : i < 8) : (spStatusAfter x a).getLsbD (7 + i) =
      pairFlag (has x (1#32 <<< (9 + i * 2))) (has x (1#32 <<< (10 + i * 2)))
        (a.getLsbD (7 + i)) := by
    rw [getLsbD_spStatusAfter, if_pos (by omega), Nat.add_sub_cancel_left]
  rw [step, intr, ← halt_bits_iff low, ← pairFlag_eq_iff, ← pairFlag_eq_iff, ← five, ← five,
    ← six, ← six]
  constructor
  · intro same
    refine ⟨⟨by rw [same], by rw [same]⟩, by rw [same], by rw [same], fun i inside => ?_⟩
    rw [signal i inside, ← pairFlag_eq_iff, ← signals _ i inside, ← signals _ i inside, same]
  · rintro ⟨⟨halted, stopped⟩, singleStep, intrBreak, redundant⟩
    apply BitVec.eq_of_getLsbD_eq
    intro j _
    by_cases row : 7 ≤ j ∧ j < 7 + 8
    · obtain ⟨i, rfl⟩ := Nat.exists_eq_add_of_le row.1
      have each := redundant i (by omega)
      rwa [signal i (by omega), ← pairFlag_eq_iff, ← signals _ i (by omega),
        ← signals _ i (by omega)] at each
    · by_cases flag : j = 6 ∨ j = 5 ∨ j = 1 ∨ j = 0
      · rcases flag with rfl | rfl | rfl | rfl
        · exact intrBreak
        · exact singleStep
        · exact stopped
        · exact halted
      · obtain ⟨not6, not5, not1, not0⟩ : j ≠ 6 ∧ j ≠ 5 ∧ j ≠ 1 ∧ j ≠ 0 := by omega
        simp only [getLsbD_spStatusAfter, row, not6, not5, not1, not0, if_false]

theorem haltAfter_eq_iff (low : LowByte e v a) (running : has e WrClearHalt = false)
    (stays : has e WrSetHalt = false) (dmem imem : Bytes) (r : Rsp) :
    haltAfter (e ||| v) dmem imem r = haltAfter v dmem imem r ↔
      (has e WrClearBroke = true → r.broke = false) := by
  simp only [haltAfter, onBit_eq, has_or, running, stays, Bool.false_or]
  cases broke : has e WrClearBroke with
  | false => simp
  | true =>
    rcases low.halts with ⟨-, -, nothing⟩ | ⟨clear, set, noBroke, -, -⟩
    · rw [broke] at nothing
      cases nothing
    · simp only [clear, set, noBroke, Bool.or_false, if_true, Bool.false_eq_true, if_false,
        forall_const]
      constructor
      · intro same
        exact (congrArg Rsp.broke same).symm
      · intro whole
        rw [Rsp.setBroke, ← whole]

theorem intrOnBreak_haltAfter (x : U32) (dmem imem : Bytes) (r : Rsp) :
    (haltAfter x dmem imem r).intrOnBreak = r.intrOnBreak := by
  simp only [haltAfter, onBit_eq]
  split_ifs
  all_goals rfl

theorem rspAfter_eq (x : U32) (dmem imem : Bytes) (r : Rsp) : rspAfter x dmem imem r =
    (haltAfter x dmem imem r).setIntrOnBreak
      (pairFlag (has x WrClearIntrBreak) (has x WrSetIntrBreak) r.intrOnBreak) := by
  rw [← intrOnBreak_haltAfter x dmem imem r, rspAfter]
  simp only [onBit_eq]
  cases has x WrSetIntrBreak with
  | true => cases has x WrClearIntrBreak <;> rfl
  | false => cases has x WrClearIntrBreak <;> rfl

theorem rspAfter_eq_iff (low : LowByte e v a) (running : has e WrClearHalt = false)
    (stays : has e WrSetHalt = false) (dmem imem : Bytes) (r : Rsp) :
    rspAfter (e ||| v) dmem imem r = rspAfter v dmem imem r ↔
      (has e WrClearBroke = true → r.broke = false) ∧
      Redundant r.intrOnBreak WrClearIntrBreak WrSetIntrBreak e v := by
  rw [← haltAfter_eq_iff low running stays dmem imem r, ← pairFlag_eq_iff, rspAfter_eq,
    rspAfter_eq]
  constructor
  · intro same
    refine ⟨?_, congrArg Rsp.intrOnBreak same⟩
    have back := congrArg (Rsp.setIntrOnBreak · r.intrOnBreak) same
    have undo (x : U32) (b : Bool) :
        ((haltAfter x dmem imem r).setIntrOnBreak b).setIntrOnBreak r.intrOnBreak =
          haltAfter x dmem imem r := by
      rw [← intrOnBreak_haltAfter x dmem imem r]
      rfl
    simpa only [undo] using back
  · rintro ⟨first, second⟩
    rw [first, second]

end Status

/-- The commands `e` on SP_STATUS change nothing beside the commands `v`. -/
structure SpRedundant (e v : U32) (d : RcpState) : Prop where
  clearHalt : has e WrClearHalt = false
  setHalt : has e WrSetHalt = false
  clearBroke : has e WrClearBroke = true → d.rsp.broke = false
  intr : Redundant (has d.mi.intr MiIntr.SP) WrClearIntr WrSetIntr e v
  singleStep : Redundant (has d.sp.status StSingleStep) WrClearSStep WrSetSStep e v
  intrBreak : Redundant (has d.sp.status StIntrOnBreak) WrClearIntrBreak WrSetIntrBreak e v
  rspIntrBreak : Redundant d.rsp.intrOnBreak WrClearIntrBreak WrSetIntrBreak e v
  signals : ∀ i < 8, Redundant (has d.sp.status (StSignal0 <<< i)) (1#32 <<< (9 + i * 2))
    (1#32 <<< (10 + i * 2)) e v

/-- The commands `e` on PI_STATUS change nothing. -/
structure PiRedundant (e : U32) (d : RcpState) : Prop where
  reset : has e Pi.WrReset = false
  clrIntr : has e Pi.WrClrIntr = true →
    has d.pi.status Pi.StatusIntr = false ∧ has d.mi.intr MiIntr.PI = false

/-- The commands `e` on DPC_STATUS change nothing beside the commands `v`. -/
structure DpRedundant (e v : U32) (d : RcpState) : Prop where
  xbus : Redundant (has d.dp.status DpRegisters.StXbusDma) (1#32 <<< 0) (1#32 <<< 1) e v
  freeze : Redundant (has d.dp.status DpRegisters.StFreeze) (1#32 <<< 2) (1#32 <<< 3) e v
  flush : Redundant (has d.dp.status DpRegisters.StFlush) (1#32 <<< 4) (1#32 <<< 5) e v
  idle : has e (1#32 <<< 5) = true → d.rdp.busy = false ∧ has d.mi.intr MiIntr.DP = true

/-- The commands `e` change nothing beside the commands `v`. -/
def CommandReg.Spares (e v : U32) (d : RcpState) : CommandReg → Prop
  | .SpStatus => SpRedundant e v d
  | .MiIntrMask => ∀ i < 6,
      Redundant (has d.mi.intrMask (1#32 <<< i)) (1#32 <<< (i * 2)) (1#32 <<< (i * 2 + 1)) e v
  | .PiStatus => PiRedundant e d
  | .DpcStatus => DpRedundant e v d

section Agreement

variable {e v : U32} {d : RcpState}

theorem spWrite_eq_iff (low : LowByte e v d.sp.status) :
    CommandReg.SpStatus.write (e ||| v) d = CommandReg.SpStatus.write v d ↔
      SpRedundant e v d := by
  have intr : pairStep (e ||| v) WrClearIntr WrSetIntr MiIntr.SP d.mi.intr =
      pairStep v WrClearIntr WrSetIntr MiIntr.SP d.mi.intr ↔
      Redundant (has d.mi.intr MiIntr.SP) WrClearIntr WrSetIntr e v :=
    pairStep_eq_iff (by decide)
  have parts : CommandReg.SpStatus.write (e ||| v) d = CommandReg.SpStatus.write v d ↔
      spStatusAfter (e ||| v) d.sp.status = spStatusAfter v d.sp.status ∧
      pairStep (e ||| v) WrClearIntr WrSetIntr MiIntr.SP d.mi.intr =
        pairStep v WrClearIntr WrSetIntr MiIntr.SP d.mi.intr ∧
      rspAfter (e ||| v) d.dmem d.imem d.rsp = rspAfter v d.dmem d.imem d.rsp := by
    simp only [CommandReg.write, RcpState.spCommand, RcpState.mk.injEq, SpRegisters.mk.injEq,
      MipsInterface.mk.injEq, and_true, true_and]
  rw [parts, spStatus_eq_iff low, intr]
  constructor
  · rintro ⟨⟨⟨running, stays⟩, singleStep, intrBreak, signals⟩, pending, rsp⟩
    obtain ⟨clearBroke, rspIntrBreak⟩ :=
      (rspAfter_eq_iff low running stays d.dmem d.imem d.rsp).mp rsp
    exact ⟨running, stays, clearBroke, pending, singleStep, intrBreak, rspIntrBreak, signals⟩
  · intro k
    exact ⟨⟨⟨k.clearHalt, k.setHalt⟩, k.singleStep, k.intrBreak, k.signals⟩, k.intr,
      (rspAfter_eq_iff low k.clearHalt k.setHalt d.dmem d.imem d.rsp).mpr
        ⟨k.clearBroke, k.rspIntrBreak⟩⟩

theorem getLsbD_maskAfter (x a : U32) (i : ℕ) : (maskAfter x a).getLsbD i =
    if i < 6 then pairFlag (has x (1#32 <<< (i * 2))) (has x (1#32 <<< (i * 2 + 1))) (a.getLsbD i)
    else false := by
  have row : upTo (Mi.maskStep x) 6 a = upTo (fun i => pairStep x (1#32 <<< (i * 2))
      (1#32 <<< (i * 2 + 1)) (1#32 <<< (0 + i))) 6 a := by
    simp only [Nat.zero_add]
    rfl
  have low : (0x3F : U32) = LowMasks.low 32 6 := rfl
  rw [maskAfter, row, low, BitVec.getLsbD_and, getLsbD_pairs x a _ _ 0 6 (by decide), Nat.zero_add,
    Nat.sub_zero]
  by_cases inside : i < 6
  · rw [if_pos ⟨Nat.zero_le i, inside⟩, if_pos inside, LowMasks.getLsbD_low i (by omega)]
    simp [inside]
  · by_cases word : i < 32
    · rw [if_neg inside, LowMasks.getLsbD_low i word]
      simp [inside]
    · rw [if_neg inside, BitVec.getLsbD_of_ge (LowMasks.low 32 6) i (Nat.le_of_not_lt word),
        Bool.and_false]

theorem miWrite_eq_iff :
    CommandReg.MiIntrMask.write (e ||| v) d = CommandReg.MiIntrMask.write v d ↔
      CommandReg.MiIntrMask.Spares e v d := by
  have parts : CommandReg.MiIntrMask.write (e ||| v) d = CommandReg.MiIntrMask.write v d ↔
      maskAfter (e ||| v) d.mi.intrMask = maskAfter v d.mi.intrMask := by
    simp only [CommandReg.write, RcpState.mk.injEq, MipsInterface.mk.injEq, and_true, true_and]
  rw [parts]
  constructor
  · intro same i inside
    have bit := congrArg (BitVec.getLsbD · i) same
    simp only [getLsbD_maskAfter, inside, if_true] at bit
    rwa [has_shift _ (by omega), ← pairFlag_eq_iff]
  · intro spares
    apply BitVec.eq_of_getLsbD_eq
    intro i _
    rw [getLsbD_maskAfter, getLsbD_maskAfter]
    by_cases inside : i < 6
    · have flag := spares i inside
      rw [has_shift _ (by omega), ← pairFlag_eq_iff] at flag
      rw [if_pos inside, if_pos inside, flag]
    · rw [if_neg inside, if_neg inside]

theorem piWrite_eq_iff (low : LowByte e v d.pi.status) :
    CommandReg.PiStatus.write (e ||| v) d = CommandReg.PiStatus.write v d ↔ PiRedundant e d := by
  have parts : CommandReg.PiStatus.write (e ||| v) d = CommandReg.PiStatus.write v d ↔
      piStatusAfter (e ||| v) d.pi.status = piStatusAfter v d.pi.status ∧
      onBit (e ||| v) Pi.WrClrIntr (· &&& ~~~MiIntr.PI) d.mi.intr =
        onBit v Pi.WrClrIntr (· &&& ~~~MiIntr.PI) d.mi.intr := by
    simp only [CommandReg.write, RcpState.mk.injEq, MipsInterface.mk.injEq,
      PeripheralInterface.mk.injEq, and_true, true_and]
    exact and_comm
  rw [parts]
  simp only [piStatusAfter, onBit_eq, has_or]
  rcases low.commands with nothing | own
  · have noReset := nothing Pi.WrReset (by decide)
    have noClear := nothing Pi.WrClrIntr (by decide)
    simp only [noReset, noClear, Bool.false_or, true_and, true_iff]
    exact ⟨noReset, fun carried => absurd (noClear.symm.trans carried) Bool.false_ne_true⟩
  · obtain ⟨noReset, busy⟩ := own Pi.WrReset (by decide)
    obtain ⟨noClear, -⟩ := own Pi.WrClrIntr (by decide)
    simp only [noReset, noClear, Bool.or_false, Bool.false_eq_true, if_false]
    cases reset : has e Pi.WrReset with
    | true =>
      have bit : d.pi.status.getLsbD 0 = true := by
        rw [← has_shift d.pi.status (show 0 < 32 by decide)]
        exact busy.symm.trans reset
      have masked : (~~~(Pi.StatusDmaBusy ||| Pi.StatusIoBusy ||| Pi.StatusError)).getLsbD 0
          = false := by decide
      constructor
      · rintro ⟨same, -⟩
        have cleared := congrArg (BitVec.getLsbD · 0) same
        simp only [if_true] at cleared
        split_ifs at cleared
        · rw [BitVec.getLsbD_and, BitVec.getLsbD_and, masked, bit] at cleared
          simp at cleared
        · rw [BitVec.getLsbD_and, masked, bit] at cleared
          simp at cleared
      · intro k
        exact absurd (k.reset.symm.trans reset) Bool.false_ne_true
    | false =>
      simp only [Bool.false_eq_true, if_false]
      cases clear : has e Pi.WrClrIntr with
      | false =>
        simp only [Bool.false_eq_true, if_false, true_and, true_iff]
        exact ⟨reset, fun carried => absurd (clear.symm.trans carried) Bool.false_ne_true⟩
      | true =>
        simp only [if_true]
        rw [clear_eq_iff, clear_eq_iff]
        exact ⟨fun idle => ⟨reset, fun _ => idle⟩, fun k => k.clrIntr clear⟩

theorem getLsbD_dpStatusAfter (x a : U32) (j : ℕ) : (dpStatusAfter x a).getLsbD j =
    if j = 2 then pairFlag (has x (1#32 <<< 4)) (has x (1#32 <<< 5)) (a.getLsbD j)
    else if j = 1 then pairFlag (has x (1#32 <<< 2)) (has x (1#32 <<< 3)) (a.getLsbD j)
    else if j = 0 then pairFlag (has x (1#32 <<< 0)) (has x (1#32 <<< 1)) (a.getLsbD j)
    else a.getLsbD j := by
  simp only [dpStatusAfter, DpRegisters.StFlush, DpRegisters.StFreeze, DpRegisters.StXbusDma]
  rw [getLsbD_pairStep x _ _ _ (by decide), getLsbD_pairStep x _ _ _ (by decide),
    getLsbD_pairStep x _ _ _ (by decide)]
  by_cases two : j = 2
  · simp [two]
  · by_cases one : j = 1
    · simp [one]
    · rw [if_neg two, if_neg one, if_neg two, if_neg one]

theorem dpStatus_eq_iff (a : U32) : dpStatusAfter (e ||| v) a = dpStatusAfter v a ↔
    Redundant (has a DpRegisters.StXbusDma) (1#32 <<< 0) (1#32 <<< 1) e v ∧
    Redundant (has a DpRegisters.StFreeze) (1#32 <<< 2) (1#32 <<< 3) e v ∧
    Redundant (has a DpRegisters.StFlush) (1#32 <<< 4) (1#32 <<< 5) e v := by
  have zero (x : U32) : (dpStatusAfter x a).getLsbD 0 =
      pairFlag (has x (1#32 <<< 0)) (has x (1#32 <<< 1)) (has a DpRegisters.StXbusDma) := by
    rw [DpRegisters.StXbusDma, has_shift a (by decide)]
    exact getLsbD_dpStatusAfter x a 0
  have one (x : U32) : (dpStatusAfter x a).getLsbD 1 =
      pairFlag (has x (1#32 <<< 2)) (has x (1#32 <<< 3)) (has a DpRegisters.StFreeze) := by
    rw [DpRegisters.StFreeze, has_shift a (by decide)]
    exact getLsbD_dpStatusAfter x a 1
  have two (x : U32) : (dpStatusAfter x a).getLsbD 2 =
      pairFlag (has x (1#32 <<< 4)) (has x (1#32 <<< 5)) (has a DpRegisters.StFlush) := by
    rw [DpRegisters.StFlush, has_shift a (by decide)]
    exact getLsbD_dpStatusAfter x a 2
  rw [← pairFlag_eq_iff, ← pairFlag_eq_iff, ← pairFlag_eq_iff, ← zero, ← zero, ← one, ← one,
    ← two, ← two]
  constructor
  · intro same
    rw [same]
    exact ⟨rfl, rfl, rfl⟩
  · rintro ⟨xbus, freeze, flush⟩
    apply BitVec.eq_of_getLsbD_eq
    intro j _
    by_cases flag : j = 2 ∨ j = 1 ∨ j = 0
    · rcases flag with rfl | rfl | rfl
      · exact flush
      · exact freeze
      · exact xbus
    · obtain ⟨not2, not1, not0⟩ : j ≠ 2 ∧ j ≠ 1 ∧ j ≠ 0 := by omega
      simp only [getLsbD_dpStatusAfter, not2, not1, not0, if_false]

theorem dpWrite_eq_iff (low : LowByte e v d.dp.status) :
    CommandReg.DpcStatus.write (e ||| v) d = CommandReg.DpcStatus.write v d ↔
      DpRedundant e v d := by
  have parts : CommandReg.DpcStatus.write (e ||| v) d = CommandReg.DpcStatus.write v d ↔
      dpStatusAfter (e ||| v) d.dp.status = dpStatusAfter v d.dp.status ∧
      onBit (e ||| v) (1#32 <<< 5) Rdp.flush d.rdp = onBit v (1#32 <<< 5) Rdp.flush d.rdp ∧
      onBit (e ||| v) (1#32 <<< 5) (· ||| MiIntr.DP) d.mi.intr =
        onBit v (1#32 <<< 5) (· ||| MiIntr.DP) d.mi.intr := by
    simp only [CommandReg.write, RcpState.mk.injEq, MipsInterface.mk.injEq,
      DpRegisters.mk.injEq, and_true, true_and]
    exact ⟨fun ⟨intr, status, rdp⟩ => ⟨status, rdp, intr⟩,
      fun ⟨status, rdp, intr⟩ => ⟨intr, status, rdp⟩⟩
  have flushes : (onBit (e ||| v) (1#32 <<< 5) Rdp.flush d.rdp =
        onBit v (1#32 <<< 5) Rdp.flush d.rdp ∧
      onBit (e ||| v) (1#32 <<< 5) (· ||| MiIntr.DP) d.mi.intr =
        onBit v (1#32 <<< 5) (· ||| MiIntr.DP) d.mi.intr) ↔
      (has e (1#32 <<< 5) = true → d.rdp.busy = false ∧ has d.mi.intr MiIntr.DP = true) := by
    simp only [onBit_eq, has_or]
    cases added : has e (1#32 <<< 5) with
    | false => simp
    | true =>
      rcases low.commands with nothing | own
      · exact absurd ((nothing _ (by decide)).symm.trans added) Bool.false_ne_true
      · obtain ⟨stored, -⟩ := own (1#32 <<< 5) (by decide)
        simp only [stored, Bool.or_false, if_true, Bool.false_eq_true, if_false, forall_const]
        rw [MiIntr.DP, set_eq_iff (by decide)]
        constructor
        · rintro ⟨flushed, pending⟩
          exact ⟨(congrArg Rdp.busy flushed).symm, pending⟩
        · rintro ⟨idle, pending⟩
          refine ⟨?_, pending⟩
          rw [Rdp.flush, ← idle]
  rw [parts, dpStatus_eq_iff, flushes]
  constructor
  · rintro ⟨⟨xbus, freeze, flush⟩, idle⟩
    exact ⟨xbus, freeze, flush, idle⟩
  · intro k
    exact ⟨⟨k.xbus, k.freeze, k.flush⟩, k.idle⟩

theorem write_eq_iff (r : CommandReg) (low : LowByte e v (r.value d)) :
    r.write (e ||| v) d = r.write v d ↔ r.Spares e v d := by
  cases r with
  | SpStatus => exact spWrite_eq_iff low
  | MiIntrMask => exact miWrite_eq_iff
  | PiStatus => exact piWrite_eq_iff low
  | DpcStatus => exact dpWrite_eq_iff low

end Agreement

section Lanes

theorem shiftLeft_low (v : U32) {n : ℕ} (past : 8 ≤ n) : v <<< n &&& 0xFF = 0 := by
  have low : (0xFF : U32) = LowMasks.low 32 8 := rfl
  apply BitVec.eq_of_getLsbD_eq
  intro j inside
  rw [low, BitVec.getLsbD_and, BitVec.getLsbD_shiftLeft, LowMasks.getLsbD_low j inside]
  by_cases before : j < 8
  · simp [show j < n by omega]
  · simp [before]

theorem lowByte_store (w : SubWord) (p : PhysicalAddress) (a : U32) :
    LowByte (a &&& ~~~w.mask p) (w.word p) a := by
  cases w with
  | byte value =>
    simp only [SubWord.mask, SubWord.word]
    by_cases lowest : Bus.laneShift p = 0
    · rw [lowest]
      exact Or.inl (andNot_and_of_subset a (by decide))
    · have past : 8 ≤ Bus.laneShift p := by
        rw [Bus.laneShift] at lowest ⊢
        omega
      exact Or.inr ⟨shiftLeft_low _ past, andNot_and_of_disjoint a (shiftLeft_low _ past)⟩
  | half value =>
    simp only [SubWord.mask, SubWord.word]
    by_cases high : p &&& 2 = 0
    · rw [if_pos high, if_pos high]
      exact Or.inr ⟨shiftLeft_low _ (by decide), andNot_and_of_disjoint a (by decide)⟩
    · rw [if_neg high]
      exact Or.inl (andNot_and_of_subset a (by decide))

end Lanes

/-- A byte or halfword store acts as a word store with zeros outside exactly
when the register's own bits outside the stored ones are redundant commands. -/
theorem subword_store_iff (r : CommandReg) (w : SubWord) (s : Sys) (addr : U32)
    (here : Bus.physical addr &&& ~~~3 = r.addr) :
    let p := Bus.physical addr
    let outside := r.value s.rcp &&& ~~~w.mask p
    ((w.onBus s addr).rcp = (Bus.write32 s r.addr (w.word p)).rcp ↔
      r.Spares outside (w.word p) s.rcp) ∧
    ∀ vaddr, s.cpu.probeWrite vaddr (BitVec.ofNat 64 w.size) = .ok addr →
      ((w.onCpu s vaddr).rcp = (Bus.write32 s r.addr (w.word p)).rcp ↔
        r.Spares outside (w.word p) s.rcp) := by
  have bus : (w.onBus s addr).rcp = (Bus.write32 s r.addr (w.word (Bus.physical addr))).rcp ↔
      r.Spares (r.value s.rcp &&& ~~~w.mask (Bus.physical addr)) (w.word (Bus.physical addr))
        s.rcp := by
    rw [rcp_onBus w s here, rcp_write32]
    exact write_eq_iff r (lowByte_store w _ _)
  refine ⟨bus, fun vaddr mapped => ?_⟩
  rw [rcp_onCpu w s here mapped]
  exact bus

/-- A byte of PI_STATUS, stored over the bus and by the CPU at its kernel address. -/
theorem subword_store_pi :
    ((((SubWord.byte 2).onBus {} 0x04600013).rcp = (Bus.write32 {} CommandReg.PiStatus.addr 2).rcp ↔
      CommandReg.PiStatus.Spares 0 2 ({} : Sys).rcp) ∧
    (((SubWord.byte 2).onCpu {} 0xFFFFFFFFA4600013).rcp =
      (Bus.write32 {} CommandReg.PiStatus.addr 2).rcp ↔
      CommandReg.PiStatus.Spares 0 2 ({} : Sys).rcp)) := by
  have both := subword_store_iff .PiStatus (.byte 2) {} 0x04600013 (by decide)
  exact ⟨both.1, both.2 0xFFFFFFFFA4600013 rfl⟩

/-- After a reset SP_STATUS reads as halted; a zero stored in its third byte
comes back as the command to run. -/
theorem subword_store_unhalts :
    (Bus.write8 {} 0xA4040012 0).rsp.halted = false ∧
    (Bus.write32 {} CommandReg.SpStatus.addr ((SubWord.byte 0).word 0x04040012)).rsp.halted = true ∧
    ((SubWord.byte 0).onBus {} 0xA4040012).rcp ≠
      (Bus.write32 {} CommandReg.SpStatus.addr ((SubWord.byte 0).word 0x04040012)).rcp := by
  have runs : ((SubWord.byte 0).onBus {} 0xA4040012).rcp.rsp.halted = false := by decide +kernel
  have waits : (Bus.write32 {} CommandReg.SpStatus.addr
      ((SubWord.byte 0).word 0x04040012)).rcp.rsp.halted = true := by decide +kernel
  refine ⟨runs, waits, fun same => ?_⟩
  rw [same, waits] at runs
  cases runs

end N64
