import N64Emu.CpuActs
import N64Emu.RunInvariant
import N64Emu.BootInvariant

/-!
# The devices under the CPU

Whatever the CPU executes, the devices see typed reads and writes of the bus,
and these reach a device through its register block or change bytes of memory.
A property of the devices that survives this survives every instruction, every
cached block and every boot.
-/

set_option autoImplicit false

namespace N64

open Words Loops Insn

/-- `P` concerns the devices alone and survives what the bus passes on to them. -/
structure BusInvariant (P : Sys → Prop) : Prop where
  cpu : ∀ {s} c, P s → P { s with cpu := c }
  relog : ∀ {s} log, P s → P { s with log := log }
  takeSemaphore : ∀ {s}, P s → P { s with bus.spRegs.semaphore := 1 }
  pokeRdram : ∀ {s} off b, P s → P (s.pokeRdram off b)
  storeDmem : ∀ {s} off b, P s → P (Bus.storeDmem s off b)
  storeImem : ∀ {s} off b, P s → P (Bus.storeImem s off b)
  storePifRam : ∀ {s} off b, P s → P (Bus.storePifRam s off b)
  spWrite : ∀ {s} offset value, P s → P (SpRegs.write s offset value)
  spWritePc : ∀ {s} offset value, P s → P (SpRegs.writePc s offset value)
  dpWrite : ∀ {s} offset value, P s → P (DpRegs.write s offset value)
  miWrite : ∀ {s} offset value, P s → P (Mi.write s offset value)
  viWrite : ∀ {s} offset value, P s → P (Vi.write s offset value)
  aiWrite : ∀ {s} offset value, P s → P (Ai.write s offset value)
  piWrite : ∀ {s} offset value, P s → P (Pi.write s offset value)
  riWrite : ∀ {s} offset value, P s → P { s with bus.ri := Ri.write s.bus.ri offset value }
  siWrite : ∀ {s} offset value, P s → P (Si.write s offset value)

namespace BusInvariant

variable {P : Sys → Prop} (inv : BusInvariant P) {s : Sys}
include inv

theorem emit (e : Event) (h : P s) : P (s.emit e) := inv.relog _ h

theorem notify (p : PhysicalAddress) (n : U32) (h : P s) : P (s.notifyMemoryWrite p n) := by
  unfold Sys.notifyMemoryWrite
  split
  · exact h
  · exact inv.emit _ h

theorem onCpu (f : Cpu → Cpu) (h : P s) : P (s.onCpu f) := inv.cpu _ h

section Reads

theorem readMmio32 (p : PhysicalAddress) (h : P s) : P (Bus.readMmio32 s p).2 := by
  rcases readMmio32_cases s p with same | ⟨-, taken⟩
  · rw [same]
    exact h
  · rw [taken]
    exact inv.takeSemaphore h

theorem read8 (addr : U32) (h : P s) : P (Bus.read8 s addr).2 := by
  simp only [Bus.read8]
  split
  · exact inv.readMmio32 _ h
  · exact h

theorem read16 (addr : U32) (h : P s) : P (Bus.read16 s addr).2 := by
  simp only [Bus.read16]
  split_ifs
  · exact inv.readMmio32 _ h
  · exact inv.readMmio32 _ h
  · exact h

theorem read32 (addr : U32) (h : P s) : P (Bus.read32 s addr).2 := by
  rcases read32_cases s addr with same | ⟨-, taken⟩
  · rw [same]
    exact h
  · rw [taken]
    exact inv.takeSemaphore h

theorem read64 (addr : U32) (h : P s) : P (Bus.read64 s addr).2 := by
  simp only [Bus.read64]
  split
  · exact h
  · exact inv.read32 _ (inv.read32 _ h)

end Reads

section Writes

theorem writeMmio32 (p : PhysicalAddress) (value : U32) (h : P s) :
    P (Bus.writeMmio32 s p value) := by
  simp only [Bus.writeMmio32]
  split_ifs
  · exact inv.spWrite _ value h
  · exact inv.spWritePc _ value h
  · exact inv.dpWrite _ value h
  · exact inv.miWrite _ value h
  · exact inv.viWrite _ value h
  · exact inv.aiWrite _ value h
  · exact inv.piWrite _ value h
  · exact inv.riWrite _ value h
  · exact inv.siWrite _ value h
  · exact h

theorem modifyMmio32 (p : PhysicalAddress) (value : U32) (h : P s) :
    P (Bus.writeMmio32 (Bus.readMmio32 s p).2 p value) :=
  inv.writeMmio32 p value (inv.readMmio32 p h)

theorem rdramBytes (off : ℕ) (bs : List U8) (h : P s) :
    P (Sys.storeBytes Sys.pokeRdram s off bs) :=
  DeviceInvariant.storeBytes inv.pokeRdram off bs h

theorem write8 (addr : U32) (value : U8) (h : P s) : P (Bus.write8 s addr value) := by
  have marked := inv.notify (Bus.physical addr) 1 h
  simp only [Bus.write8]
  split_ifs
  · exact inv.modifyMmio32 _ _ marked
  · exact inv.pokeRdram _ _ marked
  · exact marked
  · exact inv.storeDmem _ _ marked
  · exact inv.storeImem _ _ marked
  · exact inv.storePifRam _ _ marked
  · exact marked

theorem write16 (addr : U32) (value : U16) (h : P s) : P (Bus.write16 s addr value) := by
  have marked := inv.notify (Bus.physical addr) 2 h
  simp only [Bus.write16]
  split_ifs
  · exact inv.modifyMmio32 _ _ marked
  · exact inv.modifyMmio32 _ _ marked
  · exact inv.rdramBytes _ _ marked
  · exact DeviceInvariant.storeBytes inv.storeDmem _ _ marked
  · exact inv.write8 _ _ (inv.write8 _ _ marked)

theorem write32 (addr : U32) (value : U32) (h : P s) : P (Bus.write32 s addr value) := by
  have marked := inv.notify (Bus.physical addr) 4 h
  simp only [Bus.write32]
  split_ifs
  · exact inv.writeMmio32 _ _ marked
  · exact inv.rdramBytes _ _ marked
  · exact DeviceInvariant.storeBytes inv.storeDmem _ _ marked
  · exact DeviceInvariant.storeBytes inv.storeImem _ _ marked
  · exact inv.write8 _ _ (inv.write8 _ _ (inv.write8 _ _ (inv.write8 _ _ marked)))

theorem write64 (addr : U32) (value : U64) (h : P s) : P (Bus.write64 s addr value) := by
  have marked := inv.notify (Bus.physical addr) 8 h
  simp only [Bus.write64]
  split_ifs
  · exact inv.rdramBytes _ _ marked
  · exact inv.write32 _ _ (inv.write32 _ _ marked)

theorem perform (rspStep : ∀ {s}, P s → P (Rsp.step s)) (a : DeviceAct) (h : P s) :
    P (a.perform s) := by
  cases a with
  | read8 addr => exact inv.read8 addr h
  | read16 addr => exact inv.read16 addr h
  | read32 addr => exact inv.read32 addr h
  | read64 addr => exact inv.read64 addr h
  | write8 addr value => exact inv.write8 addr value h
  | write16 addr value => exact inv.write16 addr value h
  | write32 addr value => exact inv.write32 addr value h
  | write64 addr value => exact inv.write64 addr value h
  | spWrite offset value => exact inv.spWrite offset value h
  | spWritePc offset value => exact inv.spWritePc offset value h
  | dpWrite offset value => exact inv.dpWrite offset value h
  | piWrite offset value => exact inv.piWrite offset value h
  | siWrite offset value => exact inv.siWrite offset value h
  | rspStep => exact rspStep h

end Writes

section Access

omit inv in
/-- A typed read and a typed write of the CPU that keep `P`. -/
structure Keeps {α : Type} (P : Sys → Prop) (read : Sys → U32 → α × Sys)
    (write : Sys → U32 → α → Sys) : Prop where
  read : ∀ {s} p, P s → P (read s p).2
  write : ∀ {s} p v, P s → P (write s p v)

theorem keeps8 : Keeps P Bus.read8 Bus.write8 := ⟨inv.read8, inv.write8⟩

theorem keeps16 : Keeps P Bus.read16 Bus.write16 := ⟨inv.read16, inv.write16⟩

theorem keeps32 : Keeps P Bus.read32 Bus.write32 := ⟨inv.read32, inv.write32⟩

theorem keeps64 : Keeps P Bus.read64 Bus.write64 := ⟨inv.read64, inv.write64⟩

variable {α : Type} {read : Sys → U32 → α × Sys} {write : Sys → U32 → α → Sys}
  (keeps : Keeps P read write) (size : ℕ)

theorem access {r : Except Cpu PhysicalAddress} {k : PhysicalAddress → Sys} (h : P s)
    (go : ∀ p, P (k p)) : P (s.access r k) := by
  cases r with
  | error c => exact inv.cpu c h
  | ok p => exact go p

include keeps

theorem readInto (p : PhysicalAddress) (k : α → Cpu → Cpu) (h : P s) :
    P (Cpu.readInto read size s p k) :=
  inv.onCpu _ (keeps.read p (inv.emit _ h))

theorem loadWith (vaddr : U64) (k : α → Cpu → Cpu) (h : P s) :
    P (Cpu.loadWith read size s vaddr k) :=
  inv.access h fun p => inv.readInto keeps size p k h

theorem storeWith (vaddr : U64) (value : α) (h : P s) :
    P (Cpu.storeWith write size s vaddr value) :=
  inv.access h fun p => inv.onCpu _ (keeps.write p value (inv.emit _ h))

theorem mergeLoad (insn : U32) (k : α → ℕ → Cpu → Cpu) (h : P s) :
    P (Cpu.mergeLoad read size s insn k) :=
  inv.access h fun p => inv.readInto keeps size p _ h

theorem mergeStore (insn : U32) (merge : α → ℕ → α) (h : P s) :
    P (Cpu.mergeStore read write size s insn merge) :=
  inv.access h fun p =>
    inv.onCpu _ (keeps.write p _ (inv.emit _ (keeps.read p (inv.emit _ h))))

theorem loadLinked (insn : U32) (conv : α → U64) (h : P s) :
    P (Cpu.loadLinked read size s insn conv) :=
  inv.access h fun p => inv.readInto keeps size p _ h

theorem storeConditional (insn : U32) (value : α) (h : P s) :
    P (Cpu.storeConditional write size s insn value) := by
  have cleared := inv.onCpu Cpu.clearLlBit h
  refine inv.access cleared fun p => ?_
  split
  · exact inv.onCpu _ (keeps.write p value (inv.emit _ cleared))
  · exact inv.onCpu _ cleared

end Access

section Instructions

variable {fp : HostFpu} (insn : U32)

theorem setCop0 (idx : BitVec 5) (v : U32) (h : P s) : P (Cpu.setCop0 s idx v) := by
  simp only [Cpu.setCop0]
  split
  · exact inv.emit _ (inv.onCpu _ h)
  · exact inv.onCpu _ h

theorem execCop0Co (c0fn : ℕ) (h : P s) : P (Cpu.execCop0Co s c0fn) := by
  unfold Cpu.execCop0Co
  split
  · exact inv.emit _ (inv.onCpu _ h)
  · exact inv.emit _ (inv.onCpu _ h)
  · exact inv.emit _ (inv.onCpu _ h)
  · exact inv.onCpu _ h
  · exact inv.onCpu _ h
  · exact h

theorem execCop0 (h : P s) : P (Cpu.execCop0 s insn) := by
  unfold Cpu.execCop0
  split
  · exact inv.onCpu _ h
  · split
    · exact inv.onCpu _ h
    · exact inv.onCpu _ h
    · exact inv.setCop0 _ _ h
    · exact inv.setCop0 _ _ h
    · exact inv.execCop0Co _ h
    · split_ifs
      · exact inv.onCpu _ h
      · exact h
      · exact h

theorem withCop1 {k : Sys} (h : P s) (go : P k) : P (Cpu.withCop1 s k) := by
  unfold Cpu.withCop1
  split
  · exact inv.onCpu _ h
  · exact go

theorem execLwl (h : P s) : P (Cpu.execLwl s insn) := inv.mergeLoad inv.keeps32 4 insn _ h

theorem execLwr (h : P s) : P (Cpu.execLwr s insn) := inv.mergeLoad inv.keeps32 4 insn _ h

theorem execLdl (h : P s) : P (Cpu.execLdl s insn) := inv.mergeLoad inv.keeps64 8 insn _ h

theorem execLdr (h : P s) : P (Cpu.execLdr s insn) := inv.mergeLoad inv.keeps64 8 insn _ h

theorem execSwl (h : P s) : P (Cpu.execSwl s insn) := by
  simp only [Cpu.execSwl]
  exact inv.mergeStore inv.keeps32 4 insn _ h

theorem execSwr (h : P s) : P (Cpu.execSwr s insn) := by
  simp only [Cpu.execSwr]
  exact inv.mergeStore inv.keeps32 4 insn _ h

theorem execSdl (h : P s) : P (Cpu.execSdl s insn) := by
  simp only [Cpu.execSdl]
  exact inv.mergeStore inv.keeps64 8 insn _ h

theorem execSdr (h : P s) : P (Cpu.execSdr s insn) := by
  simp only [Cpu.execSdr]
  exact inv.mergeStore inv.keeps64 8 insn _ h

theorem executeOp (o : Op) (h : P s) : P (Cpu.executeOp fp s o insn) := by
  cases o <;> dsimp only [Cpu.executeOp]
  case COP0 => exact inv.execCop0 insn h
  case LDL => exact inv.execLdl insn h
  case LDR => exact inv.execLdr insn h
  case LWL => exact inv.execLwl insn h
  case LWR => exact inv.execLwr insn h
  case SDL => exact inv.execSdl insn h
  case SDR => exact inv.execSdr insn h
  case SWL => exact inv.execSwl insn h
  case SWR => exact inv.execSwr insn h
  case LB => exact inv.loadWith inv.keeps8 1 _ _ h
  case LBU => exact inv.loadWith inv.keeps8 1 _ _ h
  case LH => exact inv.loadWith inv.keeps16 2 _ _ h
  case LHU => exact inv.loadWith inv.keeps16 2 _ _ h
  case LW => exact inv.loadWith inv.keeps32 4 _ _ h
  case LWU => exact inv.loadWith inv.keeps32 4 _ _ h
  case LD => exact inv.loadWith inv.keeps64 8 _ _ h
  case SB => exact inv.storeWith inv.keeps8 1 _ _ h
  case SH => exact inv.storeWith inv.keeps16 2 _ _ h
  case SW => exact inv.storeWith inv.keeps32 4 _ _ h
  case SD => exact inv.storeWith inv.keeps64 8 _ _ h
  case LL => exact inv.loadLinked inv.keeps32 4 insn _ h
  case LLD => exact inv.loadLinked inv.keeps64 8 insn _ h
  case SC => exact inv.storeConditional inv.keeps32 4 insn _ h
  case SCD => exact inv.storeConditional inv.keeps64 8 insn _ h
  case LWC1 => exact inv.withCop1 h (inv.loadWith inv.keeps32 4 _ _ h)
  case SWC1 => exact inv.withCop1 h (inv.storeWith inv.keeps32 4 _ _ h)
  case LDC1 =>
    refine inv.withCop1 h ?_
    split
    · exact inv.onCpu _ h
    · exact inv.loadWith inv.keeps64 8 _ _ h
  case SDC1 =>
    refine inv.withCop1 h ?_
    split
    · exact inv.onCpu _ h
    · exact inv.storeWith inv.keeps64 8 _ _ h
  case CACHE => exact h
  all_goals exact inv.onCpu _ h

theorem execute (h : P s) : P (Cpu.execute fp s insn) := by
  unfold Cpu.execute
  split
  · exact inv.executeOp insn _ h
  · exact inv.onCpu _ h

theorem finishStep (insnPc : U64) (delaySlot : Bool) (excBefore : U64) (h : P s) :
    P (Cpu.finishStep fp s insnPc delaySlot excBefore insn) := by
  have executed : P (Cpu.execute fp (s.onCpu Cpu.enterStep) insn) :=
    inv.execute insn (inv.onCpu _ h)
  simp only [Cpu.finishStep]
  split
  · exact inv.onCpu _ executed
  · exact inv.onCpu _ executed

end Instructions

section Steps

variable {fp : HostFpu}

theorem fetch (vaddr : U64) (h : P s) : P (Cpu.fetch s vaddr).2 := by
  unfold Cpu.fetch
  split
  · exact inv.cpu _ h
  · split
    · exact inv.cpu _ h
    · exact inv.read32 _ h

theorem stepInsn (h : P s) : P (Cpu.stepInsn fp s) := by
  have fetched := inv.fetch s.cpu.pc
    (inv.onCpu (fun c => { c with inDelaySlot := s.cpu.branchPending }) h)
  simp only [Cpu.stepInsn]
  split
  · exact inv.onCpu _ fetched
  · exact inv.relog _ (inv.finishStep _ _ _ _ fetched)

theorem cpuStep (h : P s) : P (Cpu.step fp s) := by
  simp only [Cpu.step]
  split_ifs
  · exact inv.onCpu _ h
  · exact inv.stepInsn h
  · exact inv.onCpu _ (inv.onCpu _ h)
  · exact inv.stepInsn (inv.onCpu _ h)

theorem executeWord (insn : U32) (h : P s) : P (Cpu.executeWord fp s insn).2 :=
  inv.finishStep insn _ _ _ (inv.onCpu _ h)

theorem blockInsn (insn : U32) (h : P s) : P (Cpu.blockInsn fp s insn).2 := by
  by_cases taken : s.cpu.TakesInterrupt
  · rw [Cpu.blockInsn_taken fp insn taken]
    exact inv.cpu _ h
  · rw [Cpu.blockInsn_executes fp insn taken]
    exact inv.executeWord insn h

end Steps

end BusInvariant

/-- `P` survives what an RSP instruction other than a move to COP0 changes. -/
structure RspReach (P : Sys → Prop) : Prop where
  relog : ∀ {s} log, P s → P { s with log := log }
  pokeSpDmem : ∀ {s} off b, P s → P (s.pokeSpDmem off b)
  pushMemToBus : ∀ {s}, P s → P s.pushMemToBus
  notifyBreak : ∀ {s} intrOnBreak, P s → P (SpRegs.notifyBreak s intrOnBreak)
  pokeRspDmem : ∀ {s} off b, P s → P (s.pokeRspDmem off b)
  setVectorLane : ∀ {s} reg lane value, P s →
    P { s with rsp.vector := RspVector.setVectorLane s.rsp.vector reg lane value }
  executeReg : ∀ {s} insn, P s → P { s with rsp := Rsp.executeReg s.rsp insn }
  execSpecialReg : ∀ {s} insn, P s → P { s with rsp := Rsp.execSpecialReg s.rsp insn }
  broken : ∀ {s}, P s →
    P { s with rsp.broke := true, rsp.halted := true, rsp.branchPending := false }
  idle : ∀ {s}, P s → P { s with rsp.cycles := s.rsp.cycles + 1 }
  retire : ∀ {s}, P s → P { s with rsp := Rsp.retire s.rsp }
  advancePc : ∀ {s} insnPc delaySlot, P s →
    P { s with rsp := Rsp.advancePc s.rsp insnPc delaySlot }

namespace RspReach

variable {P : Sys → Prop} (inv : RspReach P) {s : Sys}
include inv

theorem notify (p : PhysicalAddress) (n : U32) (h : P s) : P (s.notifyMemoryWrite p n) := by
  unfold Sys.notifyMemoryWrite
  split
  · exact h
  · exact inv.relog _ h

theorem mirrorDmem (off : U32) (h : P s) : P (Rsp.mirrorDmem s off) :=
  inv.notify _ _ (inv.pokeSpDmem _ _ h)

theorem storeByte (addr : U32) (v : U8) (h : P s) : P (Rsp.storeByte s addr v) :=
  inv.mirrorDmem _ (inv.pokeRspDmem _ _ h)

theorem storeHalf (addr : U32) (v : U16) (h : P s) : P (Rsp.storeHalf s addr v) := by
  apply inv.notify
  apply inv.notify
  apply inv.pokeSpDmem
  apply inv.pokeSpDmem
  apply inv.pokeRspDmem
  exact inv.pokeRspDmem _ _ h

theorem storeWord (addr : U32) (v : U32) (h : P s) : P (Rsp.storeWord s addr v) := by
  refine upTo_preserves P 4 ?_ fun _ _ _ k => inv.mirrorDmem _ k
  apply inv.pokeRspDmem
  apply inv.pokeRspDmem
  apply inv.pokeRspDmem
  exact inv.pokeRspDmem _ _ h

theorem transferByte (store : Bool) (vt : BitVec 5) (addr : U32) (byte : ℕ) (h : P s) :
    P (Rsp.transferByte store vt addr byte s) := by
  cases store with
  | true => exact inv.storeByte addr _ h
  | false => exact inv.setVectorLane _ _ _ h

theorem transferShifted (store : Bool) (vt : BitVec 5) (addr : U32) (lane : Fin 8) (shift : ℕ)
    (h : P s) : P (Rsp.transferShifted store vt addr lane shift s) := by
  cases store with
  | true => exact inv.storeByte addr _ h
  | false => exact inv.setVectorLane _ _ _ h

theorem transferTransposed (store : Bool) (vt : BitVec 5) (element : ℕ) (address : U32)
    (lane : ℕ) (h : P s) : P (Rsp.transferTransposed store vt element address lane s) := by
  cases store with
  | true => exact inv.storeHalf _ _ h
  | false => exact inv.setVectorLane _ _ _ h

theorem execVectorMemory (insn : U32) (store : Bool) (h : P s) :
    P (Rsp.execVectorMemory s insn store) := by
  have loop {body : ℕ → Sys → Sys} (n : ℕ) (each : ∀ i t, P t → P (body i t)) :
      P (upTo body n s) := upTo_preserves P n h fun i _ t k => each i t k
  simp only [Rsp.execVectorMemory]
  split
  · exact h
  · split_ifs
    · exact h
    · exact loop _ fun _ _ k => inv.transferShifted _ _ _ _ _ k
    · exact loop _ fun _ _ k => inv.transferShifted _ _ _ _ _ k
    · exact h
    · exact loop _ fun _ _ k => inv.transferShifted _ _ _ _ _ k
    · exact loop _ fun _ _ k => inv.transferShifted _ _ _ _ _ k
    · exact h
    · exact loop _ fun _ _ k => inv.transferByte _ _ _ _ k
    · exact loop _ fun _ _ k => inv.transferTransposed _ _ _ _ _ k
    · refine loop _ fun i t k => ?_
      split
      · exact inv.transferByte _ _ _ _ k
      · exact k
    · exact loop _ fun _ _ k => inv.transferByte _ _ _ _ k
    · exact loop _ fun _ _ k => inv.transferByte _ _ _ _ k

theorem doBreak (h : P s) : P (Rsp.doBreak s) :=
  inv.notifyBreak _ (inv.pushMemToBus (inv.broken h))

theorem execute (insn : U32) (plain : op insn ≠ 0x10) (h : P s) : P (Rsp.execute s insn) := by
  unfold Rsp.execute
  split
  · unfold Rsp.execSpecial
    split
    · exact inv.doBreak h
    · exact inv.execSpecialReg insn h
  · exact absurd ‹_› plain
  · exact inv.storeByte _ _ h
  · exact inv.storeHalf _ _ h
  · exact inv.storeWord _ _ h
  · exact inv.storeWord _ _ h
  · exact inv.storeWord _ _ h
  · exact inv.execVectorMemory insn false h
  · exact inv.execVectorMemory insn true h
  · exact inv.executeReg insn h

theorem step (executed : s.rsp.halted = false →
    P (Rsp.execute { s with rsp := Rsp.enterStep s.rsp } (Rsp.fetch s.rsp s.rsp.pc))) (h : P s) :
    P (Rsp.step s) := by
  simp only [Rsp.step]
  by_cases halted : s.rsp.halted = true
  · rw [if_pos halted]
    exact inv.idle h
  · rw [if_neg halted]
    have done := executed (Bool.eq_false_iff.mpr halted)
    split
    · exact inv.pushMemToBus (inv.retire done)
    · exact inv.retire (inv.advancePc _ _ done)

end RspReach

/-- `P` concerns the machine outside the RSP, and survives a break. -/
structure OutsideRsp (P : Sys → Prop) : Prop extends BusInvariant P where
  rsp : ∀ {s} r, P s → P { s with rsp := r }
  pokeSpDmem : ∀ {s} off b, P s → P (s.pokeSpDmem off b)
  pushMemToBus : ∀ {s}, P s → P s.pushMemToBus
  notifyBreak : ∀ {s} intrOnBreak, P s → P (SpRegs.notifyBreak s intrOnBreak)

namespace OutsideRsp

variable {P : Sys → Prop} (inv : OutsideRsp P) {s : Sys}
include inv

theorem rspReach : RspReach P where
  relog := inv.relog
  pokeSpDmem := inv.pokeSpDmem
  pushMemToBus := inv.pushMemToBus
  notifyBreak := inv.notifyBreak
  pokeRspDmem := fun _ _ h => inv.rsp _ h
  setVectorLane := fun _ _ _ h => inv.rsp _ h
  executeReg := fun _ h => inv.rsp _ h
  execSpecialReg := fun _ h => inv.rsp _ h
  broken := fun h => inv.rsp _ h
  idle := fun h => inv.rsp _ h
  retire := fun h => inv.rsp _ h
  advancePc := fun _ _ h => inv.rsp _ h

theorem moveFromCop0 (rdF : ℕ) (h : P s) : P (Rsp.moveFromCop0 s rdF).2 := by
  simp only [Rsp.moveFromCop0]
  split_ifs
  · exact inv.takeSemaphore h
  all_goals exact h

theorem moveToCop0 (rdF : ℕ) (val : U32) (h : P s) : P (Rsp.moveToCop0 s rdF val) := by
  have written := inv.spWrite (BitVec.ofNat 32 (rdF * 4)) val h
  simp only [Rsp.moveToCop0]
  split_ifs
  · exact inv.rsp _ written
  · exact written
  · exact inv.dpWrite _ val h
  · exact h

theorem rspExecute (insn : U32) (h : P s) : P (Rsp.execute s insn) := by
  by_cases moves : op insn = 0x10
  · have cop0 : Rsp.execute s insn = Rsp.execCop0 s insn := by
      simp only [Rsp.execute, moves]
    rw [cop0]
    simp only [Rsp.execCop0]
    split_ifs
    · exact inv.rsp _ (inv.moveFromCop0 _ h)
    · exact inv.moveToCop0 _ _ h
    · exact h
  · exact inv.rspReach.execute insn moves h

theorem rspStep (h : P s) : P (Rsp.step s) :=
  inv.rspReach.step (fun _ => inv.rspExecute _ (inv.rsp _ h)) h

end OutsideRsp

/-- `P` survives besides what the emulator does to the devices without the bus. -/
structure DevicesInvariant (P : Sys → Prop) : Prop extends BusInvariant P where
  rspStep : ∀ {s}, P s → P (Rsp.step s)
  tick : ∀ {s} d, P s → P (Emulator.tickDevices d s)
  reset : ∀ s : Sys, P s.reset
  pushMemToBus : ∀ {s}, P s → P s.pushMemToBus
  clearFrameReady : ∀ {s}, P s → P { s with vi.frameReady := false }
  loadCartridge : ∀ {s} size cart, P s → P { s with bus.cartSize := size, bus.cart := cart }
  loadPifRom : ∀ {s} size rom, P s → P { s with bus.pifRomSize := size, bus.pifRom := rom }
  seedPif : ∀ {s} ram, P s → P { s with pif.pifRam := ram }
  mirrorPif : ∀ {s}, P s → P s.mirrorPif
  resetRsp : ∀ {s}, P s → P { s with rsp := s.rsp.reset }

namespace DevicesInvariant

variable {P : Sys → Prop} (inv : DevicesInvariant P) {s : Sys}
include inv

theorem perform (a : DeviceAct) (h : P s) : P (a.perform s) :=
  inv.toBusInvariant.perform inv.rspStep a h

theorem bootInvariant : BootInvariant P where
  write32 := fun addr value h => inv.write32 addr value h
  loadPifRom := fun size rom h => inv.loadPifRom size rom h
  seedPif := fun ram log h => inv.relog log (inv.seedPif ram h)
  mirrorPif := inv.mirrorPif
  writeGpr := fun _ _ h => inv.onCpu _ h
  setCop0 := fun i value h => inv.setCop0 i value h
  startCpu := fun _ h => inv.onCpu _ h
  resetRsp := inv.resetRsp
  installByte := fun off b h => inv.storeDmem off b h

theorem runInvariant (fp : HostFpu) : RunInvariant fp P where
  relog := inv.relog
  reset := inv.reset
  cpuStep := inv.cpuStep
  blockInsn := inv.blockInsn
  device := inv.perform
  tick := inv.tick
  pushMemToBus := inv.pushMemToBus
  clearFrameReady := inv.clearFrameReady
  loadCartridge := by
    intro s t data loaded h
    unfold Bus.loadCartridge at loaded
    split at loaded
    · cases loaded
    · cases loaded
      exact inv.loadCartridge _ _ h
  boot := fun files cfg h => inv.bootInvariant.hleBootLoaded files cfg h

end DevicesInvariant

end N64
