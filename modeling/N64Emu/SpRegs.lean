import N64Emu.PeripheralDma

/-!
# The SP register block

Transfers between RDRAM and the SP memories run line by line on the bus copy
and end with a copy of the whole memory into the RSP. The status register is
a decoder of independent commands, applied in the order of the source.
-/

set_option autoImplicit false

namespace N64

open Words Loops

namespace Rsp

def kImemMask : U32 := 0xFFC

def setHalted (r : Rsp) (h : Bool) : Rsp :=
  { r with halted := h, broke := if h then r.broke else false }

def setBroke (r : Rsp) (b : Bool) : Rsp := { r with broke := b }

def setIntrOnBreak (r : Rsp) (v : Bool) : Rsp := { r with intrOnBreak := v }

def setPc (r : Rsp) (pc : U32) : Rsp :=
  { r with
      pc := pc &&& kImemMask
      nextPc := ((pc &&& kImemMask) + 4) &&& kImemMask
      branchPending := false }

end Rsp

namespace Sys

def pullMemFromBus (s : Sys) : Sys :=
  { s with rsp.dmem := s.bus.spDmem, rsp.imem := s.bus.spImem }

def pushMemToBus (s : Sys) : Sys :=
  { s with
      bus.spDmem := s.rsp.dmem
      bus.spImem := s.rsp.imem
      log := s.log ++ changed .dmem kSpDmemSize s.bus.spDmem s.rsp.dmem ++
        changed .imem kSpImemSize s.bus.spImem s.rsp.imem }

end Sys

namespace SpRegs

open SpRegisters

def WrClearHalt : U32 := 1#32 <<< 0
def WrSetHalt : U32 := 1#32 <<< 1
def WrClearBroke : U32 := 1#32 <<< 2
def WrClearIntr : U32 := 1#32 <<< 3
def WrSetIntr : U32 := 1#32 <<< 4
def WrClearSStep : U32 := 1#32 <<< 5
def WrSetSStep : U32 := 1#32 <<< 6
def WrClearIntrBreak : U32 := 1#32 <<< 7
def WrSetIntrBreak : U32 := 1#32 <<< 8

structure SpDmaLen where
  length : U32
  count : U32
  skip : U32

def decodeLen (value : U32) : SpDmaLen :=
  { length := (value &&& 0xFFF) + 1
    count := ((value >>> 12) &&& 0xFF) + 1
    skip := (value >>> 20) &&& 0xFFF }

def reset (s : Sys) : Sys :=
  { s with bus.spRegs := {}, rsp := s.rsp.setHalted true }

def read (r : SpRegisters) (offset : U32) : U32 :=
  match (offset &&& 0x1C).toNat with
  | 0x00 => r.memAddr &&& 0x1FFF
  | 0x04 => r.dramAddr &&& 0x00FFFFFF
  | 0x10 => r.status
  | 0x14 => if r.status &&& StDmaFull ≠ 0 then 1 else 0
  | 0x18 => if r.status &&& StDmaBusy ≠ 0 then 1 else 0
  | 0x1C => r.semaphore
  | _ => 0

def readSemaphore (s : Sys) : U32 × Sys :=
  (s.bus.spRegs.semaphore, { s with bus.spRegs.semaphore := 1 })

/-- A byte of the bus copy of the SP memory a transfer uses. -/
def spmem (b : Bus) (imem : Bool) (off : ℕ) : U8 := if imem then b.spImem off else b.spDmem off

def setSpmem (s : Sys) (imem : Bool) (off : ℕ) (b : U8) : Sys :=
  if imem then s.pokeSpImem off b else s.pokeSpDmem off b

def dmaByte (toSp imem : Bool) (mem dram : U32) (i : ℕ) (s : Sys) : Sys :=
  let spOff := ((mem + BitVec.ofNat 32 i) &&& 0xFFF).toNat
  let drOff := dram + BitVec.ofNat 32 i
  if toSp then setSpmem s imem spOff (s.bus.rdramByte drOff)
  else s.setRdramByte drOff (spmem s.bus imem spOff)

/-- The locals of `do_dma` beside the machine. -/
structure DmaState where
  sys : Sys
  mem : U32
  dram : U32
  total : U32

def dmaLine (toSp imem : Bool) (d : SpDmaLen) (t : DmaState) : DmaState :=
  let s := upTo (dmaByte toSp imem t.mem t.dram) d.length.toNat t.sys
  let base : U32 := if imem then 0x04001000 else 0x04000000
  let s :=
    if toSp then s.notifyMemoryWrite (base + t.mem) d.length
    else s.notifyMemoryWrite t.dram d.length
  { sys := s
    mem := (t.mem + d.length) &&& 0xFFF
    dram := t.dram + d.length + d.skip
    total := t.total + d.length }

def setDmaBusy (s : Sys) : Sys :=
  { s with bus.spRegs.status := s.bus.spRegs.status ||| StDmaBusy }

/-- `std::copy` of the bus memory of a transfer over the RSP's. -/
def copyToRsp (s : Sys) (imem : Bool) : Sys :=
  if imem then { s with rsp.imem := s.bus.spImem } else { s with rsp.dmem := s.bus.spDmem }

def doDma (s : Sys) (toSp : Bool) (lenReg : U32) : Sys :=
  let d := decodeLen lenReg
  let s := setDmaBusy s
  let mem := s.bus.spRegs.memAddr &&& 0x1FFF
  let dram := s.bus.spRegs.dramAddr &&& 0x00FFFFFF
  let imem := (mem &&& 0x1000) != 0
  let t := upTo (fun _ t => dmaLine toSp imem d t) d.count.toNat
    { sys := s, mem := mem &&& 0xFFF, dram := dram, total := 0 }
  let s := copyToRsp t.sys imem
  Mi.raise
    { s with
        bus.spRegs.memAddr := (if imem then 0x1000 else 0) ||| t.mem
        bus.spRegs.dramAddr := t.dram &&& 0x00FFFFFF
        bus.spRegs.lastDmaBytes := t.total
        bus.spRegs.status := s.bus.spRegs.status &&& ~~~StDmaBusy } MiIntr.SP

def readPc (r : Rsp) (offset : U32) : U32 :=
  if offset &&& 0x0C = 0x00 then r.pc &&& 0xFFC else 0

def writePc (s : Sys) (offset value : U32) : Sys :=
  if offset &&& 0x0C = 0x00 then { s with rsp := s.rsp.setPc (value &&& 0xFFC) } else s

def setStatus (s : Sys) (bits : U32) : Sys :=
  { s with bus.spRegs.status := s.bus.spRegs.status ||| bits }

def clearStatus (s : Sys) (bits : U32) : Sys :=
  { s with bus.spRegs.status := s.bus.spRegs.status &&& ~~~bits }

def notifyBreak (s : Sys) (intrOnBreak : Bool) : Sys :=
  let s := setStatus s (StBroke ||| StHalt)
  if intrOnBreak then Mi.raise s MiIntr.SP else s

def clearHalt (s : Sys) : Sys :=
  let s := clearStatus s StHalt
  let s := clearStatus s StBroke
  let s := { s with rsp := (s.rsp.setHalted false).setBroke false }
  s.pullMemFromBus

def setHalt (s : Sys) : Sys :=
  let s := setStatus s StHalt
  { s with rsp := s.rsp.setHalted true }

def clearBroke (s : Sys) : Sys :=
  let s := clearStatus s StBroke
  { s with rsp := s.rsp.setBroke false }

def clearIntrBreak (s : Sys) : Sys :=
  let s := clearStatus s StIntrOnBreak
  { s with rsp := s.rsp.setIntrOnBreak false }

def setIntrBreak (s : Sys) : Sys :=
  let s := setStatus s StIntrOnBreak
  { s with rsp := s.rsp.setIntrOnBreak true }

def signalStep (value : U32) (i : ℕ) (s : Sys) : Sys :=
  let bit := StSignal0 <<< i
  let s := onBit value (1#32 <<< (9 + i * 2)) (clearStatus · bit) s
  onBit value (1#32 <<< (10 + i * 2)) (setStatus · bit) s

def applyStatusWrite (s : Sys) (value : U32) : Sys :=
  let s := onBit value WrClearHalt clearHalt s
  let s := onBit value WrSetHalt setHalt s
  let s := onBit value WrClearBroke clearBroke s
  let s := onBit value WrClearIntr (Mi.clear · MiIntr.SP) s
  let s := onBit value WrSetIntr (Mi.raise · MiIntr.SP) s
  let s := onBit value WrClearSStep (clearStatus · StSingleStep) s
  let s := onBit value WrSetSStep (setStatus · StSingleStep) s
  let s := onBit value WrClearIntrBreak clearIntrBreak s
  let s := onBit value WrSetIntrBreak setIntrBreak s
  upTo (signalStep value) 8 s

def write (s : Sys) (offset value : U32) : Sys :=
  match (offset &&& 0x1C).toNat with
  | 0x00 => { s with bus.spRegs.memAddr := value &&& 0x1FFF }
  | 0x04 => { s with bus.spRegs.dramAddr := value &&& 0x00FFFFFF }
  | 0x08 => doDma s true value
  | 0x0C => doDma s false value
  | 0x10 => applyStatusWrite s value
  | 0x1C => { s with bus.spRegs.semaphore := 0 }
  | _ => s

end SpRegs

end N64
