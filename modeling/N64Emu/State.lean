import N64Emu.Words

/-!
# The wired machine

Every component of the emulator as `Emulator::Impl::wire` connects them: each
peripheral pointer is set, so the source's null checks succeed. The trace
callback and the debugger are absent.

The CPU and the devices never read the block cache. A step therefore records
the notifications and flushes it makes, in order, in `log`, and the machine
that owns the cache applies them. The other events mark the CPU's own bus
accesses and every byte of memory that is stored; no definition reads them.
-/

set_option autoImplicit false

namespace N64

open Words

inductive Cell where
  | rdram (off : ℕ)
  | dmem (off : ℕ)
  | imem (off : ℕ)
  | cart (off : ℕ)
  | pif (off : ℕ)
  deriving DecidableEq, Repr

inductive Event where
  | load (paddr : PhysicalAddress) (size : ℕ)
  | store (paddr : PhysicalAddress) (size : ℕ)
  | wrote (cell : Cell)
  | notify (paddr : PhysicalAddress) (size : U32)
  | flush
  deriving DecidableEq, Repr

namespace Cop0Reg

def Index : BitVec 5 := 0
def Random : BitVec 5 := 1
def EntryLo0 : BitVec 5 := 2
def EntryLo1 : BitVec 5 := 3
def Context : BitVec 5 := 4
def PageMask : BitVec 5 := 5
def Wired : BitVec 5 := 6
def BadVAddr : BitVec 5 := 8
def Count : BitVec 5 := 9
def EntryHi : BitVec 5 := 10
def Compare : BitVec 5 := 11
def Status : BitVec 5 := 12
def Cause : BitVec 5 := 13
def EPC : BitVec 5 := 14
def PRId : BitVec 5 := 15
def Config : BitVec 5 := 16
def ErrorEPC : BitVec 5 := 30

end Cop0Reg

structure TlbEntry where
  pageMask : U32 := 0
  entryHi : U32 := 0
  entryLo0 : U32 := 0
  entryLo1 : U32 := 0
  deriving DecidableEq

structure Cpu where
  gpr : BitVec 5 → U64 := fun _ => 0
  fpr : BitVec 5 → U64 := fun _ => 0
  cop0 : BitVec 5 → U32 := fun _ => 0
  tlb : BitVec 5 → TlbEntry := fun _ => {}
  pc : U64 := 0
  nextPc : U64 := 0
  hi : U64 := 0
  lo : U64 := 0
  fcr31 : U32 := 0
  cycles : Cycles := 0
  halted : Bool := false
  inDelaySlot : Bool := false
  branchPending : Bool := false
  llBit : Bool := false
  llAddr : U64 := 0
  exceptionCount : U64 := 0
  unknownOpcodeCount : U64 := 0

structure MipsInterface where
  mode : U32 := 0
  intr : U32 := 0
  intrMask : U32 := 0
  deriving DecidableEq

structure PeripheralInterface where
  dramAddr : U32 := 0
  cartAddr : U32 := 0
  rdLen : U32 := 0
  wrLen : U32 := 0
  status : U32 := 0
  dom1Lat : U32 := 0x40
  dom1Pwd : U32 := 0x12
  dom1Pgs : U32 := 0x07
  dom1Rls : U32 := 0x03
  dom2Lat : U32 := 0x40
  dom2Pwd : U32 := 0x12
  dom2Pgs : U32 := 0x07
  dom2Rls : U32 := 0x03
  lastDmaBytes : U32 := 0
  deriving DecidableEq

structure SerialInterface where
  dramAddr : U32 := 0
  status : U32 := 0
  lastDmaBytes : U32 := 0
  deriving DecidableEq

structure RdramInterface where
  mode : U32 := 0x0E
  config : U32 := 0x40
  currentLoad : U32 := 0
  select : U32 := 0x14
  refresh : U32 := 0x00063624
  latency : U32 := 0x15
  rerror : U32 := 0
  werror : U32 := 0
  deriving DecidableEq

namespace SpRegisters

def StHalt : U32 := 1#32 <<< 0
def StBroke : U32 := 1#32 <<< 1
def StDmaBusy : U32 := 1#32 <<< 2
def StDmaFull : U32 := 1#32 <<< 3
def StSingleStep : U32 := 1#32 <<< 5
def StIntrOnBreak : U32 := 1#32 <<< 6
def StSignal0 : U32 := 1#32 <<< 7

end SpRegisters

structure SpRegisters where
  memAddr : U32 := 0
  dramAddr : U32 := 0
  status : U32 := SpRegisters.StHalt
  semaphore : U32 := 0
  lastDmaBytes : U32 := 0
  deriving DecidableEq

namespace DpRegisters

def StXbusDma : U32 := 1#32 <<< 0
def StFreeze : U32 := 1#32 <<< 1
def StFlush : U32 := 1#32 <<< 2
def StPipeBusy : U32 := 1#32 <<< 5
def StCmdBusy : U32 := 1#32 <<< 6
def StCbufReady : U32 := 1#32 <<< 7
def StDmaBusy : U32 := 1#32 <<< 8
def StEndValid : U32 := 1#32 <<< 9
def StStartValid : U32 := 1#32 <<< 10

end DpRegisters

structure DpRegisters where
  start : U32 := 0
  end_ : U32 := 0
  current : U32 := 0
  status : U32 := DpRegisters.StCbufReady
  deriving DecidableEq

/-- The memories and register blocks the bus owns; the three byte stores whose
size the source does not fix carry it beside them. -/
structure Bus where
  rdramSize : ℕ := kRdramSize
  rdram : Bytes := fun _ => 0
  cartSize : ℕ := 0
  cart : Bytes := fun _ => 0
  pifRomSize : ℕ := 0
  pifRom : Bytes := fun _ => 0
  spDmem : Bytes := fun _ => 0
  spImem : Bytes := fun _ => 0
  pifRam : Bytes := fun _ => 0
  mi : MipsInterface := {}
  pi : PeripheralInterface := {}
  si : SerialInterface := {}
  ri : RdramInterface := {}
  spRegs : SpRegisters := {}
  dpRegs : DpRegisters := {}

structure VideoInterface where
  regs : ℕ → U32 := fun _ => 0
  cycleAccum : Cycles := 0
  cyclesPerLine : Cycles := 5963
  linesPerFrame : U32 := 262
  frameCount : U64 := 0
  frameReady : Bool := false
  interruptLine : Bool := false

structure DmaJob where
  dramAddr : U32 := 0
  length : U32 := 0
  deriving DecidableEq

structure AudioInterface where
  regs : ℕ → U32 := fun _ => 0
  dmaEnabled : Bool := false
  dmaActive : Bool := false
  dmaQueued : Bool := false
  current : DmaJob := {}
  queued : DmaJob := {}
  bytesRemaining : U32 := 0
  cycleAccum : Cycles := 0
  cyclesPerFrame : Cycles := 0
  readCursor : U32 := 0
  ring : ℕ → U16 := fun _ => 0
  ringR : U64 := 0
  ringW : U64 := 0
  samplesPushed : U64 := 0
  framesDropped : U64 := 0
  dmasCompleted : U64 := 0

structure ControllerState where
  buttons : U16 := 0
  stickX : U8 := 0
  stickY : U8 := 0
  present : Bool := true
  deriving DecidableEq

structure Pif where
  controllers : Fin 4 → ControllerState := fun _ => {}
  pifRam : Bytes := fun _ => 0
  joybusCount : U32 := 0

/-- The RSP state that the vector instructions read and write. An accumulator
lane is an integer, kept in 48-bit range by every instruction that sets it. -/
structure VectorUnit where
  vpr : BitVec 5 → Fin 8 → U16 := fun _ _ => 0
  accumulator : Fin 8 → ℤ := fun _ => 0
  vco : U16 := 0
  vcc : U16 := 0
  vce : U8 := 0
  divIn : U32 := 0
  divOut : U32 := 0
  divHighPending : Bool := false

structure Rsp where
  dmem : Bytes := fun _ => 0
  imem : Bytes := fun _ => 0
  gpr : BitVec 5 → U32 := fun _ => 0
  vector : VectorUnit := {}
  pc : U32 := 0
  nextPc : U32 := 4
  branchPending : Bool := false
  inDelaySlot : Bool := false
  halted : Bool := true
  broke : Bool := false
  intrOnBreak : Bool := false
  cycles : U64 := 0
  retired : U64 := 0

structure RdpImage where
  address : U32 := 0
  width : U32 := 0
  size : U8 := 2
  format : U8 := 0
  valid : Bool := false
  deriving DecidableEq

structure RdpTile where
  format : U8 := 0
  size : U8 := 2
  line : U16 := 0
  tmem : U16 := 0
  palette : U8 := 0
  ct : U8 := 0
  mt : U8 := 0
  cs : U8 := 0
  ms : U8 := 0
  maskT : U8 := 0
  shiftT : U8 := 0
  maskS : U8 := 0
  shiftS : U8 := 0
  sl : U16 := 0
  tl : U16 := 0
  sh : U16 := 0
  th : U16 := 0
  defined : Bool := false
  deriving DecidableEq

structure RdpScissor where
  xh : ℤ := 0
  yh : ℤ := 0
  xl : ℤ := 320
  yl : ℤ := 240
  set : Bool := false
  deriving DecidableEq

structure Rdp where
  colorImage : RdpImage := {}
  textureImage : RdpImage := {}
  scissor : RdpScissor := {}
  tiles : BitVec 3 → RdpTile := fun _ => {}
  tmem : Bytes := fun _ => 0
  fillColor : U32 := 0
  blendColor : U32 := 0
  otherModes : U64 := 0
  busy : Bool := false
  cmdsExecuted : U64 := 0
  fillPixels : U64 := 0
  texPixels : U64 := 0

structure Sys where
  cpu : Cpu := {}
  bus : Bus := {}
  vi : VideoInterface := {}
  ai : AudioInterface := {}
  pif : Pif := {}
  rsp : Rsp := {}
  rdp : Rdp := {}
  log : List Event := []

namespace Sys

def emit (s : Sys) (e : Event) : Sys := { s with log := s.log ++ [e] }

def emitAll (s : Sys) (es : List Event) : Sys := { s with log := s.log ++ es }

/-- `Bus::notify_memory_write`, as far as the devices see it. -/
def notifyMemoryWrite (s : Sys) (paddr : PhysicalAddress) (size : U32) : Sys :=
  if size = 0 then s else s.emit (.notify paddr size)

def pokeRdram (s : Sys) (off : ℕ) (b : U8) : Sys :=
  { s with bus.rdram := Function.update s.bus.rdram off b
           log := s.log ++ [.wrote (.rdram off)] }

/-- A byte of the bus copy of DMEM. -/
def pokeSpDmem (s : Sys) (off : ℕ) (b : U8) : Sys :=
  { s with bus.spDmem := Function.update s.bus.spDmem off b
           log := s.log ++ [.wrote (.dmem off)] }

def pokeSpImem (s : Sys) (off : ℕ) (b : U8) : Sys :=
  { s with bus.spImem := Function.update s.bus.spImem off b
           log := s.log ++ [.wrote (.imem off)] }

def pokeRspDmem (s : Sys) (off : ℕ) (b : U8) : Sys :=
  { s with rsp.dmem := Function.update s.rsp.dmem off b }

def pokeRspImem (s : Sys) (off : ℕ) (b : U8) : Sys :=
  { s with rsp.imem := Function.update s.rsp.imem off b }

def pokeCart (s : Sys) (off : ℕ) (b : U8) : Sys :=
  { s with bus.cart := Function.update s.bus.cart off b
           log := s.log ++ [.wrote (.cart off)] }

/-- A byte of the bus copy of PIF RAM, which no read of the bus returns. -/
def pokeBusPif (s : Sys) (off : ℕ) (b : U8) : Sys :=
  { s with bus.pifRam := Function.update s.bus.pifRam off b }

/-- The cells of a memory of `size` bytes at which two contents differ. -/
def changed (cell : ℕ → Cell) (size : ℕ) (old new : Bytes) : List Event :=
  ((List.range size).filter fun i => new i ≠ old i).map fun i => .wrote (cell i)

def pokePif (s : Sys) (off : ℕ) (b : U8) : Sys :=
  { s with pif.pifRam := Function.update s.pif.pifRam off b
           log := s.log ++ [.wrote (.pif off)] }

/-- `memcpy` of a host word's bytes through one of the byte stores above. -/
def storeBytes (poke : Sys → ℕ → U8 → Sys) (s : Sys) (off : ℕ) : List U8 → Sys
  | [] => s
  | b :: bs => storeBytes poke (poke s off b) (off+1) bs

end Sys

end N64
