import N64Emu.SpRegs
import N64Emu.Video
import N64Emu.Audio

/-!
# Bus reads

The side-effect free reads of memory, the register windows, and the typed
reads that choose between them. A read returns the machine beside its value:
reading the SP semaphore takes it.
-/

set_option autoImplicit false

namespace N64

open Words

namespace Mmio

def SP_REGS_BASE : U32 := 0x04040000
def SP_REGS2_BASE : U32 := 0x04080000
def DP_CMD_BASE : U32 := 0x04100000
def MI_BASE : U32 := 0x04300000
def VI_BASE : U32 := 0x04400000
def AI_BASE : U32 := 0x04500000
def PI_BASE : U32 := 0x04600000
def RI_BASE : U32 := 0x04700000
def SI_BASE : U32 := 0x04800000

def inRange (addr base : U32) (size : ℕ) : Bool :=
  base.toNat ≤ addr.toNat && addr.toNat < base.toNat + size

end Mmio

open Mmio

namespace DpRegs

def read (r : DpRegisters) (offset : U32) : U32 :=
  match (offset &&& 0x1C).toNat with
  | 0x00 => r.start
  | 0x04 => r.end_
  | 0x08 => r.current
  | 0x0C => r.status
  | _ => 0

end DpRegs

namespace Bus

def physical (a : U32) : PhysicalAddress := a &&& 0x1FFFFFFF

def isMmioRegion (p : PhysicalAddress) : Bool :=
  inRange p SP_REGS_BASE 0x20 || inRange p SP_REGS2_BASE 0x10 || inRange p DP_CMD_BASE 0x20 ||
  inRange p MI_BASE 0x10 || inRange p VI_BASE 0x40 || inRange p AI_BASE 0x20 ||
  inRange p PI_BASE 0x40 || inRange p RI_BASE 0x20 || inRange p SI_BASE 0x20

def readOpenBus (addr : PhysicalAddress) : U8 := ((addr >>> 8) &&& 0xFF).setWidth 8

def read8Const (s : Sys) (addr : U32) : U8 :=
  let paddr := physical addr
  let p := paddr.toNat
  if p < 0x03F00000 then
    if s.bus.rdramSize = 0 then readOpenBus paddr else s.bus.rdram (p % s.bus.rdramSize)
  else if 0x04000000 ≤ p ∧ p < 0x04001000 then s.bus.spDmem (p - 0x04000000)
  else if 0x04001000 ≤ p ∧ p < 0x04002000 then s.bus.spImem (p - 0x04001000)
  else if 0x10000000 ≤ p ∧ p < 0x1FC00000 then
    if p - 0x10000000 < s.bus.cartSize then s.bus.cart (p - 0x10000000) else 0
  else if 0x1FC00000 ≤ p ∧ p < 0x1FC007C0 then
    if p - 0x1FC00000 < s.bus.pifRomSize then s.bus.pifRom (p - 0x1FC00000) else 0
  else if 0x1FC007C0 ≤ p ∧ p ≤ 0x1FC007FF then s.pif.pifRam (p - 0x1FC007C0)
  else readOpenBus paddr

def read16Const (s : Sys) (addr : U32) : U16 :=
  let p := (physical addr).toNat
  let off := p % s.bus.rdramSize
  if p < 0x03F00000 ∧ s.bus.rdramSize ≠ 0 ∧ off + 1 < s.bus.rdramSize then
    bswap16 (load16 s.bus.rdram off)
  else join16 (read8Const s addr) (read8Const s (addr + 1))

def read32Const (s : Sys) (addr : U32) : U32 :=
  let p := (physical addr).toNat
  let off := p % s.bus.rdramSize
  if p < 0x03F00000 ∧ s.bus.rdramSize ≠ 0 ∧ off + 3 < s.bus.rdramSize then
    bswap32 (load32 s.bus.rdram off)
  else if 0x10000000 ≤ p ∧ p ≤ 0x1FBFFFFF ∧ p - 0x10000000 + 3 < s.bus.cartSize then
    bswap32 (load32 s.bus.cart (p - 0x10000000))
  else if 0x04000000 ≤ p ∧ p < 0x04001000 ∧ p - 0x04000000 + 3 < kSpDmemSize then
    bswap32 (load32 s.bus.spDmem (p - 0x04000000))
  else if 0x04001000 ≤ p ∧ p < 0x04002000 ∧ p - 0x04001000 + 3 < kSpImemSize then
    bswap32 (load32 s.bus.spImem (p - 0x04001000))
  else
    join32 (read8Const s addr) (read8Const s (addr + 1)) (read8Const s (addr + 2))
      (read8Const s (addr + 3))

def readMmio32 (s : Sys) (paddr : PhysicalAddress) : U32 × Sys :=
  if inRange paddr SP_REGS_BASE 0x20 then
    let off := paddr - SP_REGS_BASE
    if off &&& 0x1C = 0x1C then SpRegs.readSemaphore s else (SpRegs.read s.bus.spRegs off, s)
  else if inRange paddr SP_REGS2_BASE 0x10 then (SpRegs.readPc s.rsp (paddr - SP_REGS2_BASE), s)
  else if inRange paddr DP_CMD_BASE 0x20 then (DpRegs.read s.bus.dpRegs (paddr - DP_CMD_BASE), s)
  else if inRange paddr MI_BASE 0x10 then (Mi.read s.bus.mi (paddr - MI_BASE), s)
  else if inRange paddr VI_BASE 0x40 then (Vi.read s.vi (paddr - VI_BASE), s)
  else if inRange paddr AI_BASE 0x20 then (Ai.read s.ai (paddr - AI_BASE), s)
  else if inRange paddr PI_BASE 0x40 then (Pi.read s.bus.pi (paddr - PI_BASE), s)
  else if inRange paddr RI_BASE 0x20 then (Ri.read s.bus.ri (paddr - RI_BASE), s)
  else if inRange paddr SI_BASE 0x20 then (Si.read s.bus.si (paddr - SI_BASE), s)
  else (0, s)

/-- The bit position of a byte lane inside its big-endian word. -/
def laneShift (paddr : PhysicalAddress) : ℕ := (3 - (paddr &&& 3).toNat) * 8

def read8 (s : Sys) (addr : U32) : U8 × Sys :=
  let paddr := physical addr
  if isMmioRegion paddr then
    let (word, s) := readMmio32 s (paddr &&& ~~~3)
    (byteAt word (laneShift paddr), s)
  else (read8Const s paddr, s)

def read16 (s : Sys) (addr : U32) : U16 × Sys :=
  let paddr := physical addr
  if isMmioRegion (paddr &&& ~~~3) || isMmioRegion paddr then
    let (word, s) := readMmio32 s (paddr &&& ~~~3)
    if paddr &&& 2 = 0 then (((word >>> 16) &&& 0xFFFF).setWidth 16, s)
    else ((word &&& 0xFFFF).setWidth 16, s)
  else (read16Const s paddr, s)

def read32 (s : Sys) (addr : U32) : U32 × Sys :=
  let paddr := physical addr
  if isMmioRegion paddr then readMmio32 s (paddr &&& ~~~3)
  else (read32Const s paddr, s)

def read64 (s : Sys) (addr : U32) : U64 × Sys :=
  let p := (physical addr).toNat
  let off := p % s.bus.rdramSize
  if p < 0x03F00000 ∧ s.bus.rdramSize ≠ 0 ∧ off + 7 < s.bus.rdramSize then
    (bswap64 (load64 s.bus.rdram off), s)
  else
    let (hi, s) := read32 s addr
    let (lo, s) := read32 s (addr + 4)
    (join64 hi lo, s)

end Bus

end N64
