import N64Emu.Rdp

/-!
# Bus writes

The register windows and the typed writes. A wide write takes the host-word
path inside one region and otherwise falls back to narrower writes.
-/

set_option autoImplicit false

namespace N64

open Words Mmio

namespace Bus

def writeMmio32 (s : Sys) (paddr : PhysicalAddress) (value : U32) : Sys :=
  if inRange paddr SP_REGS_BASE 0x20 then SpRegs.write s (paddr - SP_REGS_BASE) value
  else if inRange paddr SP_REGS2_BASE 0x10 then SpRegs.writePc s (paddr - SP_REGS2_BASE) value
  else if inRange paddr DP_CMD_BASE 0x20 then DpRegs.write s (paddr - DP_CMD_BASE) value
  else if inRange paddr MI_BASE 0x10 then Mi.write s (paddr - MI_BASE) value
  else if inRange paddr VI_BASE 0x40 then Vi.write s (paddr - VI_BASE) value
  else if inRange paddr AI_BASE 0x20 then Ai.write s (paddr - AI_BASE) value
  else if inRange paddr PI_BASE 0x40 then Pi.write s (paddr - PI_BASE) value
  else if inRange paddr RI_BASE 0x20 then
    { s with bus.ri := Ri.write s.bus.ri (paddr - RI_BASE) value }
  else if inRange paddr SI_BASE 0x20 then Si.write s (paddr - SI_BASE) value
  else s

/-- A byte of DMEM in the bus and in the RSP. -/
def storeDmem (s : Sys) (off : ℕ) (b : U8) : Sys := (s.pokeSpDmem off b).pokeRspDmem off b

def storeImem (s : Sys) (off : ℕ) (b : U8) : Sys := (s.pokeSpImem off b).pokeRspImem off b

/-- A byte of PIF RAM; the control byte with the process flag runs the joybus. -/
def storePifRam (s : Sys) (off : ℕ) (value : U8) : Sys :=
  let s := (s.pokeBusPif off value).pokePif off value
  if off = 0x3F ∧ value &&& Pif.kCtrlProcess ≠ 0 then s.processJoybus.mirrorPif else s

def write8 (s : Sys) (addr : U32) (value : U8) : Sys :=
  let paddr := physical addr
  let p := paddr.toNat
  let s := s.notifyMemoryWrite paddr 1
  if isMmioRegion paddr then
    let aligned := paddr &&& ~~~3
    let (word, s) := readMmio32 s aligned
    let shift := laneShift paddr
    writeMmio32 s aligned
      ((word &&& ~~~(0xFF#32 <<< shift)) ||| (value.setWidth 32 <<< shift))
  else if p < 0x03F00000 then
    if s.bus.rdramSize ≠ 0 then s.pokeRdram (p % s.bus.rdramSize) value else s
  else if 0x04000000 ≤ p ∧ p < 0x04001000 then storeDmem s (p - 0x04000000) value
  else if 0x04001000 ≤ p ∧ p < 0x04002000 then storeImem s (p - 0x04001000) value
  else if 0x1FC007C0 ≤ p ∧ p ≤ 0x1FC007FF then storePifRam s (p - 0x1FC007C0) value
  else s

def write16 (s : Sys) (addr : U32) (value : U16) : Sys :=
  let paddr := physical addr
  let p := paddr.toNat
  let s := s.notifyMemoryWrite paddr 2
  let off := p % s.bus.rdramSize
  if isMmioRegion paddr then
    let aligned := paddr &&& ~~~3
    let (word, s) := readMmio32 s aligned
    if paddr &&& 2 = 0 then
      writeMmio32 s aligned ((word &&& 0x0000FFFF) ||| (value.setWidth 32 <<< 16))
    else writeMmio32 s aligned ((word &&& 0xFFFF0000) ||| value.setWidth 32)
  else if p < 0x03F00000 ∧ s.bus.rdramSize ≠ 0 ∧ off + 1 < s.bus.rdramSize then
    Sys.storeBytes Sys.pokeRdram s off (hostBytes16 (bswap16 value))
  else if 0x04000000 ≤ p ∧ p < 0x04001000 ∧ p - 0x04000000 + 1 < kSpDmemSize then
    Sys.storeBytes storeDmem s (p - 0x04000000) (hostBytes16 (bswap16 value))
  else
    let s := write8 s addr ((value >>> 8).setWidth 8)
    write8 s (addr + 1) (value.setWidth 8)

def write32 (s : Sys) (addr : U32) (value : U32) : Sys :=
  let paddr := physical addr
  let p := paddr.toNat
  let s := s.notifyMemoryWrite paddr 4
  let base := p % s.bus.rdramSize
  if isMmioRegion paddr then writeMmio32 s (paddr &&& ~~~3) value
  else if p < 0x03F00000 ∧ s.bus.rdramSize ≠ 0 ∧ base + 3 < s.bus.rdramSize then
    Sys.storeBytes Sys.pokeRdram s base (hostBytes32 (bswap32 value))
  else if 0x04000000 ≤ p ∧ p < 0x04001000 ∧ p - 0x04000000 + 3 < kSpDmemSize then
    Sys.storeBytes storeDmem s (p - 0x04000000) (hostBytes32 (bswap32 value))
  else if 0x04001000 ≤ p ∧ p < 0x04002000 ∧ p - 0x04001000 + 3 < kSpImemSize then
    Sys.storeBytes storeImem s (p - 0x04001000) (hostBytes32 (bswap32 value))
  else
    let s := write8 s addr (byteAt value 24)
    let s := write8 s (addr + 1) (byteAt value 16)
    let s := write8 s (addr + 2) (byteAt value 8)
    write8 s (addr + 3) (byteAt value 0)

def write64 (s : Sys) (addr : U32) (value : U64) : Sys :=
  let paddr := physical addr
  let p := paddr.toNat
  let s := s.notifyMemoryWrite paddr 8
  let base := p % s.bus.rdramSize
  if p < 0x03F00000 ∧ s.bus.rdramSize ≠ 0 ∧ base + 7 < s.bus.rdramSize then
    Sys.storeBytes Sys.pokeRdram s base (hostBytes64 (bswap64 value))
  else
    let s := write32 s addr ((value >>> 32).setWidth 32)
    write32 s (addr + 4) (value.setWidth 32)

end Bus

end N64
