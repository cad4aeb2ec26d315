import N64Emu.Interrupts
import N64Emu.Joybus

/-!
# Cartridge, serial and RDRAM interfaces

The PI and SI register blocks with their transfers, which complete inside the
register write that starts them, and the RI registers.
-/

set_option autoImplicit false

namespace N64

open Words Loops

def CART_DOM1_BASE : U32 := 0x10000000

namespace Bus

/-- The offset `cart_read_byte` and `cart_write_byte` compute. -/
def cartOffset (cartAddr : U32) : ℕ :=
  (if cartAddr.toNat ≥ 0x10000000 then cartAddr - CART_DOM1_BASE else cartAddr).toNat

def cartReadByte (b : Bus) (cartAddr : U32) : U8 :=
  if cartOffset cartAddr < b.cartSize then b.cart (cartOffset cartAddr) else 0

/-- `rdram()[addr % rdram_size()]`, or zero without RDRAM. -/
def rdramByte (b : Bus) (addr : U32) : U8 :=
  if b.rdramSize = 0 then 0 else b.rdram (addr.toNat % b.rdramSize)

end Bus

namespace Sys

def cartWriteByte (s : Sys) (cartAddr : U32) (value : U8) : Sys :=
  if Bus.cartOffset cartAddr < s.bus.cartSize then s.pokeCart (Bus.cartOffset cartAddr) value else s

/-- `rdram()[addr % rdram_size()] = b`, skipped without RDRAM. -/
def setRdramByte (s : Sys) (addr : U32) (b : U8) : Sys :=
  if s.bus.rdramSize = 0 then s else s.pokeRdram (addr.toNat % s.bus.rdramSize) b

end Sys

namespace Pi

def StatusDmaBusy : U32 := 1#32 <<< 0
def StatusIoBusy : U32 := 1#32 <<< 1
def StatusError : U32 := 1#32 <<< 2
def StatusIntr : U32 := 1#32 <<< 3
def WrReset : U32 := 1#32 <<< 0
def WrClrIntr : U32 := 1#32 <<< 1

def reset (_ : PeripheralInterface) : PeripheralInterface := {}

def read (r : PeripheralInterface) (offset : U32) : U32 :=
  match (offset &&& 0x3C).toNat with
  | 0x00 => r.dramAddr &&& 0x00FFFFFE
  | 0x04 => r.cartAddr &&& 0xFFFFFFFE
  | 0x08 => r.rdLen
  | 0x0C => r.wrLen
  | 0x10 => r.status
  | 0x14 => r.dom1Lat
  | 0x18 => r.dom1Pwd
  | 0x1C => r.dom1Pgs
  | 0x20 => r.dom1Rls
  | 0x24 => r.dom2Lat
  | 0x28 => r.dom2Pwd
  | 0x2C => r.dom2Pgs
  | 0x30 => r.dom2Rls
  | _ => 0

def finishDma (s : Sys) : Sys :=
  Mi.raise
    { s with bus.pi.status := (s.bus.pi.status &&& ~~~StatusDmaBusy) ||| StatusIntr } MiIntr.PI

def setDmaBusy (s : Sys) : Sys :=
  { s with bus.pi.status := s.bus.pi.status ||| StatusDmaBusy }

/-- The register updates shared by both directions after the byte loop. -/
def advance (s : Sys) (dram cart length : U32) : Sys :=
  finishDma
    { s with
        bus.pi.dramAddr := dram + length
        bus.pi.cartAddr := cart + length
        bus.pi.lastDmaBytes := length }

def startDmaToRdram (s : Sys) : Sys :=
  let length := (s.bus.pi.rdLen &&& 0x00FFFFFF) + 1
  let dram := s.bus.pi.dramAddr &&& ~~~1
  let cart := s.bus.pi.cartAddr &&& ~~~1
  let s := setDmaBusy s
  let s := upTo (fun i s =>
    s.setRdramByte (dram + BitVec.ofNat 32 i) (s.bus.cartReadByte (cart + BitVec.ofNat 32 i)))
    length.toNat s
  let s := s.notifyMemoryWrite dram length
  advance s dram cart length

def startDmaToCart (s : Sys) : Sys :=
  let length := (s.bus.pi.wrLen &&& 0x00FFFFFF) + 1
  let dram := s.bus.pi.dramAddr &&& ~~~1
  let cart := s.bus.pi.cartAddr &&& ~~~1
  let s := setDmaBusy s
  let s := upTo (fun i s =>
    s.cartWriteByte (cart + BitVec.ofNat 32 i) (s.bus.rdramByte (dram + BitVec.ofNat 32 i)))
    length.toNat s
  advance s dram cart length

def writeStatus (s : Sys) (value : U32) : Sys :=
  let s :=
    if value &&& WrReset ≠ 0 then
      { s with bus.pi.status :=
          s.bus.pi.status &&& ~~~(StatusDmaBusy ||| StatusIoBusy ||| StatusError) }
    else s
  if value &&& WrClrIntr ≠ 0 then
    Mi.clear { s with bus.pi.status := s.bus.pi.status &&& ~~~StatusIntr } MiIntr.PI
  else s

def write (s : Sys) (offset value : U32) : Sys :=
  match (offset &&& 0x3C).toNat with
  | 0x00 => { s with bus.pi.dramAddr := value &&& 0x00FFFFFF }
  | 0x04 => { s with bus.pi.cartAddr := value }
  | 0x08 => startDmaToRdram { s with bus.pi.rdLen := value &&& 0x00FFFFFF }
  | 0x0C => startDmaToCart { s with bus.pi.wrLen := value &&& 0x00FFFFFF }
  | 0x10 => writeStatus s value
  | 0x14 => { s with bus.pi.dom1Lat := value &&& 0xFF }
  | 0x18 => { s with bus.pi.dom1Pwd := value &&& 0xFF }
  | 0x1C => { s with bus.pi.dom1Pgs := value &&& 0xFF }
  | 0x20 => { s with bus.pi.dom1Rls := value &&& 0xFF }
  | 0x24 => { s with bus.pi.dom2Lat := value &&& 0xFF }
  | 0x28 => { s with bus.pi.dom2Pwd := value &&& 0xFF }
  | 0x2C => { s with bus.pi.dom2Pgs := value &&& 0xFF }
  | 0x30 => { s with bus.pi.dom2Rls := value &&& 0xFF }
  | _ => s

end Pi

namespace Si

def StatusDmaBusy : U32 := 1#32 <<< 0
def StatusIntr : U32 := 1#32 <<< 12

def reset (_ : SerialInterface) : SerialInterface := {}

def read (r : SerialInterface) (offset : U32) : U32 :=
  match (offset &&& 0x1C).toNat with
  | 0x00 => r.dramAddr &&& 0x00FFFFFF
  | 0x18 => r.status
  | _ => 0

def finishDma (s : Sys) : Sys :=
  Mi.raise
    { s with bus.si.status := (s.bus.si.status &&& ~~~StatusDmaBusy) ||| StatusIntr } MiIntr.SI

def setDmaBusy (s : Sys) : Sys :=
  { s with bus.si.status := s.bus.si.status ||| StatusDmaBusy }

def runRequested (s : Sys) : Sys := if s.pif.processRequested then s.processJoybus else s

def dmaFromPif (s : Sys) : Sys :=
  let s := setDmaBusy s
  let s := runRequested s
  let dram := s.bus.si.dramAddr &&& ~~~7
  let len := kPifRamSize
  let s := upTo (fun i s =>
    s.setRdramByte (dram + BitVec.ofNat 32 i) (s.pif.pifRam i)) len s
  let s := s.notifyMemoryWrite dram (BitVec.ofNat 32 len)
  let s := s.mirrorPif
  finishDma { s with bus.si.lastDmaBytes := BitVec.ofNat 32 len }

def dmaToPif (s : Sys) : Sys :=
  let s := setDmaBusy s
  let dram := s.bus.si.dramAddr &&& ~~~7
  let len := kPifRamSize
  let s := upTo (fun i s => s.pokePif i (s.bus.rdramByte (dram + BitVec.ofNat 32 i))) len s
  let s := s.mirrorPif
  let s := if s.pif.processRequested then s.processJoybus.mirrorPif else s
  finishDma { s with bus.si.lastDmaBytes := BitVec.ofNat 32 len }

def write (s : Sys) (offset value : U32) : Sys :=
  match (offset &&& 0x1C).toNat with
  | 0x00 => { s with bus.si.dramAddr := value &&& 0x00FFFFFF }
  | 0x04 => dmaFromPif s
  | 0x10 => dmaToPif s
  | 0x18 => Mi.clear { s with bus.si.status := s.bus.si.status &&& ~~~StatusIntr } MiIntr.SI
  | _ => s

end Si

namespace Ri

def reset (_ : RdramInterface) : RdramInterface := {}

def read (r : RdramInterface) (offset : U32) : U32 :=
  match (offset &&& 0x1C).toNat with
  | 0x00 => r.mode
  | 0x04 => r.config
  | 0x08 => r.currentLoad
  | 0x0C => r.select
  | 0x10 => r.refresh
  | 0x14 => r.latency
  | 0x18 => r.rerror
  | 0x1C => r.werror
  | _ => 0

def write (r : RdramInterface) (offset value : U32) : RdramInterface :=
  match (offset &&& 0x1C).toNat with
  | 0x00 => { r with mode := value }
  | 0x04 => { r with config := value }
  | 0x08 => { r with currentLoad := value }
  | 0x0C => { r with select := value }
  | 0x10 => { r with refresh := value }
  | 0x14 => { r with latency := value }
  | 0x18 => { r with rerror := 0 }
  | 0x1C => { r with werror := 0 }
  | _ => r

end Ri

end N64
