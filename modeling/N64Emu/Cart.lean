import N64Emu.Words

/-!
# Cartridge images

The header, the CIC the boot code is fingerprinted to, and the byte orders an
image comes in. Every header field is read, so all of them are kept.
-/

set_option autoImplicit false

namespace N64

open Words

inductive CicType where
  | Unknown | Cic6101 | Cic6102 | Cic6103 | Cic6105 | Cic6106 | Cic5101 | CicX103 | CicX105
  | CicX106
  deriving DecidableEq, Repr

inductive TvType where
  | PAL | NTSC | MPAL
  deriving DecidableEq, Repr

/-- The `osTvType` value of a TV system. -/
def TvType.code : TvType → U8
  | .PAL => 0
  | .NTSC => 1
  | .MPAL => 2

structure CartHeader where
  piBsdDom1 : U32 := 0
  clockRate : U32 := 0
  pc : U32 := 0
  release : U32 := 0
  crc1 : U32 := 0
  crc2 : U32 := 0
  name : List U8 := List.replicate 21 0
  media : U8 := 0
  cartId : U8 × U8 := (0, 0)
  country : U8 := 0
  version : U8 := 0
  cic : CicType := .Unknown
  tv : TvType := .NTSC
  entrypoint : U32 := 0
  cicSeed : U8 := 0x3F
  ipl3Crc32 : U32 := 0
  deriving DecidableEq

namespace Cart

def crcBit (crc : U32) : U32 :=
  (crc >>> 1) ^^^ (0xEDB88320#32 &&& -(crc &&& 1))

def crcByte (crc : U32) (b : U8) : U32 := crcBit^[8] (crc ^^^ b.setWidth 32)

def crc32Bytes (data : List U8) : U32 := ~~~data.foldl crcByte 0xFFFFFFFF

def cicFromIpl3Crc (crc : U32) : CicType :=
  match crc.toNat with
  | 0x6170A4A1 => .Cic6101
  | 0x90BB6CB5 => .Cic6102
  | 0x0B050EE0 => .Cic6102
  | 0x98BC2C86 => .Cic6103
  | 0xACC8580A => .Cic6105
  | 0x0E018FFF => .Cic6106
  | 0xA536C0F0 => .Cic6106
  | 0xC2A167C6 => .Cic5101
  | 0x009E9EA3 => .CicX103
  | _ => .Unknown

def cicSeed : CicType → U8
  | .Cic6101 | .Cic6102 => 0x3F
  | .Cic6103 | .CicX103 => 0x78
  | .Cic6105 | .CicX105 => 0x91
  | .Cic6106 | .CicX106 => 0x85
  | .Cic5101 => 0xAC
  | .Unknown => 0x3F

def fixupEntrypoint (cic : CicType) (rawPc : U32) : U32 :=
  match cic with
  | .Cic6103 | .CicX103 | .Cic5101 => rawPc - 0x00100000
  | .Cic6106 | .CicX106 => rawPc - 0x00200000
  | _ => rawPc

def tvFromCountry (country : U8) : TvType :=
  match Char.ofNat country.toNat with
  | 'E' | 'J' | 'U' | '7' => .NTSC
  | 'P' | 'D' | 'F' | 'I' | 'S' | 'H' | 'X' | 'Y' | 'W' => .PAL
  | 'B' | 'N' => .MPAL
  | _ => .NTSC

/-- `rom.subspan(0x40, 0x1000 - 0x40)`. -/
def ipl3 (rom : List U8) : List U8 := (rom.drop 0x40).take (0x1000 - 0x40)

/-- A sparse boot block and an unknown one both fall back to the common CIC. -/
def detectCic (rom : List U8) : CicType :=
  if rom.length < 0x1000 then .Cic6102
  else
    let known := cicFromIpl3Crc (crc32Bytes (ipl3 rom))
    if known ≠ .Unknown then known else .Cic6102

def beU32 (s : List U8) (off : ℕ) : U32 :=
  if off + 4 > s.length then 0
  else join32 (s.getD off 0) (s.getD (off+1) 0) (s.getD (off+2) 0) (s.getD (off+3) 0)

/-- The entry point of a header, or the default where it is zero. -/
def entrypointOf (cic : CicType) (rawPc : U32) : U32 :=
  let entrypoint := fixupEntrypoint cic rawPc
  if entrypoint = 0 then 0x80000400 else entrypoint

def parseCartHeader (rom : List U8) : CartHeader :=
  if rom.length < 0x40 then {}
  else
    let pc := beU32 rom 0x08
    let country := rom.getD 0x3E 0
    let cic := detectCic rom
    { piBsdDom1 := beU32 rom 0x00
      clockRate := beU32 rom 0x04
      pc := pc
      release := beU32 rom 0x0C
      crc1 := beU32 rom 0x10
      crc2 := beU32 rom 0x14
      name := (rom.drop 0x20).take 20 ++ [0]
      media := rom.getD 0x38 0
      cartId := (rom.getD 0x3C 0, rom.getD 0x3D 0)
      country := country
      version := rom.getD 0x3F 0
      tv := tvFromCountry country
      cic := cic
      cicSeed := cicSeed cic
      entrypoint := entrypointOf cic pc
      ipl3Crc32 := if rom.length ≥ 0x1000 then crc32Bytes (ipl3 rom) else 0 }

/-- The swap loop for byte-swapped images; an odd last byte stays. -/
def swapPairs : List U8 → List U8
  | a :: b :: rest => b :: a :: swapPairs rest
  | rest => rest

/-- The swap loop for little-endian images; up to three last bytes stay. -/
def swapWords : List U8 → List U8
  | a :: b :: c :: d :: rest => d :: c :: b :: a :: swapWords rest
  | rest => rest

def normalizeCartEndian (data : List U8) : List U8 :=
  let magic := beU32 data 0
  if data.length < 4 then data
  else if magic = 0x80371240 then data
  else if magic = 0x37804012 then swapPairs data
  else if magic = 0x40123780 then swapWords data
  else data

theorem length_swapPairs (data : List U8) : (swapPairs data).length = data.length := by
  fun_induction swapPairs data with
  | case1 a b rest ih => simp [ih]
  | case2 rest => rfl

theorem length_swapWords (data : List U8) : (swapWords data).length = data.length := by
  fun_induction swapWords data with
  | case1 a b c d rest ih => simp [ih]
  | case2 rest => rfl

theorem length_normalizeCartEndian (data : List U8) :
    (normalizeCartEndian data).length = data.length := by
  simp only [normalizeCartEndian]
  split_ifs
  · rfl
  · rfl
  · exact length_swapPairs data
  · exact length_swapWords data
  · rfl

end Cart

end N64
