import N64Emu.BusRead

/-!
# The RDP

Command decoding, rectangles, texture memory and the command list. Pixel
coordinates are integers: every value the source computes fits its `int`.
Pixels are stored into RDRAM directly, without `notify_memory_write`.
-/

set_option autoImplicit false

namespace N64

open Words Loops

namespace Rdp

def kTmemBytes : ℕ := 4096

/-- `static_cast<u32>((cmd >> shift) & mask)`. -/
def field (cmd : U64) (shift : ℕ) (mask : U64) : U32 := ((cmd >>> shift) &&& mask).setWidth 32

def opcode (cmd : U64) : ℕ := (field cmd 56 0x3F).toNat

def TextureRectangle : ℕ := 0x24
def TextureRectangleFlip : ℕ := 0x25

def fx10_2Floor (v : U32) : ℤ := ((v >>> 2).toNat : ℤ)

def reset (_ : Rdp) : Rdp := {}

def flush (r : Rdp) : Rdp := { r with busy := false }

def readCmdWord (s : Sys) (addr : U32) (xbusDmem : Bool) : U32 × Sys :=
  if xbusDmem then Bus.read32 s (0x04000000 + (addr &&& 0xFFF))
  else Bus.read32 s (addr &&& 0x00FFFFFF)

def readCmd64 (s : Sys) (addr : U32) (xbusDmem : Bool) : U64 × Sys :=
  let (hi, s) := readCmdWord s addr xbusDmem
  let (lo, s) := readCmdWord s (addr + 4) xbusDmem
  (join64 hi lo, s)

def copyRdramToTmem (b : Bus) (dram tmemByte nbytes : U32) (r : Rdp) : Rdp :=
  if b.rdramSize = 0 then r
  else
    { r with tmem := upTo (fun i m =>
        Function.update m ((tmemByte + BitVec.ofNat 32 i).toNat % kTmemBytes)
          (b.rdramByte (dram + BitVec.ofNat 32 i))) nbytes.toNat r.tmem }

/-- The layout `SetColorImage` and `SetTextureImage` share. -/
def decodeImage (cmd : U64) : RdpImage :=
  let width := field cmd 32 0x3FF + 1
  { format := (field cmd 53 0x7).setWidth 8
    size := (field cmd 51 0x3).setWidth 8
    width := width
    address := field cmd 0 0x03FFFFFF &&& ~~~7
    valid := width > 0 }

def cmdSetColorImage (r : Rdp) (cmd : U64) : Rdp := { r with colorImage := decodeImage cmd }

def cmdSetTextureImage (r : Rdp) (cmd : U64) : Rdp := { r with textureImage := decodeImage cmd }

def cmdSetScissor (r : Rdp) (cmd : U64) : Rdp :=
  { r with scissor :=
    { xh := fx10_2Floor (field cmd 44 0xFFF)
      yh := fx10_2Floor (field cmd 32 0xFFF)
      xl := fx10_2Floor (field cmd 12 0xFFF)
      yl := fx10_2Floor (field cmd 0 0xFFF)
      set := true } }

def cmdSetFillColor (r : Rdp) (cmd : U64) : Rdp := { r with fillColor := field cmd 0 0xFFFFFFFF }

def cmdSetBlendColor (r : Rdp) (cmd : U64) : Rdp := { r with blendColor := field cmd 0 0xFFFFFFFF }

def cmdSetOtherModes (r : Rdp) (cmd : U64) : Rdp := { r with otherModes := cmd }

def tileIndex (cmd : U64) : BitVec 3 := (field cmd 24 0x7).setWidth 3

def setTileAt (r : Rdp) (i : BitVec 3) (t : RdpTile) : Rdp :=
  { r with tiles := Function.update r.tiles i t }

def cmdSetTile (r : Rdp) (cmd : U64) : Rdp :=
  let i := tileIndex cmd
  setTileAt r i
    { r.tiles i with
      format := (field cmd 53 0x7).setWidth 8
      size := (field cmd 51 0x3).setWidth 8
      line := (field cmd 41 0x1FF).setWidth 16
      tmem := (field cmd 32 0x1FF).setWidth 16
      palette := (field cmd 20 0xF).setWidth 8
      ct := (field cmd 19 1).setWidth 8
      mt := (field cmd 18 1).setWidth 8
      maskT := (field cmd 14 0xF).setWidth 8
      shiftT := (field cmd 10 0xF).setWidth 8
      cs := (field cmd 9 1).setWidth 8
      ms := (field cmd 8 1).setWidth 8
      maskS := (field cmd 4 0xF).setWidth 8
      shiftS := (field cmd 0 0xF).setWidth 8
      defined := true }

def cmdSetTileSize (r : Rdp) (cmd : U64) : Rdp :=
  let i := tileIndex cmd
  setTileAt r i
    { r.tiles i with
      sl := (field cmd 44 0xFFF).setWidth 16
      tl := (field cmd 32 0xFFF).setWidth 16
      sh := (field cmd 12 0xFFF).setWidth 16
      th := (field cmd 0 0xFFF).setWidth 16
      defined := true }

/-- Bytes per texel; 4-bit texels count as one byte. -/
def bytesPerTexel (size : U8) : U32 := if size = 3 then 4 else if size.toNat ≤ 1 then 1 else 2

def cmdLoadBlock (b : Bus) (r : Rdp) (cmd : U64) : Rdp :=
  if !r.textureImage.valid then r
  else
    let t := r.tiles (tileIndex cmd)
    let s0 := field cmd 44 0xFFF >>> 2
    let s1 := field cmd 12 0xFFF >>> 2
    let texels := if s1 ≥ s0 then s1 - s0 + 1 else 1
    let bpp := bytesPerTexel r.textureImage.size
    let nbytes := texels * bpp
    let dram := r.textureImage.address + s0 * bpp
    let tmemByte := t.tmem.setWidth 32 * 8
    copyRdramToTmem b dram tmemByte (if nbytes < 4096 then nbytes else 4096) r

/-- One row of `cmd_load_tile`. -/
def loadTileRow (b : Bus) (sl tl tw bpp lineBytes tmemByte : U32) (row : ℕ) (r : Rdp) : Rdp :=
  let row := BitVec.ofNat 32 row
  let dram := r.textureImage.address + (tl + row) * r.textureImage.width * bpp + sl * bpp
  copyRdramToTmem b dram (tmemByte + row * lineBytes) (tw * bpp) r

def cmdLoadTile (b : Bus) (r : Rdp) (cmd : U64) : Rdp :=
  if !r.textureImage.valid then r
  else
    let i := tileIndex cmd
    let sl := field cmd 44 0xFFF >>> 2
    let tl := field cmd 32 0xFFF >>> 2
    let sh := field cmd 12 0xFFF >>> 2
    let th := field cmd 0 0xFFF >>> 2
    let t := { r.tiles i with
      sl := (sl <<< 2).setWidth 16
      tl := (tl <<< 2).setWidth 16
      sh := (sh <<< 2).setWidth 16
      th := (th <<< 2).setWidth 16 }
    let r := setTileAt r i t
    let bpp := bytesPerTexel r.textureImage.size
    let tw := if sh ≥ sl then sh - sl + 1 else 1
    let thh := if th ≥ tl then th - tl + 1 else 1
    let lineBytes := if t.line ≠ 0 then t.line.setWidth 32 * 8 else tw * bpp
    let tmemByte := t.tmem.setWidth 32 * 8
    upTo (loadTileRow b sl tl tw bpp lineBytes tmemByte) thh.toNat r

def clipPoint (r : Rdp) (x y : ℤ) : Bool :=
  if x < 0 ∨ y < 0 then false
  else if r.scissor.set ∧
      (x < r.scissor.xh ∨ x ≥ r.scissor.xl ∨ y < r.scissor.yh ∨ y ≥ r.scissor.yl) then false
  else if r.colorImage.valid ∧ BitVec.ofInt 32 x ≥ r.colorImage.width then false
  else true

/-- The RDRAM address of a pixel of `bpp` bytes in the color image. -/
def pixelAddr (r : Rdp) (x y : ℤ) (bpp : U32) : U32 :=
  r.colorImage.address + BitVec.ofInt 32 y * r.colorImage.width * bpp + BitVec.ofInt 32 x * bpp

def storePixel16 (s : Sys) (addr : U32) (p : U16) : Sys :=
  if (addr + 1).toNat ≥ s.bus.rdramSize then s
  else
    let s := s.pokeRdram addr.toNat ((p >>> 8).setWidth 8)
    s.pokeRdram (addr.toNat + 1) (p.setWidth 8)

def storePixel32 (s : Sys) (addr : U32) (p : U32) : Sys :=
  if (addr + 3).toNat ≥ s.bus.rdramSize then s
  else
    let s := s.pokeRdram addr.toNat (byteAt p 24)
    let s := s.pokeRdram (addr.toNat + 1) (byteAt p 16)
    let s := s.pokeRdram (addr.toNat + 2) (byteAt p 8)
    s.pokeRdram (addr.toNat + 3) (byteAt p 0)

/-- A 32-bit sample as a 5551 pixel. -/
def downsample (pix32 : U32) : U16 :=
  let r8 := (byteAt pix32 24).setWidth 16
  let g8 := (byteAt pix32 16).setWidth 16
  let b8 := (byteAt pix32 8).setWidth 16
  let a1 : U16 := if pix32 &&& 0xFF ≠ 0 then 1 else 0
  ((r8 >>> 3) <<< 11) ||| ((g8 >>> 3) <<< 6) ||| ((b8 >>> 3) <<< 1) ||| a1

def writeColorPixel (s : Sys) (x y : ℤ) (pix16 : U16) (pix32 : U32) (use32 : Bool) : Sys :=
  if !s.rdp.colorImage.valid || !clipPoint s.rdp x y then s
  else if s.bus.rdramSize = 0 then s
  else if s.rdp.colorImage.size = 2 ∧ !use32 then storePixel16 s (pixelAddr s.rdp x y 2) pix16
  else if s.rdp.colorImage.size = 3 ∨ use32 then
    if s.rdp.colorImage.size = 2 then storePixel16 s (pixelAddr s.rdp x y 2) (downsample pix32)
    else storePixel32 s (pixelAddr s.rdp x y 4) pix32
  else s

def countFillPixel (s : Sys) : Sys := { s with rdp.fillPixels := s.rdp.fillPixels + 1 }

def writeFillPixel (s : Sys) (x y : ℤ) : Sys :=
  if !s.rdp.colorImage.valid || !clipPoint s.rdp x y then s
  else if s.rdp.colorImage.size = 2 then
    let addr := pixelAddr s.rdp x y 2
    let pix : U16 :=
      if addr &&& 2 ≠ 0 then s.rdp.fillColor.setWidth 16
      else (s.rdp.fillColor >>> 16).setWidth 16
    countFillPixel (writeColorPixel s x y pix 0 false)
  else if s.rdp.colorImage.size = 3 then
    countFillPixel (writeColorPixel s x y 0 s.rdp.fillColor true)
  else s

/-- Screen corners of a rectangle command: `xh`, `yh`, `xl`, `yl`. -/
structure Corners where
  xh : ℤ
  yh : ℤ
  xl : ℤ
  yl : ℤ

def corners (cmd : U64) : Corners :=
  let xlFx := field cmd 44 0xFFF
  let ylFx := field cmd 32 0xFFF
  let xh := fx10_2Floor (field cmd 12 0xFFF)
  let yh := fx10_2Floor (field cmd 0 0xFFF)
  let xl := fx10_2Floor xlFx + (if xlFx &&& 3 ≠ 0 then 1 else 0)
  let yl := fx10_2Floor ylFx + (if ylFx &&& 3 ≠ 0 then 1 else 0)
  { xh := if xl < xh then xl else xh
    yh := if yl < yh then yl else yh
    xl := if xl < xh then xh else xl
    yl := if yl < yh then yh else yl }

/-- The row and column loops of both rectangle commands. -/
def forPixels (c : Corners) (pixel : ℕ → ℕ → Sys → Sys) (s : Sys) : Sys :=
  upTo (fun row s => upTo (pixel row) (c.xl - c.xh).toNat s) (c.yl - c.yh).toNat s

def cmdFillRectangle (s : Sys) (cmd : U64) : Sys :=
  let c := corners cmd
  if !s.rdp.colorImage.valid then s
  else forPixels c (fun row col s => writeFillPixel s (c.xh + col) (c.yh + row)) s

/-- `v & ((1 << mask) - 1)` on a two's complement integer. -/
def applyMask (v : ℤ) (mask : U8) : ℤ :=
  if mask = 0 ∨ mask.toNat ≥ 10 then v else v % 2 ^ mask.toNat

structure Sample where
  out16 : U16 := 0
  out32 : U32 := 0
  is32 : Bool := false

def sampleTile (r : Rdp) (tileIdx : BitVec 3) (s t : ℤ) : Option Sample :=
  let tile := r.tiles tileIdx
  let s := applyMask s tile.maskS
  let t := applyMask t tile.maskT
  if s < 0 ∨ t < 0 then none
  else
    let size := if tile.defined then tile.size else r.textureImage.size
    let lineWords := tile.line.setWidth 32
    let tmemBase := tile.tmem.setWidth 32 * 8
    let bpp := bytesPerTexel size
    let lineBytes :=
      if lineWords ≠ 0 then lineWords * 8
      else if r.textureImage.valid then r.textureImage.width * bpp
      else BitVec.ofInt 32 (s + 1) * bpp
    let offset := tmemBase + BitVec.ofInt 32 t * lineBytes + BitVec.ofInt 32 s * bpp
    if (offset + bpp).toNat > kTmemBytes then none
    else
      let o := offset.toNat
      if size = 2 then some { out16 := join16 (r.tmem o) (r.tmem (o+1)) }
      else if size = 3 then
        some { out32 := join32 (r.tmem o) (r.tmem (o+1)) (r.tmem (o+2)) (r.tmem (o+3))
               is32 := true }
      else
        let p := (r.tmem o).setWidth 16
        some { out16 := ((p >>> 3) <<< 11) ||| ((p >>> 3) <<< 6) ||| ((p >>> 3) <<< 1) ||| 1 }

/-- `static_cast<s32>(static_cast<s16>((lo >> shift) & 0xFFFF))`. -/
def field16s (lo : U64) (shift : ℕ) : ℤ := ((field lo shift 0xFFFF).setWidth 16).toInt

def writeTexPixel (s : Sys) (x y : ℤ) (sample : Option Sample) : Sys :=
  match sample with
  | none => s
  | some t =>
    let s := writeColorPixel s x y t.out16 t.out32 t.is32
    { s with rdp.texPixels := s.rdp.texPixels + 1 }

def cmdTextureRectangle (s : Sys) (hi lo : U64) (flip : Bool) : Sys :=
  let c := corners hi
  let tileIdx := tileIndex hi
  let s0 := field16s lo 48
  let t0 := field16s lo 32
  let dsdx := if flip then field16s lo 0 else field16s lo 16
  let dtdy := if flip then field16s lo 16 else field16s lo 0
  let dsPerPx := dsdx / 32
  let dtPerPy := dtdy / 32
  if !s.rdp.colorImage.valid then s
  else
    forPixels c (fun row col s =>
      let sFx := s0 + col * dsPerPx
      let tFx := t0 + row * dtPerPy
      writeTexPixel s (c.xh + col) (c.yh + row) (sampleTile s.rdp tileIdx (sFx / 32) (tFx / 32))) s

def cmdSyncFull (s : Sys) : Sys := Mi.raise s MiIntr.DP

def countCommand (s : Sys) : Sys := { s with rdp.cmdsExecuted := s.rdp.cmdsExecuted + 1 }

def executeCommandPair (s : Sys) (hi lo : U64) : Sys :=
  let s := countCommand s
  if opcode hi = TextureRectangle then cmdTextureRectangle s hi lo false
  else if opcode hi = TextureRectangleFlip then cmdTextureRectangle s hi lo true
  else s

def executeCommand (s : Sys) (cmd : U64) : Sys :=
  let s := countCommand s
  match opcode cmd with
  | 0x29 => cmdSyncFull s
  | 0x2D => { s with rdp := cmdSetScissor s.rdp cmd }
  | 0x2F => { s with rdp := cmdSetOtherModes s.rdp cmd }
  | 0x36 => cmdFillRectangle s cmd
  | 0x37 => { s with rdp := cmdSetFillColor s.rdp cmd }
  | 0x39 => { s with rdp := cmdSetBlendColor s.rdp cmd }
  | 0x3F => { s with rdp := cmdSetColorImage s.rdp cmd }
  | 0x3D => { s with rdp := cmdSetTextureImage s.rdp cmd }
  | 0x35 => { s with rdp := cmdSetTile s.rdp cmd }
  | 0x32 => { s with rdp := cmdSetTileSize s.rdp cmd }
  | 0x33 => { s with rdp := cmdLoadBlock s.bus s.rdp cmd }
  | 0x34 => { s with rdp := cmdLoadTile s.bus s.rdp cmd }
  | _ => s

/-- The loop of `run_command_list` from `pc`. -/
def runList (xbusDmem : Bool) (stop : U32) : ℕ → U32 → Sys → Sys
  | 0, _, s => s
  | fuel+1, pc, s =>
    if pc < stop then
      let (cmd, s) := readCmd64 s pc xbusDmem
      if opcode cmd = TextureRectangle ∨ opcode cmd = TextureRectangleFlip then
        if pc + 16 > stop then s
        else
          let (cmd2, s) := readCmd64 s (pc + 8) xbusDmem
          runList xbusDmem stop fuel (pc + 16) (executeCommandPair s cmd cmd2)
      else runList xbusDmem stop fuel (pc + 8) (executeCommand s cmd)
    else s

def runCommandList (s : Sys) (start end_ : U32) (xbusDmem : Bool) : Sys :=
  if end_ ≤ start then s
  else
    let s := { s with rdp.busy := true }
    let pc := start &&& ~~~7
    let stop := end_ &&& ~~~7
    let s := runList xbusDmem stop stop.toNat pc s
    { s with rdp.busy := false }

end Rdp

namespace DpRegs

open DpRegisters

def reset (_ : DpRegisters) : DpRegisters := {}

def setStatus (s : Sys) (bits : U32) : Sys :=
  { s with bus.dpRegs.status := s.bus.dpRegs.status ||| bits }

def clearStatus (s : Sys) (bits : U32) : Sys :=
  { s with bus.dpRegs.status := s.bus.dpRegs.status &&& ~~~bits }

def runCommands (s : Sys) : Sys :=
  let s := setStatus s (StCmdBusy ||| StPipeBusy)
  let s := clearStatus s StCbufReady
  let xbus := (s.bus.dpRegs.status &&& StXbusDma) != 0
  let s := Rdp.runCommandList s s.bus.dpRegs.start s.bus.dpRegs.end_ xbus
  let s := { s with
    bus.dpRegs.current := s.bus.dpRegs.end_
    bus.dpRegs.start := s.bus.dpRegs.end_ }
  let s := clearStatus s
    (StStartValid ||| StEndValid ||| StCmdBusy ||| StPipeBusy ||| StDmaBusy ||| StFlush)
  let s := setStatus s StCbufReady
  Mi.raise s MiIntr.DP

def flush (s : Sys) : Sys :=
  let s := setStatus s StFlush
  Mi.raise { s with rdp := s.rdp.flush } MiIntr.DP

def writeStatus (s : Sys) (value : U32) : Sys :=
  let s := onBit value (1#32 <<< 0) (clearStatus · StXbusDma) s
  let s := onBit value (1#32 <<< 1) (setStatus · StXbusDma) s
  let s := onBit value (1#32 <<< 2) (clearStatus · StFreeze) s
  let s := onBit value (1#32 <<< 3) (setStatus · StFreeze) s
  let s := onBit value (1#32 <<< 4) (clearStatus · StFlush) s
  onBit value (1#32 <<< 5) flush s

def write (s : Sys) (offset value : U32) : Sys :=
  match (offset &&& 0x1C).toNat with
  | 0x00 =>
    setStatus { s with
      bus.dpRegs.start := value &&& 0x00FFFFF8
      bus.dpRegs.current := value &&& 0x00FFFFF8 } StStartValid
  | 0x04 =>
    let s := setStatus { s with bus.dpRegs.end_ := value &&& 0x00FFFFF8 } StEndValid
    let d := s.bus.dpRegs
    if d.status &&& StStartValid ≠ 0 ∧ d.start < d.end_ ∧ d.status &&& StFreeze = 0 then
      runCommands s
    else s
  | 0x0C => writeStatus s value
  | _ => s

end DpRegs

end N64
