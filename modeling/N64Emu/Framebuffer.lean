import N64Emu.BusBytes

/-!
# The framebuffer

Geometry and pixel formats from the registers, one pixel read through the bus,
and the whole picture copied from RDRAM. The copy reads inside RDRAM only; a
pixel sampled behind its end is read from the mirror.
-/

set_option autoImplicit false

namespace N64

open Words Loops

namespace Vi

inductive ViPixelFormat where
  | blank
  | reserved
  | rgba5551
  | rgba8888
  deriving DecidableEq

def CtrlTypeMask : U32 := 0x3

def origin (v : VideoInterface) : U32 := v.regs Origin &&& 0x00FFFFFF
def widthReg (v : VideoInterface) : U32 := v.regs Width &&& 0xFFF
def control (v : VideoInterface) : U32 := v.regs Control
def hStartReg (v : VideoInterface) : U32 := v.regs HStart
def vStartReg (v : VideoInterface) : U32 := v.regs VStart

def pixelFormat (v : VideoInterface) : ViPixelFormat :=
  match (control v &&& CtrlTypeMask).toNat with
  | 0 => .blank
  | 1 => .reserved
  | 2 => .rgba5551
  | _ => .rgba8888

def bytesPerPixel (v : VideoInterface) : ℕ :=
  match pixelFormat v with
  | .rgba5551 => 2
  | .rgba8888 => 4
  | _ => 0

def fbWidth (v : VideoInterface) : ℕ :=
  let w := widthReg v
  let start := (hStartReg v >>> 16) &&& 0x3FF
  let stop := hStartReg v &&& 0x3FF
  let w := if w = 0 ∧ stop > start then stop - start else w
  if w = 0 then 0 else if w > 640 then 640 else w.toNat

def fbHeight (v : VideoInterface) : ℕ :=
  let start := (vStartReg v >>> 16) &&& 0x3FF
  let stop := vStartReg v &&& 0x3FF
  let h : U32 := if stop > start then (stop - start) / 2 else 0
  let h := if h = 0 then 240 else h
  if h > 480 then 480 else h.toNat

def linePitchBytes (v : VideoInterface) : U32 :=
  if bytesPerPixel v = 0 then 0 else BitVec.ofNat 32 (fbWidth v * bytesPerPixel v)

structure Rgba where
  r : U8
  g : U8
  b : U8
  a : U8
  deriving DecidableEq

/-- What a pixel is written as when there is none to read. -/
def opaqueBlack : Rgba := ⟨0, 0, 0, 255⟩

/-- Five bits to eight by repeating the high ones. -/
def expand5 (c : U32) : U32 := (c <<< 3) ||| (c >>> 2)

def decode5551 (p : U16) : Rgba :=
  let p : U32 := p.setWidth 32
  { r := (expand5 ((p >>> 11) &&& 0x1F)).setWidth 8
    g := (expand5 ((p >>> 6) &&& 0x1F)).setWidth 8
    b := (expand5 ((p >>> 1) &&& 0x1F)).setWidth 8
    a := if p &&& 1 ≠ 0 then 0xFF else 0x00 }

/-- `k5551Lut.table[p]`. -/
def lut5551 (p : U16) : U32 :=
  let p : U32 := p.setWidth 32
  let r := expand5 ((p >>> 11) &&& 0x1F)
  let g := expand5 ((p >>> 6) &&& 0x1F)
  let b := expand5 ((p >>> 1) &&& 0x1F)
  let a : U32 := if p &&& 1 ≠ 0 then 0xFF else 0x00
  r ||| (g <<< 8) ||| (b <<< 16) ||| (a <<< 24)

def decode8888 (p : U32) : Rgba := ⟨byteAt p 24, byteAt p 16, byteAt p 8, byteAt p 0⟩

def framebufferOrigin (v : VideoInterface) : U32 := origin v &&& ~~~3

def pixelAddr (v : VideoInterface) (x y : ℕ) : U32 :=
  framebufferOrigin v + BitVec.ofNat 32 y * linePitchBytes v +
    BitVec.ofNat 32 x * BitVec.ofNat 32 (bytesPerPixel v)

/-- `sample_pixel`; the channels are returned where it returns true. -/
def samplePixel (s : Sys) (x y : ℤ) : Option Rgba :=
  let w := fbWidth s.vi
  let h := fbHeight s.vi
  let bpp := bytesPerPixel s.vi
  if bpp = 0 ∨ w = 0 ∨ h = 0 then none
  else if x < 0 ∨ y < 0 ∨ x ≥ w ∨ y ≥ h then none
  else
    let addr := pixelAddr s.vi x.toNat y.toNat
    if (addr + BitVec.ofNat 32 bpp).toNat > s.bus.rdramSize ∧
        (framebufferOrigin s.vi).toNat ≥ s.bus.rdramSize then none
    else if bpp = 2 then some (decode5551 (Bus.read16Const s addr))
    else some (decode8888 (Bus.read32Const s addr))

/-- A `std::vector<u8>`. -/
structure ByteVector where
  size : ℕ := 0
  data : Bytes := fun _ => 0

def ByteVector.clear (_ : ByteVector) : ByteVector := {}

def ByteVector.resize (v : ByteVector) (n : ℕ) : ByteVector :=
  { size := n, data := fun i => if i < v.size ∧ i < n then v.data i else 0 }

/-- `out[di + 0] = r; …; out[di + 3] = a;` -/
def putPixel (v : ByteVector) (di : ℕ) (p : Rgba) : ByteVector :=
  { v with data :=
      Function.update (Function.update (Function.update (Function.update v.data
        di p.r) (di + 1) p.g) (di + 2) p.b) (di + 3) p.a }

/-- The four bytes that the fast path writes for a 16-bit pixel. -/
def fastPixel16 (b : Bus) (addr : U32) : Rgba :=
  let rgba : U32 :=
    if (addr + 1).toNat < b.rdramSize then
      lut5551 (join16 (b.rdram addr.toNat) (b.rdram (addr + 1).toNat))
    else 0xFF000000
  ⟨byteAt rgba 0, byteAt rgba 8, byteAt rgba 16, byteAt rgba 24⟩

/-- The four bytes that the fast path writes for a 32-bit pixel. -/
def fastPixel32 (b : Bus) (addr : U32) : Rgba :=
  if (addr + 3).toNat < b.rdramSize then
    ⟨b.rdram addr.toNat, b.rdram (addr + 1).toNat, b.rdram (addr + 2).toNat,
      b.rdram (addr + 3).toNat⟩
  else opaqueBlack

/-- The loops over rows and columns, with the pixel each pass writes. -/
def copyRows (v : VideoInterface) (pixel : ℕ → ℕ → Rgba) (out : ByteVector) : ByteVector :=
  upTo (fun y out =>
    upTo (fun x out => putPixel out ((y * fbWidth v + x) * 4) (pixel x y)) (fbWidth v) out)
    (fbHeight v) out

def copyFramebufferRgba (s : Sys) (out : ByteVector) : Bool × ByteVector :=
  let w := fbWidth s.vi
  let h := fbHeight s.vi
  let bpp := bytesPerPixel s.vi
  if bpp = 0 ∨ w = 0 ∨ h = 0 then (false, out.clear)
  else
    let out := out.resize (w * h * 4)
    if s.bus.rdramSize ≠ 0 ∧ (framebufferOrigin s.vi).toNat < s.bus.rdramSize ∧ bpp = 2 then
      (true, copyRows s.vi (fun x y => fastPixel16 s.bus (pixelAddr s.vi x y)) out)
    else if s.bus.rdramSize ≠ 0 ∧ (framebufferOrigin s.vi).toNat < s.bus.rdramSize ∧ bpp = 4 then
      (true, copyRows s.vi (fun x y => fastPixel32 s.bus (pixelAddr s.vi x y)) out)
    else (true, copyRows s.vi (fun x y => (samplePixel s x y).getD opaqueBlack) out)

/-- The four bytes of pixel `(x, y)` in a picture of this geometry. -/
def pixelAt (v : VideoInterface) (out : ByteVector) (x y : ℕ) : Rgba :=
  let di := (y * fbWidth v + x) * 4
  ⟨out.data di, out.data (di + 1), out.data (di + 2), out.data (di + 3)⟩

end Vi

end N64
