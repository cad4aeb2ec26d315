import N64Emu.DpList
import N64Emu.Fills
import N64Emu.FramebufferPaths

/-!
# Pixels of the color image

Where a pixel of the color image lies in RDRAM, which pixels the clip and RDRAM
admit, and which bytes a write stores there. Pixels do not overlap, so what a
rectangle stores in a pixel stands when it is done.
-/

set_option autoImplicit false

namespace N64.Rdp

open Words Loops Fills

section Bits

variable (cmd : U64)

/-- The `n` bits of a command from bit `k` on. -/
def bits (k n : ℕ) : ℕ := cmd.toNat / 2 ^ k % 2 ^ n

theorem bits_lt (k n : ℕ) : bits cmd k n < 2 ^ n := Nat.mod_lt _ (Nat.two_pow_pos n)

theorem field_toNat (k : ℕ) {n : ℕ} (narrow : n ≤ 32) :
    (field cmd k (LowMasks.low 64 n)).toNat = bits cmd k n := by
  have small := bits_lt cmd k n
  have bound := Nat.pow_le_pow_right (show 0 < 2 by decide) narrow
  unfold field
  rw [BitVec.toNat_setWidth, LowMasks.toNat_and_low _ (by omega), BitVec.toNat_ushiftRight,
    Nat.shiftRight_eq_div_pow]
  exact Nat.mod_eq_of_lt (by unfold bits at small; omega)

theorem field_setWidth (k : ℕ) {n w : ℕ} (narrow : n ≤ 32) (fits : n ≤ w) :
    ((field cmd k (LowMasks.low 64 n)).setWidth w).toNat = bits cmd k n := by
  have small := bits_lt cmd k n
  have bound := Nat.pow_le_pow_right (show 0 < 2 by decide) fits
  rw [BitVec.toNat_setWidth, field_toNat cmd k narrow]
  exact Nat.mod_eq_of_lt (by omega)

end Bits

section Image

variable (cmd : U64)

theorem decodeImage_width : (decodeImage cmd).width.toNat = bits cmd 32 10 + 1 := by
  have value : (field cmd 32 0x3FF).toNat = bits cmd 32 10 :=
    field_toNat cmd 32 (n := 10) (by decide)
  have small := bits_lt cmd 32 10
  have one : (1 : U32).toNat = 1 := rfl
  show (field cmd 32 0x3FF + 1).toNat = _
  rw [BitVec.toNat_add, value, one]
  exact Nat.mod_eq_of_lt (by omega)

theorem decodeImage_address : (decodeImage cmd).address.toNat = bits cmd 0 26 / 8 * 8 := by
  have value : (field cmd 0 0x03FFFFFF).toNat = bits cmd 0 26 :=
    field_toNat cmd 0 (n := 26) (by decide)
  have aligned := LowMasks.toNat_andNot_low (n := 3) (field cmd 0 0x03FFFFFF)
  rw [value] at aligned
  exact aligned

theorem decodeImage_valid : (decodeImage cmd).valid = true := by
  have width := decodeImage_width cmd
  show decide ((decodeImage cmd).width > 0) = true
  exact decide_eq_true (BitVec.lt_def.mpr (by rw [width]; exact Nat.succ_pos _))

/-- A color image of 16 or 32 bits, as SetColorImage makes it. -/
structure ColorTarget (r : Rdp) : Prop where
  decoded : ∃ cmd, r.colorImage = decodeImage cmd
  depth : r.colorImage.size = 2 ∨ r.colorImage.size = 3

namespace ColorTarget

variable {r : Rdp} (target : ColorTarget r)
include target

theorem valid : r.colorImage.valid = true := by
  obtain ⟨cmd, image⟩ := target.decoded
  rw [image, decodeImage_valid]

theorem width_le : r.colorImage.width.toNat ≤ 1024 := by
  obtain ⟨cmd, image⟩ := target.decoded
  have small := bits_lt cmd 32 10
  rw [image, decodeImage_width]
  omega

theorem address_lt : r.colorImage.address.toNat < 2 ^ 26 := by
  obtain ⟨cmd, image⟩ := target.decoded
  have small := bits_lt cmd 0 26
  rw [image, decodeImage_address]
  omega

end ColorTarget

end Image

section Place

def pixelBytes (img : RdpImage) : ℕ := if img.size = 2 then 2 else 4

def pixelOffset (img : RdpImage) (x y : ℕ) : ℕ :=
  img.address.toNat + (y * img.width.toNat + x) * pixelBytes img

/-- Pixels the scissor, when set, and the width of the color image admit. -/
def InClip (r : Rdp) (x y : ℕ) : Prop :=
  (r.scissor.set = true →
    r.scissor.xh ≤ x ∧ x < r.scissor.xl ∧ r.scissor.yh ≤ y ∧ y < r.scissor.yl) ∧
  x < r.colorImage.width.toNat

/-- Pixels whose bytes are stored: inside the clip, with their bytes inside RDRAM. -/
def Drawn (s : Sys) (x y : ℕ) : Prop :=
  InClip s.rdp x y ∧
    pixelOffset s.rdp.colorImage x y + pixelBytes s.rdp.colorImage ≤ s.bus.rdramSize

theorem pixelBytes_cases (img : RdpImage) : pixelBytes img = 2 ∨ pixelBytes img = 4 := by
  unfold pixelBytes
  split_ifs
  · exact Or.inl rfl
  · exact Or.inr rfl

theorem pixelOffset_inj {img : RdpImage} {x y i x' y' j : ℕ} (hx : x < img.width.toNat)
    (hx' : x' < img.width.toNat) (hi : i < pixelBytes img) (hj : j < pixelBytes img)
    (same : pixelOffset img x y + i = pixelOffset img x' y' + j) : x = x' ∧ y = y' ∧ i = j := by
  have sums : (y * img.width.toNat + x) * pixelBytes img + i =
      (y' * img.width.toNat + x') * pixelBytes img + j := by
    unfold pixelOffset at same
    omega
  obtain ⟨pixels, bytes⟩ := cell_inj hi hj sums
  obtain ⟨rows, columns⟩ := cell_inj hx hx' pixels
  exact ⟨columns, rows, bytes⟩

theorem clipPoint_iff {r : Rdp} (valid : r.colorImage.valid = true) {x y : ℕ}
    (narrow : x < 2 ^ 32) : clipPoint r x y = true ↔ InClip r x y := by
  have width : BitVec.ofInt 32 (x : ℤ) ≥ r.colorImage.width ↔ ¬ x < r.colorImage.width.toNat := by
    rw [BitVec.ofInt_natCast, ge_iff_le, BitVec.le_def, BitVec.toNat_ofNat, Nat.mod_eq_of_lt narrow,
      Nat.not_lt]
  have natural : ¬ ((x : ℤ) < 0 ∨ (y : ℤ) < 0) := by omega
  unfold clipPoint InClip
  rw [if_neg natural]
  by_cases inScissor : r.scissor.set = true →
      r.scissor.xh ≤ x ∧ x < r.scissor.xl ∧ r.scissor.yh ≤ y ∧ y < r.scissor.yl
  · rw [if_neg fun outside => by have inside := inScissor outside.1; omega]
    by_cases inWidth : x < r.colorImage.width.toNat
    · rw [if_neg fun beyond => width.mp beyond.2 inWidth]
      exact ⟨fun _ => ⟨inScissor, inWidth⟩, fun _ => rfl⟩
    · rw [if_pos ⟨valid, width.mpr inWidth⟩]
      exact ⟨fun h => absurd h Bool.false_ne_true, fun h => absurd h.2 inWidth⟩
  · obtain ⟨set, outside⟩ := Classical.not_imp.mp inScissor
    rw [if_pos ⟨set, by omega⟩]
    exact ⟨fun h => absurd h Bool.false_ne_true, fun h => absurd h.1 inScissor⟩

theorem pixelAddr_toNat {r : Rdp} (target : ColorTarget r) {x y b : ℕ} (hx : x ≤ 1024)
    (hy : y ≤ 1024) (hb : b ≤ 4) : (pixelAddr r x y (BitVec.ofNat 32 b)).toNat =
      r.colorImage.address.toNat + (y * r.colorImage.width.toNat + x) * b := by
  have width := target.width_le
  have address := target.address_lt
  have row : y * r.colorImage.width.toNat ≤ 1024 * 1024 := Nat.mul_le_mul hy width
  have bytes : (y * r.colorImage.width.toNat + x) * b ≤ (1024 * 1024 + 1024) * 4 :=
    Nat.mul_le_mul (Nat.add_le_add row hx) hb
  have sum : pixelAddr r x y (BitVec.ofNat 32 b) = BitVec.ofNat 32
      (r.colorImage.address.toNat + (y * r.colorImage.width.toNat + x) * b) := by
    unfold pixelAddr
    rw [Nat.add_mul, ← Nat.add_assoc, BitVec.ofNat_add, BitVec.ofNat_add, BitVec.ofNat_mul,
      BitVec.ofNat_mul, BitVec.ofNat_mul, BitVec.ofNat_toNat, BitVec.ofNat_toNat,
      BitVec.setWidth_eq, BitVec.setWidth_eq, BitVec.ofInt_natCast, BitVec.ofInt_natCast]
  rw [sum, BitVec.toNat_ofNat]
  exact Nat.mod_eq_of_lt (by omega)

end Place

instance (r : Rdp) (x y : ℕ) : Decidable (InClip r x y) := by
  unfold InClip
  infer_instance

instance (s : Sys) (x y : ℕ) : Decidable (Drawn s x y) := by
  unfold Drawn
  infer_instance

section Write

variable {s : Sys}

def byte16 (p : U16) (i : ℕ) : U8 := if i = 0 then (p >>> 8).setWidth 8 else p.setWidth 8

def byte32 (p : U32) (i : ℕ) : U8 := byteAt p (24 - 8 * i)

theorem byte16_toNat (p : U16) :
    (byte16 p 0).toNat = p.toNat / 2 ^ 8 ∧ (byte16 p 1).toNat = p.toNat % 2 ^ 8 := by
  have width := p.isLt
  constructor
  · show ((p >>> 8).setWidth 8).toNat = _
    rw [BitVec.toNat_setWidth, BitVec.toNat_ushiftRight, Nat.shiftRight_eq_div_pow]
    omega
  · show (p.setWidth 8).toNat = _
    rw [BitVec.toNat_setWidth]

theorem join16_bytes (p : U16) : join16 (byte16 p 0) (byte16 p 1) = p := by
  obtain ⟨high, low⟩ := byte16_toNat p
  apply BitVec.eq_of_toNat_eq
  rw [join16_eq_append, LowMasks.toNat_append, high, low]
  omega

theorem join32_bytes (p : U32) :
    join32 (byte32 p 0) (byte32 p 1) (byte32 p 2) (byte32 p 3) = p := by
  have width := p.isLt
  show join32 (byteAt p 24) (byteAt p 16) (byteAt p 8) (byteAt p 0) = p
  apply BitVec.eq_of_toNat_eq
  rw [join32_eq_append, LowMasks.toNat_append, LowMasks.toNat_append, LowMasks.toNat_append,
    Vi.byteAt_toNat, Vi.byteAt_toNat, Vi.byteAt_toNat, Vi.byteAt_toNat]
  omega

/-- What `write_color_pixel` stores in a color image. -/
def drawnByte (img : RdpImage) (pix16 : U16) (pix32 : U32) (use32 : Bool) : ℕ → U8 :=
  if img.size = 2 then byte16 (if use32 then downsample pix32 else pix16) else byte32 pix32

theorem next_toNat {addr : U32} {n : ℕ} (low : addr.toNat < 2 ^ 31) (near : n < 2 ^ 31) :
    (addr + BitVec.ofNat 32 n).toNat = addr.toNat + n := by
  rw [BitVec.toNat_add, BitVec.toNat_ofNat]
  omega

theorem storePixel16_rdram {addr : U32} (p : U16) (low : addr.toNat < 2 ^ 31)
    (inside : addr.toNat + 2 ≤ s.bus.rdramSize) : (storePixel16 s addr p).bus.rdram =
      fill (fun i => addr.toNat + i) (byte16 p) 2 s.bus.rdram := by
  have next := next_toNat (n := 1) low (by decide)
  unfold storePixel16
  rw [show (addr + 1).toNat = _ from next, if_neg (by omega)]
  rfl

theorem storePixel16_outside {addr : U32} (p : U16) (low : addr.toNat < 2 ^ 31)
    (outside : s.bus.rdramSize < addr.toNat + 2) : storePixel16 s addr p = s := by
  have next := next_toNat (n := 1) low (by decide)
  unfold storePixel16
  rw [show (addr + 1).toNat = _ from next, if_pos (by omega)]

theorem storePixel32_rdram {addr : U32} (p : U32) (low : addr.toNat < 2 ^ 31)
    (inside : addr.toNat + 4 ≤ s.bus.rdramSize) : (storePixel32 s addr p).bus.rdram =
      fill (fun i => addr.toNat + i) (byte32 p) 4 s.bus.rdram := by
  have next := next_toNat (n := 3) low (by decide)
  unfold storePixel32
  rw [show (addr + 3).toNat = _ from next, if_neg (by omega)]
  rfl

theorem storePixel32_outside {addr : U32} (p : U32) (low : addr.toNat < 2 ^ 31)
    (outside : s.bus.rdramSize < addr.toNat + 4) : storePixel32 s addr p = s := by
  have next := next_toNat (n := 3) low (by decide)
  unfold storePixel32
  rw [show (addr + 3).toNat = _ from next, if_pos (by omega)]

end Write

section Draw

variable {s : Sys} {x y : ℕ} (pix16 : U16) (pix32 : U32) (use32 : Bool)

theorem writeColorPixel_clipped (outside : ¬ clipPoint s.rdp x y = true) :
    writeColorPixel s x y pix16 pix32 use32 = s := by
  unfold writeColorPixel
  rw [if_pos]
  simp only [outside, Bool.not_false, Bool.or_true]

theorem writeColorPixel_inside (target : ColorTarget s.rdp) (inside : clipPoint s.rdp x y = true)
    (nonzero : s.bus.rdramSize ≠ 0) : writeColorPixel s x y pix16 pix32 use32 =
      if s.rdp.colorImage.size = 2 then
        storePixel16 s (pixelAddr s.rdp x y 2) (if use32 then downsample pix32 else pix16)
      else storePixel32 s (pixelAddr s.rdp x y 4) pix32 := by
  have open_ : ¬ (!s.rdp.colorImage.valid || !clipPoint s.rdp x y) = true := by
    rw [target.valid, inside]
    exact Bool.false_ne_true
  unfold writeColorPixel
  rw [if_neg open_, if_neg nonzero]
  rcases target.depth with depth | depth
  · rw [depth]
    cases use32 <;> rfl
  · rw [depth]
    cases use32 <;> rfl

theorem pixelAddr_16 (target : ColorTarget s.rdp) (hx : x ≤ 1024) (hy : y ≤ 1024)
    (depth : s.rdp.colorImage.size = 2) :
    (pixelAddr s.rdp x y 2).toNat = pixelOffset s.rdp.colorImage x y := by
  unfold pixelOffset pixelBytes
  rw [if_pos depth]
  exact pixelAddr_toNat target (b := 2) hx hy (by decide)

theorem pixelAddr_32 (target : ColorTarget s.rdp) (hx : x ≤ 1024) (hy : y ≤ 1024)
    (depth : s.rdp.colorImage.size ≠ 2) :
    (pixelAddr s.rdp x y 4).toNat = pixelOffset s.rdp.colorImage x y := by
  unfold pixelOffset pixelBytes
  rw [if_neg depth]
  exact pixelAddr_toNat target (b := 4) hx hy (by decide)

theorem pixelOffset_low {r : Rdp} (target : ColorTarget r) (hx : x ≤ 1024) (hy : y ≤ 1024) :
    pixelOffset r.colorImage x y < 2 ^ 31 := by
  have address := target.address_lt
  have row : y * r.colorImage.width.toNat ≤ 1024 * 1024 := Nat.mul_le_mul hy target.width_le
  have four : pixelBytes r.colorImage ≤ 4 := by
    have cases_ := pixelBytes_cases r.colorImage
    omega
  have bytes : (y * r.colorImage.width.toNat + x) * pixelBytes r.colorImage ≤
      (1024 * 1024 + 1024) * 4 := Nat.mul_le_mul (Nat.add_le_add row hx) four
  unfold pixelOffset
  omega

def storeAt (img : RdpImage) (x y : ℕ) (value : Option (ℕ → U8)) (m : Bytes) : Bytes :=
  match value with
  | some v => fill (fun i => pixelOffset img x y + i) v (pixelBytes img) m
  | none => m

def drawnValue (s : Sys) (x y : ℕ) (pix16 : U16) (pix32 : U32) (use32 : Bool) :
    Option (ℕ → U8) :=
  if Drawn s x y then some (drawnByte s.rdp.colorImage pix16 pix32 use32) else none

theorem drawnValue_some (drawn : Drawn s x y) : drawnValue s x y pix16 pix32 use32 =
    some (drawnByte s.rdp.colorImage pix16 pix32 use32) := if_pos drawn

theorem drawnValue_none (outside : ¬ Drawn s x y) :
    drawnValue s x y pix16 pix32 use32 = none := if_neg outside

theorem writeColorPixel_stores (target : ColorTarget s.rdp) (hx : x ≤ 1024) (hy : y ≤ 1024)
    (inside : clipPoint s.rdp x y = true) (nonzero : s.bus.rdramSize ≠ 0) :
    (writeColorPixel s x y pix16 pix32 use32).bus.rdram =
      storeAt s.rdp.colorImage x y (drawnValue s x y pix16 pix32 use32) s.bus.rdram := by
  have low := pixelOffset_low target hx hy
  have clip := (clipPoint_iff target.valid (y := y) (show x < 2 ^ 32 by omega)).mp inside
  rw [writeColorPixel_inside _ _ _ target inside nonzero]
  by_cases depth : s.rdp.colorImage.size = 2
  · have addr := pixelAddr_16 target hx hy depth
    have bytes : pixelBytes s.rdp.colorImage = 2 := if_pos depth
    rw [if_pos depth]
    rw [← addr] at low
    by_cases room : (pixelAddr s.rdp x y 2).toNat + 2 ≤ s.bus.rdramSize
    · rw [drawnValue_some _ _ _ ⟨clip, by rw [bytes, ← addr]; exact room⟩,
        storePixel16_rdram _ low room]
      unfold storeAt drawnByte
      rw [bytes, addr, if_pos depth]
    · rw [drawnValue_none _ _ _ fun drawn => room (by rw [addr, ← bytes]; exact drawn.2),
        storePixel16_outside _ low (by omega)]
      rfl
  · have addr := pixelAddr_32 target hx hy depth
    have bytes : pixelBytes s.rdp.colorImage = 4 := if_neg depth
    rw [if_neg depth]
    rw [← addr] at low
    by_cases room : (pixelAddr s.rdp x y 4).toNat + 4 ≤ s.bus.rdramSize
    · rw [drawnValue_some _ _ _ ⟨clip, by rw [bytes, ← addr]; exact room⟩,
        storePixel32_rdram _ low room]
      unfold storeAt drawnByte
      rw [bytes, addr, if_neg depth]
    · rw [drawnValue_none _ _ _ fun drawn => room (by rw [addr, ← bytes]; exact drawn.2),
        storePixel32_outside _ low (by omega)]
      rfl

theorem writeColorPixel_rdram (target : ColorTarget s.rdp) (hx : x ≤ 1024) (hy : y ≤ 1024) :
    (writeColorPixel s x y pix16 pix32 use32).bus.rdram =
      storeAt s.rdp.colorImage x y (drawnValue s x y pix16 pix32 use32) s.bus.rdram := by
  by_cases inside : clipPoint s.rdp x y = true
  · by_cases empty : s.bus.rdramSize = 0
    · have undrawn : ¬ Drawn s x y := by
        rintro ⟨-, room⟩
        have bytes := pixelBytes_cases s.rdp.colorImage
        omega
      rw [drawnValue_none _ _ _ undrawn, writeColorPixel, if_pos empty, ite_self]
      rfl
    · exact writeColorPixel_stores _ _ _ target hx hy inside empty
  · have clip := clipPoint_iff target.valid (y := y) (show x < 2 ^ 32 by omega)
    rw [writeColorPixel_clipped _ _ _ inside,
      drawnValue_none _ _ _ fun drawn => inside (clip.mpr drawn.1)]
    rfl

theorem writeColorPixel_rdramSize (x y : ℤ) :
    (writeColorPixel s x y pix16 pix32 use32).bus.rdramSize = s.bus.rdramSize := by
  unfold writeColorPixel storePixel16 storePixel32
  split_ifs <;> rfl

end Draw

section Rectangle

/-- The pixels of a rectangle, without the lower right edges. -/
structure Rect where
  x0 : ℕ
  y0 : ℕ
  x1 : ℕ
  y1 : ℕ

namespace Rect

def Inside (c : Rect) (x y : ℕ) : Prop := c.x0 ≤ x ∧ x < c.x1 ∧ c.y0 ≤ y ∧ y < c.y1

def corners (c : Rect) : Corners := { xh := c.x0, yh := c.y0, xl := c.x1, yl := c.y1 }

end Rect

/-- The rectangle of a command: edges with a fraction at the lower right are
rounded up, reversed corners are swapped. -/
def rectOf (cmd : U64) : Rect :=
  let left := bits cmd 12 12 / 4
  let top := bits cmd 0 12 / 4
  let right := (bits cmd 44 12 + 3) / 4
  let bottom := (bits cmd 32 12 + 3) / 4
  { x0 := min left right, y0 := min top bottom, x1 := max left right, y1 := max top bottom }

theorem fx10_2Floor_eq (v : U32) : fx10_2Floor v = ((v.toNat / 4 : ℕ) : ℤ) := by
  unfold fx10_2Floor
  rw [BitVec.toNat_ushiftRight, Nat.shiftRight_eq_div_pow]

theorem fx10_2Ceil_eq {v : U32} : fx10_2Floor v + (if v &&& 3 ≠ 0 then 1 else 0) =
    (((v.toNat + 3) / 4 : ℕ) : ℤ) := by
  have low : (v &&& 3).toNat = v.toNat % 4 := LowMasks.toNat_and_low (n := 2) v (by decide)
  rw [fx10_2Floor_eq]
  split_ifs with fraction
  · have nonzero : (v &&& 3).toNat ≠ 0 := fun zero => fraction (BitVec.eq_of_toNat_eq zero)
    omega
  · have zero : (v &&& 3).toNat = 0 := congrArg BitVec.toNat (not_not.mp fraction)
    omega

theorem corners_eq (cmd : U64) : corners cmd = (rectOf cmd).corners := by
  have edge (k : ℕ) : (field cmd k 0xFFF).toNat = bits cmd k 12 :=
    field_toNat cmd k (n := 12) (by decide)
  unfold corners rectOf Rect.corners
  simp only [fx10_2Ceil_eq, edge]
  simp only [fx10_2Floor_eq, edge, Corners.mk.injEq]
  refine ⟨?_, ?_, ?_, ?_⟩ <;> split_ifs <;> omega

theorem rectOf_le (cmd : U64) : (rectOf cmd).x1 ≤ 1024 ∧ (rectOf cmd).y1 ≤ 1024 := by
  have left := bits_lt cmd 12 12
  have top := bits_lt cmd 0 12
  have right := bits_lt cmd 44 12
  have bottom := bits_lt cmd 32 12
  unfold rectOf
  constructor
  · exact max_le (by omega) (by omega)
  · exact max_le (by omega) (by omega)

theorem forPixels_eq (c : Rect) (pixel : ℕ → ℕ → Sys → Sys) (s : Sys) :
    forPixels c.corners pixel s = grid pixel (c.y1 - c.y0) (c.x1 - c.x0) s := by
  have rows : (c.corners.yl - c.corners.yh).toNat = c.y1 - c.y0 := Int.toNat_sub c.y1 c.y0
  have columns : (c.corners.xl - c.corners.xh).toNat = c.x1 - c.x0 := Int.toNat_sub c.x1 c.x0
  unfold forPixels
  rw [rows, columns]
  rfl

/-- A loop over a rectangle whose passes store `value` in their pixels. -/
structure Draws (img : RdpImage) (P : Sys → Prop) (c : Rect) (pixel : ℕ → ℕ → Sys → Sys)
    (value : ℕ → ℕ → Option (ℕ → U8)) : Prop where
  keeps : ∀ row < c.y1 - c.y0, ∀ col < c.x1 - c.x0, ∀ t, P t → P (pixel row col t)
  stores : ∀ row < c.y1 - c.y0, ∀ col < c.x1 - c.x0, ∀ t, P t → (pixel row col t).bus.rdram =
    storeAt img (c.x0 + col) (c.y0 + row) (value (c.x0 + col) (c.y0 + row)) t.bus.rdram
  narrow : ∀ x y v, value x y = some v → x < img.width.toNat

namespace Draws

variable {img : RdpImage} {P : Sys → Prop} {c : Rect} {pixel : ℕ → ℕ → Sys → Sys}
  {value : ℕ → ℕ → Option (ℕ → U8)} {s : Sys}

theorem kept (draws : Draws img P c pixel value) (base : P s) :
    P (forPixels c.corners pixel s) := by
  rw [forPixels_eq]
  exact grid_preserves P base draws.keeps

theorem storeAt_other {x y k : ℕ} {o : Option (ℕ → U8)} {m : Bytes}
    (apart : ∀ v, o = some v → ∀ i < pixelBytes img, pixelOffset img x y + i ≠ k) :
    storeAt img x y o m k = m k := by
  cases o with
  | none => rfl
  | some v => exact fill_other (apart v rfl)

theorem written (draws : Draws img P c pixel value) (base : P s) {x y i : ℕ} {v : ℕ → U8}
    (inside : c.Inside x y) (here : value x y = some v) (byte : i < pixelBytes img) :
    (forPixels c.corners pixel s).bus.rdram (pixelOffset img x y + i) = v i := by
  obtain ⟨left, right, top, bottom⟩ := inside
  have column : c.x0 + (x - c.x0) = x := by omega
  have row : c.y0 + (y - c.y0) = y := by omega
  rw [forPixels_eq]
  refine grid_written P (fun t : Sys => t.bus.rdram (pixelOffset img x y + i))
    (show y - c.y0 < c.y1 - c.y0 by omega) (show x - c.x0 < c.x1 - c.x0 by omega) base draws.keeps
    ?_ ?_
  · intro t kept
    have stored := draws.stores (y - c.y0) (by omega) (x - c.x0) (by omega) t kept
    rw [column, row, here] at stored
    rw [stored]
    exact fill_at_of_injective byte fun j _ same => by omega
  · intro r hr col hc apart t kept
    have stored := draws.stores r hr col hc t kept
    show (pixel r col t).bus.rdram _ = _
    rw [stored]
    refine storeAt_other fun u drawn j hj same => ?_
    obtain ⟨sameColumn, sameRow, -⟩ := pixelOffset_inj (draws.narrow _ _ _ drawn)
      (draws.narrow _ _ _ here) hj byte same
    omega

theorem others (draws : Draws img P c pixel value) (base : P s) {k : ℕ}
    (apart : ∀ x y v, c.Inside x y → value x y = some v →
      ∀ i < pixelBytes img, pixelOffset img x y + i ≠ k) :
    (forPixels c.corners pixel s).bus.rdram k = s.bus.rdram k := by
  rw [forPixels_eq]
  refine grid_untouched P (fun t : Sys => t.bus.rdram k) base draws.keeps ?_
  intro row hr col hc t kept
  show (pixel row col t).bus.rdram k = _
  rw [draws.stores row hr col hc t kept]
  refine storeAt_other fun v drawn => apart _ _ v ?_ drawn
  exact ⟨by omega, by omega, by omega, by omega⟩

end Draws

end Rectangle

end N64.Rdp
