import N64Emu.PixelWrites

/-!
# Textured rectangles

A textured rectangle samples the tile of its first word once for each pixel,
in steps its second word encodes, and stores what it samples in the pixels the
clip and RDRAM admit.
-/

set_option autoImplicit false

namespace N64.Rdp

open Words Loops

section Samples

variable (r : Rdp) (hi lo : U64) (flip : Bool)

/-- The steps of the texture coordinates from one pixel to the next. -/
def slopeS : ℤ := (if flip then field16s lo 0 else field16s lo 16) / 32

def slopeT : ℤ := (if flip then field16s lo 16 else field16s lo 0) / 32

def texSample (col row : ℕ) : Option Sample :=
  sampleTile r (tileIndex hi) ((field16s lo 48 + col * slopeS lo flip) / 32)
    ((field16s lo 32 + row * slopeT lo flip) / 32)

def texPixel (row col : ℕ) (t : Sys) : Sys :=
  writeTexPixel t ((rectOf hi).corners.xh + col) ((rectOf hi).corners.yh + row)
    (texSample t.rdp hi lo flip col row)

def texValue (s : Sys) (x y : ℕ) : Option (ℕ → U8) :=
  (texSample s.rdp hi lo flip (x - (rectOf hi).x0) (y - (rectOf hi).y0)).bind fun t =>
    drawnValue s x y t.out16 t.out32 t.is32

theorem field16s_eq (k : ℕ) : field16s lo k =
    if 2 * bits lo k 16 < 2 ^ 16 then (bits lo k 16 : ℤ) else bits lo k 16 - 2 ^ 16 := by
  have value : (field lo k 0xFFFF).toNat = bits lo k 16 := field_toNat lo k (n := 16) (by decide)
  have small := bits_lt lo k 16
  unfold field16s
  rw [BitVec.toInt_eq_toNat_cond, BitVec.toNat_setWidth, value, Nat.mod_eq_of_lt small]
  rfl

theorem texSample_whole {s0 t0 dsdx dtdy : ℤ} (startS : field16s lo 48 = 32 * s0)
    (startT : field16s lo 32 = 32 * t0) (stepS : field16s lo 16 = 1024 * dsdx)
    (stepT : field16s lo 0 = 1024 * dtdy) (col row : ℕ) :
    texSample r hi lo false col row =
      sampleTile r (tileIndex hi) (s0 + col * dsdx) (t0 + row * dtdy) := by
  have slopes (d : ℤ) : 1024 * d / 32 = 32 * d := by omega
  have texel (a d : ℤ) (n : ℕ) : (32 * a + n * (32 * d)) / 32 = a + n * d := by
    rw [Int.mul_left_comm, ← Int.mul_add]
    exact Int.mul_ediv_cancel_left _ (by decide)
  unfold texSample slopeS slopeT
  rw [startS, startT, if_neg Bool.false_ne_true, if_neg Bool.false_ne_true, stepS, stepT, slopes,
    slopes, texel, texel]

end Samples

section Draw

variable {s t : Sys}

/-- What a textured rectangle changes beside RDRAM. -/
structure Texturing (s t : Sys) : Prop where
  rdp : t.rdp = { s.rdp with texPixels := t.rdp.texPixels }
  rdramSize : t.bus.rdramSize = s.bus.rdramSize

namespace Texturing

theorem image (texturing : Texturing s t) : t.rdp.colorImage = s.rdp.colorImage := by
  rw [texturing.rdp]

theorem target (texturing : Texturing s t) (target : ColorTarget s.rdp) : ColorTarget t.rdp := by
  have image := texturing.image
  exact ⟨by rw [image]; exact target.decoded, by rw [image]; exact target.depth⟩

theorem drawn_iff (texturing : Texturing s t) (x y : ℕ) : Drawn t x y ↔ Drawn s x y := by
  unfold Drawn InClip
  rw [texturing.rdp, texturing.rdramSize]

theorem value (texturing : Texturing s t) (x y : ℕ) (pix16 : U16) (pix32 : U32) (use32 : Bool) :
    drawnValue t x y pix16 pix32 use32 = drawnValue s x y pix16 pix32 use32 := by
  unfold drawnValue
  rw [if_congr (texturing.drawn_iff x y) rfl rfl, texturing.image]

theorem sample (texturing : Texturing s t) (hi lo : U64) (flip : Bool) (col row : ℕ) :
    texSample t.rdp hi lo flip col row = texSample s.rdp hi lo flip col row := by
  rw [texturing.rdp]
  rfl

theorem pixel (texturing : Texturing s t) (x y : ℤ) (sample : Option Sample) :
    Texturing s (writeTexPixel t x y sample) := by
  obtain ⟨rdp, size⟩ := texturing
  cases sample with
  | none => exact ⟨rdp, size⟩
  | some p =>
    refine ⟨?_, (writeColorPixel_rdramSize _ _ _ x y).trans size⟩
    simp only [writeTexPixel, writeColorPixel_rdp]
    rw [rdp]

end Texturing

theorem writeTexPixel_rdram (target : ColorTarget s.rdp) {x y : ℕ} (hx : x ≤ 1024) (hy : y ≤ 1024)
    (sample : Option Sample) : (writeTexPixel s x y sample).bus.rdram =
      storeAt s.rdp.colorImage x y
        (sample.bind fun t => drawnValue s x y t.out16 t.out32 t.is32) s.bus.rdram := by
  cases sample with
  | none => rfl
  | some p => exact writeColorPixel_rdram _ _ _ target hx hy

theorem tex_draws (target : ColorTarget s.rdp) (hi lo : U64) (flip : Bool) :
    Draws s.rdp.colorImage (Texturing s) (rectOf hi) (texPixel hi lo flip)
      (texValue hi lo flip s) where
  keeps := fun _ _ _ _ _ texturing => texturing.pixel _ _ _
  stores := by
    intro row hr col hc t texturing
    obtain ⟨right, bottom⟩ := rectOf_le hi
    have column : (rectOf hi).corners.xh + (col : ℤ) = (((rectOf hi).x0 + col : ℕ) : ℤ) :=
      (Nat.cast_add _ _).symm
    have line : (rectOf hi).corners.yh + (row : ℤ) = (((rectOf hi).y0 + row : ℕ) : ℤ) :=
      (Nat.cast_add _ _).symm
    have stored := writeTexPixel_rdram (texturing.target target)
      (show (rectOf hi).x0 + col ≤ 1024 by omega) (show (rectOf hi).y0 + row ≤ 1024 by omega)
      (texSample t.rdp hi lo flip col row)
    simp only [texturing.image, texturing.value, texturing.sample] at stored
    unfold texPixel texValue
    rw [column, line, Nat.add_sub_cancel_left, Nat.add_sub_cancel_left, texturing.sample]
    exact stored
  narrow := by
    intro x y v here
    obtain ⟨p, -, drawn⟩ := Option.bind_eq_some_iff.mp here
    unfold drawnValue at drawn
    split_ifs at drawn with inside
    exact inside.1.2

def flips (hi : U64) : Bool := opcode hi = TextureRectangleFlip

theorem executeCommandPair_texture {hi : U64} (lo : U64) (draws : isTextureRectangle hi)
    (valid : s.rdp.colorImage.valid = true) : executeCommandPair s hi lo =
      forPixels (rectOf hi).corners (texPixel hi lo (flips hi)) (countCommand s) := by
  have counted : (countCommand s).rdp.colorImage.valid = true := valid
  have run (flip : Bool) : cmdTextureRectangle (countCommand s) hi lo flip =
      forPixels (rectOf hi).corners (texPixel hi lo flip) (countCommand s) := by
    unfold cmdTextureRectangle
    rw [counted, corners_eq]
    rfl
  unfold executeCommandPair flips
  rcases draws with plain | flipped
  · rw [if_pos plain, run, plain]
    rfl
  · rw [flipped]
    exact run true

end Draw

end N64.Rdp
