import N64Emu.TextureRectangles

/-!
# Colors across pixel sizes

The sampler hands a texel on as a 16-bit or a 32-bit sample, and the pixel
writer converts it to the depth of the color image. A color image of 32 bits
takes its pixel from the 32-bit sample even where there is none: texels of 8
and 16 bits are stored there as zero.
-/

set_option autoImplicit false

namespace N64.Rdp

open Words Loops

section Texels

def sampleSize (r : Rdp) (i : BitVec 3) : U8 :=
  if (r.tiles i).defined then (r.tiles i).size else r.textureImage.size

def texelPlace (r : Rdp) (i : BitVec 3) (s t : ℤ) : Option ℕ :=
  let tile := r.tiles i
  let s := applyMask s tile.maskS
  let t := applyMask t tile.maskT
  if s < 0 ∨ t < 0 then none
  else
    let bpp := bytesPerTexel (sampleSize r i)
    let lineBytes :=
      if tile.line.setWidth 32 ≠ (0 : U32) then tile.line.setWidth 32 * 8
      else if r.textureImage.valid then r.textureImage.width * bpp
      else BitVec.ofInt 32 (s + 1) * bpp
    let offset := tile.tmem.setWidth 32 * 8 + BitVec.ofInt 32 t * lineBytes +
      BitVec.ofInt 32 s * bpp
    if (offset + bpp).toNat > kTmemBytes then none else some offset.toNat

def greyPixel (p : U8) : U16 :=
  let p : U16 := p.setWidth 16
  ((p >>> 3) <<< 11) ||| ((p >>> 3) <<< 6) ||| ((p >>> 3) <<< 1) ||| 1

def texel16 (m : Bytes) (o : ℕ) : U16 := join16 (m o) (m (o + 1))

def texel32 (m : Bytes) (o : ℕ) : U32 := join32 (m o) (m (o + 1)) (m (o + 2)) (m (o + 3))

def sampleAt (m : Bytes) (size : U8) (o : ℕ) : Sample :=
  if size = 2 then { out16 := texel16 m o }
  else if size = 3 then { out32 := texel32 m o, is32 := true }
  else { out16 := greyPixel (m o) }

theorem sampleTile_eq (r : Rdp) (i : BitVec 3) (s t : ℤ) :
    sampleTile r i s t = (texelPlace r i s t).map (sampleAt r.tmem (sampleSize r i)) := by
  unfold sampleTile texelPlace
  dsimp only
  by_cases negative : applyMask s (r.tiles i).maskS < 0 ∨ applyMask t (r.tiles i).maskT < 0
  · rw [if_pos negative, if_pos negative]
    rfl
  · rw [if_neg negative, if_neg negative]
    unfold sampleSize sampleAt
    split_ifs <;> rfl

def texelColor (m : Bytes) (size : U8) (o : ℕ) : Vi.Rgba :=
  if size = 2 then Vi.decode5551 (texel16 m o)
  else if size = 3 then Vi.decode8888 (texel32 m o)
  else ⟨m o, m o, m o, 255⟩

def pixelColor (m : Bytes) (img : RdpImage) (x y : ℕ) : Vi.Rgba :=
  let off := pixelOffset img x y
  if img.size = 2 then Vi.decode5551 (texel16 m off) else Vi.decode8888 (texel32 m off)

/-- The same color up to five bits a channel and one bit of alpha. -/
def Agree (p q : Vi.Rgba) : Prop :=
  p.r.toNat / 8 = q.r.toNat / 8 ∧ p.g.toNat / 8 = q.g.toNat / 8 ∧
    p.b.toNat / 8 = q.b.toNat / 8 ∧ (p.a = 0 ↔ q.a = 0)

theorem agree_refl (p : Vi.Rgba) : Agree p p := ⟨rfl, rfl, rfl, Iff.rfl⟩

end Texels

section Channels

theorem expand5_div {c : U32} (small : c.toNat < 32) :
    ((Vi.expand5 c).setWidth 8).toNat / 8 = c.toNat := by
  have shifted : (c <<< 3).toNat = c.toNat * 8 := by
    rw [BitVec.toNat_shiftLeft, Nat.shiftLeft_eq]
    omega
  have low : (c >>> 2).toNat = c.toNat / 4 := by
    rw [BitVec.toNat_ushiftRight, Nat.shiftRight_eq_div_pow]
  have sum : (Vi.expand5 c).toNat = c.toNat * 8 + c.toNat / 4 := by
    rw [← shifted, ← low]
    exact LowMasks.toNat_or_low (n := 3) (by omega) (by omega)
  have small : c.toNat * 8 + c.toNat / 4 < 2 ^ 8 := by omega
  rw [BitVec.toNat_setWidth, sum, Nat.mod_eq_of_lt small]
  omega

theorem decode5551_channels (p : U16) :
    (Vi.decode5551 p).r.toNat / 8 = p.toNat / 2 ^ 11 % 32 ∧
    (Vi.decode5551 p).g.toNat / 8 = p.toNat / 2 ^ 6 % 32 ∧
    (Vi.decode5551 p).b.toNat / 8 = p.toNat / 2 ^ 1 % 32 ∧
    ((Vi.decode5551 p).a = 0 ↔ p.toNat % 2 = 0) := by
  have channel (n : ℕ) := expand5_div (Vi.field5_lt p n)
  have wide : (p.setWidth 32 : U32).toNat = p.toNat := by
    rw [BitVec.toNat_setWidth]
    have width := p.isLt
    omega
  have bit : (p.setWidth 32 &&& (1 : U32)) ≠ 0 ↔ p.toNat % 2 = 1 := by
    have low := LowMasks.bit_ne_zero_iff (n := 0) (p.setWidth 32 : U32) (by decide)
    rw [wide, Nat.pow_zero, Nat.div_one] at low
    exact low
  refine ⟨(channel 11).trans (Vi.field5 p 11), (channel 6).trans (Vi.field5 p 6),
    (channel 1).trans (Vi.field5 p 1), ?_⟩
  unfold Vi.decode5551
  dsimp only
  by_cases odd : p.toNat % 2 = 1
  · rw [if_pos (bit.mpr odd)]
    exact iff_of_false (by decide) (by omega)
  · rw [if_neg fun set => odd (bit.mp set)]
    exact iff_of_true rfl (by omega)

theorem pack5551_toNat {r g b a : U16} (hr : r.toNat < 32) (hg : g.toNat < 32)
    (hb : b.toNat < 32) (ha : a.toNat < 2) :
    ((r <<< 11) ||| (g <<< 6) ||| (b <<< 1) ||| a).toNat =
      r.toNat * 2 ^ 11 + g.toNat * 2 ^ 6 + b.toNat * 2 + a.toNat := by
  have shifted {v : U16} {n k : ℕ} (small : v.toNat * 2 ^ n = k) (fits : k < 2 ^ 16) :
      (v <<< n).toNat = k := by
    rw [BitVec.toNat_shiftLeft, Nat.shiftLeft_eq, small]
    exact Nat.mod_eq_of_lt fits
  have red := shifted (v := r) (n := 11) rfl (by omega)
  have green := shifted (v := g) (n := 6) rfl (by omega)
  have blue := shifted (v := b) (n := 1) rfl (by omega)
  have upper : ((r <<< 11) ||| (g <<< 6)).toNat = r.toNat * 2 ^ 11 + g.toNat * 2 ^ 6 := by
    rw [LowMasks.toNat_or_low (n := 11) (by omega) (by omega), red, green]
  have colors : ((r <<< 11) ||| (g <<< 6) ||| (b <<< 1)).toNat =
      r.toNat * 2 ^ 11 + g.toNat * 2 ^ 6 + b.toNat * 2 := by
    rw [LowMasks.toNat_or_low (n := 6) (by omega) (by omega), upper, blue, Nat.pow_one]
  rw [LowMasks.toNat_or_low (n := 1) (by omega) (by omega), colors]

theorem unpack5551 {p r g b a : ℕ} (packed : p = r * 2 ^ 11 + g * 2 ^ 6 + b * 2 + a)
    (hr : r < 32) (hg : g < 32) (hb : b < 32) (ha : a < 2) :
    p / 2 ^ 11 % 32 = r ∧ p / 2 ^ 6 % 32 = g ∧ p / 2 ^ 1 % 32 = b ∧ p % 2 = a := by
  have red : p / 2 ^ 11 = r := by omega
  have green : p / 2 ^ 6 = r * 32 + g := by omega
  have blue : p / 2 ^ 1 = r * 1024 + g * 32 + b := by omega
  rw [red, green, blue]
  omega

theorem eighth (v : U8) : ((v.setWidth 16 : U16) >>> 3).toNat = v.toNat / 8 := by
  have width := v.isLt
  rw [BitVec.toNat_ushiftRight, BitVec.toNat_setWidth, Nat.shiftRight_eq_div_pow]
  omega

theorem agree_grey (v : U8) : Agree (Vi.decode5551 (greyPixel v)) ⟨v, v, v, 255⟩ := by
  have width := v.isLt
  have narrow := eighth v
  have one : (1 : U16).toNat = 1 := rfl
  have value : (greyPixel v).toNat =
      v.toNat / 8 * 2 ^ 11 + v.toNat / 8 * 2 ^ 6 + v.toNat / 8 * 2 + 1 := by
    have packed := pack5551_toNat (r := (v.setWidth 16 : U16) >>> 3)
      (g := (v.setWidth 16 : U16) >>> 3) (b := (v.setWidth 16 : U16) >>> 3) (a := 1)
      (by omega) (by omega) (by omega) (by decide)
    rw [narrow, one] at packed
    exact packed
  obtain ⟨red, green, blue, alpha⟩ := decode5551_channels (greyPixel v)
  obtain ⟨red5, green5, blue5, odd⟩ :=
    unpack5551 value (by omega) (by omega) (by omega) (by decide)
  have visible : (255 : U8) ≠ 0 := by decide
  exact ⟨red.trans red5, green.trans green5, blue.trans blue5,
    alpha.trans (iff_of_false (by omega) visible)⟩

theorem agree_downsample (p : U32) : Agree (Vi.decode5551 (downsample p)) (Vi.decode8888 p) := by
  have red8 := (byteAt p 24).isLt
  have green8 := (byteAt p 16).isLt
  have blue8 := (byteAt p 8).isLt
  have alphaByte : byteAt p 0 = 0 ↔ p &&& 0xFF = 0 := by
    have value : (byteAt p 0).toNat = p.toNat % 2 ^ 8 := by
      rw [Vi.byteAt_toNat, Nat.pow_zero, Nat.div_one]
    have masked : (p &&& 0xFF).toNat = p.toNat % 2 ^ 8 :=
      LowMasks.toNat_and_low (n := 8) p (by decide)
    rw [← BitVec.toNat_inj, ← BitVec.toNat_inj, value, masked]
    rfl
  have bit : (if p &&& 0xFF ≠ 0 then 1 else 0 : U16).toNat < 2 := by
    split_ifs <;> decide
  have value : (downsample p).toNat = (byteAt p 24).toNat / 8 * 2 ^ 11 +
      (byteAt p 16).toNat / 8 * 2 ^ 6 + (byteAt p 8).toNat / 8 * 2 +
      (if p &&& 0xFF ≠ 0 then 1 else 0 : U16).toNat := by
    rw [← eighth, ← eighth, ← eighth]
    exact pack5551_toNat (by rw [eighth]; omega) (by rw [eighth]; omega)
      (by rw [eighth]; omega) bit
  obtain ⟨red, green, blue, alpha⟩ := decode5551_channels (downsample p)
  obtain ⟨red5, green5, blue5, odd⟩ := unpack5551 value (by omega) (by omega) (by omega) bit
  refine ⟨red.trans red5, green.trans green5, blue.trans blue5, alpha.trans ?_⟩
  show _ ↔ byteAt p 0 = 0
  rw [alphaByte, odd]
  by_cases zero : p &&& 0xFF = 0
  · rw [if_neg (not_not.mpr zero)]
    exact iff_of_true rfl zero
  · rw [if_pos zero]
    exact iff_of_false (by decide) zero

theorem agree_zero_iff (p : U16) : Agree (Vi.decode8888 0) (Vi.decode5551 p) ↔ p = 0 := by
  obtain ⟨red, green, blue, alpha⟩ := decode5551_channels p
  have width := p.isLt
  have empty : p = 0 ↔ p.toNat = 0 := by
    rw [← BitVec.toNat_inj]
    rfl
  unfold Agree
  rw [red, green, blue, alpha, empty]
  have black : Vi.decode8888 0 = ⟨0, 0, 0, 0⟩ := by decide
  rw [black]
  show 0 / 8 = p.toNat / 2 ^ 11 % 32 ∧ 0 / 8 = p.toNat / 2 ^ 6 % 32 ∧
    0 / 8 = p.toNat / 2 ^ 1 % 32 ∧ ((0 : U8) = 0 ↔ p.toNat % 2 = 0) ↔ p.toNat = 0
  rw [eq_self_iff_true, true_iff]
  omega

end Channels

section Colors

variable {s : Sys} {hi lo : U64} {x y : ℕ}

def storedColor (img : RdpImage) (t : Sample) : Vi.Rgba :=
  if img.size = 2 then Vi.decode5551 (if t.is32 then downsample t.out32 else t.out16)
  else Vi.decode8888 t.out32

theorem storedColor_half (img : RdpImage) (p : U16) :
    storedColor img { out16 := p } =
      if img.size = 2 then Vi.decode5551 p else Vi.decode8888 0 := rfl

theorem storedColor_word (img : RdpImage) (p : U32) :
    storedColor img { out32 := p, is32 := true } =
      if img.size = 2 then Vi.decode5551 (downsample p) else Vi.decode8888 p := rfl

theorem storedColor_agree_iff (img : RdpImage) (m : Bytes) (size : U8) (o : ℕ) :
    Agree (storedColor img (sampleAt m size o)) (texelColor m size o) ↔
      img.size = 2 ∨ size = 3 ∨ size = 2 ∧ texel16 m o = 0 := by
  unfold sampleAt texelColor
  by_cases half : size = 2
  · have other : size ≠ 3 := by
      rw [half]
      decide
    rw [if_pos half, if_pos half, storedColor_half]
    by_cases narrow : img.size = 2
    · rw [if_pos narrow]
      exact iff_of_true (agree_refl _) (Or.inl narrow)
    · rw [if_neg narrow, agree_zero_iff]
      exact ⟨fun empty => Or.inr (Or.inr ⟨half, empty⟩),
        fun kept => ((kept.resolve_left narrow).resolve_left other).2⟩
  · by_cases word : size = 3
    · rw [if_neg half, if_neg half, if_pos word, if_pos word, storedColor_word]
      refine iff_of_true ?_ (Or.inr (Or.inl word))
      by_cases narrow : img.size = 2
      · rw [if_pos narrow]
        exact agree_downsample _
      · rw [if_neg narrow]
        exact agree_refl _
    · rw [if_neg half, if_neg half, if_neg word, if_neg word, storedColor_half]
      by_cases narrow : img.size = 2
      · rw [if_pos narrow]
        exact iff_of_true (agree_grey _) (Or.inl narrow)
      · rw [if_neg narrow]
        refine iff_of_false ?_ ?_
        · rintro ⟨-, -, -, alpha⟩
          exact absurd (alpha.mp rfl) (show (255 : U8) ≠ 0 by decide)
        · simp only [narrow, half, word, false_or, false_and, not_false_eq_true]

def pixelTexel (r : Rdp) (hi lo : U64) (x y : ℕ) : Option ℕ :=
  texelPlace r (tileIndex hi)
    ((field16s lo 48 + (x - (rectOf hi).x0 : ℕ) * slopeS lo (flips hi)) / 32)
    ((field16s lo 32 + (y - (rectOf hi).y0 : ℕ) * slopeT lo (flips hi)) / 32)

theorem pixelColor_of_bytes {m : Bytes} {img : RdpImage} {t : Sample}
    (bytes : ∀ i < pixelBytes img,
      m (pixelOffset img x y + i) = drawnByte img t.out16 t.out32 t.is32 i) :
    pixelColor m img x y = storedColor img t := by
  unfold pixelColor storedColor
  unfold pixelBytes drawnByte at bytes
  dsimp only
  by_cases narrow : img.size = 2
  · rw [if_pos narrow, if_pos narrow] at bytes
    rw [if_pos narrow, if_pos narrow]
    unfold texel16
    rw [show m (pixelOffset img x y) = _ from bytes 0 (by decide), bytes 1 (by decide),
      join16_bytes]
  · rw [if_neg narrow, if_neg narrow] at bytes
    rw [if_neg narrow, if_neg narrow]
    unfold texel32
    rw [show m (pixelOffset img x y) = _ from bytes 0 (by decide), bytes 1 (by decide),
      bytes 2 (by decide), bytes 3 (by decide), join32_bytes]

theorem drawn_color (draws : isTextureRectangle hi) (target : ColorTarget s.rdp) {o : ℕ}
    (inside : (rectOf hi).Inside x y) (drawn : Drawn s x y)
    (texel : pixelTexel s.rdp hi lo x y = some o) :
    pixelColor (executeCommandPair s hi lo).bus.rdram s.rdp.colorImage x y =
      storedColor s.rdp.colorImage
        (sampleAt s.rdp.tmem (sampleSize s.rdp (tileIndex hi)) o) := by
  have counted : ColorTarget (countCommand s).rdp := ⟨target.decoded, target.depth⟩
  have sample : texSample s.rdp hi lo (flips hi) (x - (rectOf hi).x0) (y - (rectOf hi).y0) =
      some (sampleAt s.rdp.tmem (sampleSize s.rdp (tileIndex hi)) o) := by
    unfold pixelTexel at texel
    unfold texSample
    rw [sampleTile_eq, texel]
    rfl
  have value : texValue hi lo (flips hi) (countCommand s) x y =
      (texSample s.rdp hi lo (flips hi) (x - (rectOf hi).x0) (y - (rectOf hi).y0)).bind
        fun t => drawnValue s x y t.out16 t.out32 t.is32 := rfl
  rw [sample, Option.bind_some, drawnValue_some _ _ _ drawn] at value
  rw [executeCommandPair_texture lo draws target.valid]
  exact pixelColor_of_bytes fun i lt =>
    (tex_draws counted hi lo (flips hi)).written ⟨rfl, rfl⟩ inside value lt

def ShowsTexels (s : Sys) (hi lo : U64) : Prop :=
  ∀ x y o, (rectOf hi).Inside x y → Drawn s x y → pixelTexel s.rdp hi lo x y = some o →
    Agree (pixelColor (executeCommandPair s hi lo).bus.rdram s.rdp.colorImage x y)
      (texelColor s.rdp.tmem (sampleSize s.rdp (tileIndex hi)) o)

/-- The colors are kept exactly on a 16-bit color image, from a 32-bit tile, or
where every drawn pixel samples an empty 16-bit texel. -/
theorem texel_colors_iff (s : Sys) (hi lo : U64) (draws : isTextureRectangle hi)
    (target : ColorTarget s.rdp) : ShowsTexels s hi lo ↔
      s.rdp.colorImage.size = 2 ∨ sampleSize s.rdp (tileIndex hi) = 3 ∨
        ∀ x y o, (rectOf hi).Inside x y → Drawn s x y → pixelTexel s.rdp hi lo x y = some o →
          sampleSize s.rdp (tileIndex hi) = 2 ∧ texel16 s.rdp.tmem o = 0 := by
  have pixel {x y o : ℕ} (inside : (rectOf hi).Inside x y) (drawn : Drawn s x y)
      (texel : pixelTexel s.rdp hi lo x y = some o) :
      Agree (pixelColor (executeCommandPair s hi lo).bus.rdram s.rdp.colorImage x y)
        (texelColor s.rdp.tmem (sampleSize s.rdp (tileIndex hi)) o) ↔
      s.rdp.colorImage.size = 2 ∨ sampleSize s.rdp (tileIndex hi) = 3 ∨
        sampleSize s.rdp (tileIndex hi) = 2 ∧ texel16 s.rdp.tmem o = 0 := by
    rw [drawn_color draws target inside drawn texel]
    exact storedColor_agree_iff _ _ _ o
  constructor
  · intro shows
    by_cases narrow : s.rdp.colorImage.size = 2
    · exact Or.inl narrow
    · by_cases word : sampleSize s.rdp (tileIndex hi) = 3
      · exact Or.inr (Or.inl word)
      · refine Or.inr (Or.inr fun x y o inside drawn texel => ?_)
        exact (((pixel inside drawn texel).mp (shows x y o inside drawn texel)).resolve_left
          narrow).resolve_left word
  · rintro kept x y o inside drawn texel
    apply (pixel inside drawn texel).mpr
    rcases kept with narrow | word | empty
    · exact Or.inl narrow
    · exact Or.inr (Or.inl word)
    · exact Or.inr (Or.inr (empty x y o inside drawn texel))

/-- A white 16-bit tile before a color image of four pixels a line. -/
def whiteTile (image : U64) : Sys :=
  { rdp.colorImage := decodeImage image
    rdp.tiles := fun _ => { line := 1, defined := true }
    rdp.tmem := fun _ => 0xFF }

theorem texel_colors_iff_white :
    ShowsTexels (whiteTile 0x3F10000300100000) 0x2400400400000000 0x0000000004000400 :=
  (texel_colors_iff (whiteTile 0x3F10000300100000) 0x2400400400000000 0x0000000004000400
    (Or.inl (by decide)) ⟨⟨0x3F10000300100000, rfl⟩, by decide⟩).mpr (Or.inl (by decide))

/-- On a 32-bit color image the white texel is stored as zero. -/
theorem white_texel_lost :
    ¬ ∀ s hi lo, isTextureRectangle hi → ColorTarget s.rdp → ShowsTexels s hi lo := by
  have target : ColorTarget (whiteTile 0x3F18000300100000).rdp :=
    ⟨⟨0x3F18000300100000, rfl⟩, by decide⟩
  have draws : isTextureRectangle 0x2400400400000000 := Or.inl (by decide)
  have inside : (rectOf 0x2400400400000000).Inside 0 0 := by
    unfold Rect.Inside
    decide
  have drawn : Drawn (whiteTile 0x3F18000300100000) 0 0 := by decide
  have texel : pixelTexel (whiteTile 0x3F18000300100000).rdp 0x2400400400000000
      0x0000000004000400 0 0 = some 0 := by decide
  intro shows
  have agree := shows _ _ _ draws target 0 0 0 inside drawn texel
  rw [drawn_color draws target inside drawn texel, storedColor_agree_iff] at agree
  exact absurd agree (by decide)

end Colors

end N64.Rdp
