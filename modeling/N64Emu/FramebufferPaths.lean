import N64Emu.Framebuffer
import N64Emu.LowMasks

/-!
# Two paths to a pixel

The copy writes every pixel of the picture once. Inside RDRAM it writes what
the sample reads; behind its end it writes opaque black, where the sample reads
the mirrored bytes.
-/

set_option autoImplicit false

namespace N64

open Words Loops

namespace Vi

section Raster

variable {v : VideoInterface} {x y : ℕ}

def cellAt (out : ByteVector) (i : ℕ) : Rgba :=
  ⟨out.data (i * 4), out.data (i * 4 + 1), out.data (i * 4 + 2), out.data (i * 4 + 3)⟩

theorem cellAt_putPixel (out : ByteVector) (i : ℕ) (p : Rgba) :
    cellAt (putPixel out (i * 4) p) i = p := by
  simp [cellAt, putPixel]

theorem cellAt_putPixel_other (out : ByteVector) {i j : ℕ} (p : Rgba) (other : j ≠ i) :
    cellAt (putPixel out (j * 4) p) i = cellAt out i := by
  have apart : ∀ k l, k < 4 → l < 4 → i * 4 + k ≠ j * 4 + l := by
    intro k l small alsoSmall
    omega
  have kept : ∀ k < 4, (putPixel out (j * 4) p).data (i * 4 + k) = out.data (i * 4 + k) := by
    intro k small
    rw [putPixel]
    dsimp only
    rw [Function.update_of_ne (apart k 3 small (by decide)),
      Function.update_of_ne (apart k 2 small (by decide)),
      Function.update_of_ne (apart k 1 small (by decide))]
    exact Function.update_of_ne (apart k 0 small (by decide)) _ _
  rw [cellAt, kept 1 (by decide), kept 2 (by decide), kept 3 (by decide)]
  exact congrArg (fun r => (⟨r, _, _, _⟩ : Rgba)) (kept 0 (by decide))

theorem row_le {w x x' y y' : ℕ} (inside : x < w) (same : y * w + x = y' * w + x') : y' ≤ y := by
  by_contra below
  have rows : (y + 1) * w ≤ y' * w := Nat.mul_le_mul_right w (by omega)
  rw [Nat.add_mul, Nat.one_mul] at rows
  omega

/-- Two places of a raster are the same only in the same row and column. -/
theorem place_injective {w x y x' y' : ℕ} (inside : x < w) (alsoInside : x' < w)
    (same : y * w + x = y' * w + x') : x = x' ∧ y = y' := by
  have rows : y = y' := Nat.le_antisymm (row_le alsoInside same.symm) (row_le inside same)
  rw [rows] at same
  exact ⟨Nat.add_left_cancel same, rows⟩

theorem pixelAt_copyRows (pixel : ℕ → ℕ → Rgba) (out : ByteVector) (inX : x < fbWidth v)
    (inY : y < fbHeight v) : pixelAt v (copyRows v pixel out) x y = pixel x y := by
  refine upTo_written (fun out => pixelAt v out x y) inY out (fun t => ?_)
    fun j _ row t => ?_
  · refine upTo_written (fun out => pixelAt v out x y) inX t (fun _ => ?_)
      fun i _ column u => ?_
    · exact cellAt_putPixel _ _ _
    · refine cellAt_putPixel_other u _ fun same => column ?_
      exact Nat.add_left_cancel same
  · refine upTo_untouched (fun out => pixelAt v out x y) _ t fun i inside u => ?_
    exact cellAt_putPixel_other u _ fun same => row (place_injective inside inX same).2

end Raster

section Address

variable {v : VideoInterface} {x y : ℕ}

theorem fbWidth_le (v : VideoInterface) : fbWidth v ≤ 640 := by
  have clamped : ∀ w : U32, (if w = 0 then 0 else if w > 640 then 640 else w.toNat) ≤ 640 := by
    intro w
    split_ifs with zero wide
    · exact Nat.zero_le _
    · exact le_rfl
    · exact BitVec.le_def.mp (BitVec.not_lt.mp wide)
  exact clamped _

theorem fbHeight_le (v : VideoInterface) : fbHeight v ≤ 480 := by
  have clamped : ∀ h : U32, (if h > 480 then 480 else h.toNat) ≤ 480 := by
    intro h
    split_ifs with tall
    · exact le_rfl
    · exact BitVec.le_def.mp (BitVec.not_lt.mp tall)
  exact clamped _

theorem bytesPerPixel_cases (v : VideoInterface) :
    bytesPerPixel v = 0 ∨ bytesPerPixel v = 2 ∨ bytesPerPixel v = 4 := by
  rw [bytesPerPixel]
  split <;> simp

theorem framebufferOrigin_lt (v : VideoInterface) : (framebufferOrigin v).toNat < 2 ^ 24 := by
  have low : (origin v).toNat ≤ 0x00FFFFFF := by
    rw [origin, BitVec.toNat_and]
    exact Nat.and_le_right
  have aligned : (framebufferOrigin v).toNat ≤ (origin v).toNat := by
    rw [framebufferOrigin, BitVec.toNat_and]
    exact Nat.and_le_left
  omega

theorem pixelAddr_lt (inX : x < fbWidth v) (inY : y < fbHeight v) :
    (pixelAddr v x y).toNat < 2 ^ 25 := by
  have wide := fbWidth_le v
  have tall := fbHeight_le v
  have start := framebufferOrigin_lt v
  have bpp : bytesPerPixel v ≤ 4 := by
    have := bytesPerPixel_cases v
    omega
  have pitch : (linePitchBytes v).toNat ≤ 2560 := by
    have product : fbWidth v * bytesPerPixel v ≤ 640 * 4 := Nat.mul_le_mul wide bpp
    rw [linePitchBytes]
    split
    · exact Nat.zero_le _
    · rw [BitVec.toNat_ofNat, Nat.mod_eq_of_lt (by omega)]
      exact product
  have rows : y * (linePitchBytes v).toNat ≤ 480 * 2560 := Nat.mul_le_mul (by omega) pitch
  have columns : x * bytesPerPixel v ≤ 640 * 4 := Nat.mul_le_mul (by omega) bpp
  rw [pixelAddr, BitVec.toNat_add, BitVec.toNat_add, BitVec.toNat_mul, BitVec.toNat_mul,
    BitVec.toNat_ofNat, BitVec.toNat_ofNat, BitVec.toNat_ofNat,
    Nat.mod_eq_of_lt (show y < 2 ^ 32 by omega), Nat.mod_eq_of_lt (show x < 2 ^ 32 by omega),
    Nat.mod_eq_of_lt (show bytesPerPixel v < 2 ^ 32 by omega)]
  omega

theorem addr_add {addr : U32} (low : addr.toNat < 2 ^ 25) {i : ℕ} (small : i < 8) :
    (addr + BitVec.ofNat 32 i).toNat = addr.toNat + i := by
  rw [BitVec.toNat_add, BitVec.toNat_ofNat]
  omega

end Address

section Mirror

variable {s : Sys} {addr : U32}

/-- Byte `i` behind an address of RDRAM, read from the mirror. -/
def mirrored (s : Sys) (addr : U32) (i : ℕ) : U8 :=
  s.bus.rdram ((addr.toNat + i) % s.bus.rdramSize)

theorem read8Const_mirrored (nonzero : s.bus.rdramSize ≠ 0) (low : addr.toNat < 2 ^ 25) {i : ℕ}
    (small : i < 8) : Bus.read8Const s (addr + BitVec.ofNat 32 i) = mirrored s addr i := by
  have place : (Bus.physical (addr + BitVec.ofNat 32 i)).toNat = addr.toNat + i := by
    rw [Bus.physical_toNat, addr_add low small]
    omega
  rw [Bus.read8Const, place, if_pos (by omega), if_neg nonzero]
  rfl

theorem mirrored_next {n i : ℕ} (inside : addr.toNat % s.bus.rdramSize + n < s.bus.rdramSize)
    (le : i ≤ n) : mirrored s addr i = s.bus.rdram (addr.toNat % s.bus.rdramSize + i) := by
  have small : i % s.bus.rdramSize = i := Nat.mod_eq_of_lt (by omega)
  rw [mirrored, Nat.add_mod, small, Nat.mod_eq_of_lt (by omega)]

theorem physical_low (low : addr.toNat < 2 ^ 25) : (Bus.physical addr).toNat = addr.toNat := by
  rw [Bus.physical_toNat]
  exact Nat.mod_eq_of_lt (by omega)

theorem read16Const_mirrored (nonzero : s.bus.rdramSize ≠ 0) (low : addr.toNat < 2 ^ 25) :
    Bus.read16Const s addr = join16 (mirrored s addr 0) (mirrored s addr 1) := by
  rw [Bus.read16Const, physical_low low]
  split
  · rename_i direct
    rw [bswap16_load16, mirrored_next direct.2.2 (Nat.zero_le 1), mirrored_next direct.2.2 le_rfl]
    rfl
  · have first : Bus.read8Const s addr = mirrored s addr 0 := by
      rw [← read8Const_mirrored nonzero low (by decide)]
      exact congrArg (Bus.read8Const s) (BitVec.add_zero addr).symm
    have second : Bus.read8Const s (addr + 1) = mirrored s addr 1 :=
      read8Const_mirrored nonzero low (by decide)
    rw [first, second]

theorem read32Const_mirrored (nonzero : s.bus.rdramSize ≠ 0) (low : addr.toNat < 2 ^ 25) :
    Bus.read32Const s addr = join32 (mirrored s addr 0) (mirrored s addr 1) (mirrored s addr 2)
      (mirrored s addr 3) := by
  rw [Bus.read32Const, physical_low low]
  split
  · rename_i direct
    rw [bswap32_load32, mirrored_next direct.2.2 (Nat.zero_le 3),
      mirrored_next direct.2.2 (show 1 ≤ 3 by decide),
      mirrored_next direct.2.2 (show 2 ≤ 3 by decide), mirrored_next direct.2.2 le_rfl]
    rfl
  · rw [if_neg (by omega), if_neg (by omega), if_neg (by omega)]
    have first : Bus.read8Const s addr = mirrored s addr 0 := by
      rw [← read8Const_mirrored nonzero low (by decide)]
      exact congrArg (Bus.read8Const s) (BitVec.add_zero addr).symm
    have second : Bus.read8Const s (addr + 1) = mirrored s addr 1 :=
      read8Const_mirrored nonzero low (by decide)
    have third : Bus.read8Const s (addr + 2) = mirrored s addr 2 :=
      read8Const_mirrored nonzero low (by decide)
    have fourth : Bus.read8Const s (addr + 3) = mirrored s addr 3 :=
      read8Const_mirrored nonzero low (by decide)
    rw [first, second, third, fourth]

end Mirror

section Decode

theorem expand5_lt {c : U32} (small : c.toNat < 32) : (expand5 c).toNat < 2 ^ 8 := by
  rw [expand5, BitVec.toNat_or, BitVec.toNat_shiftLeft, BitVec.toNat_ushiftRight,
    Nat.shiftLeft_eq, Nat.shiftRight_eq_div_pow, Nat.mod_eq_of_lt (by omega)]
  exact Nat.or_lt_two_pow (by omega) (by omega)

theorem expand5_eq_zero_iff {c : U32} (small : c.toNat < 32) :
    (expand5 c).setWidth 8 = (0 : U8) ↔ c.toNat = 0 := by
  rw [← BitVec.toNat_inj, BitVec.toNat_setWidth, Nat.mod_eq_of_lt (expand5_lt small), expand5,
    BitVec.toNat_or, BitVec.toNat_shiftLeft, BitVec.toNat_ushiftRight, Nat.shiftLeft_eq,
    Nat.shiftRight_eq_div_pow, Nat.mod_eq_of_lt (by omega)]
  change c.toNat * 2 ^ 3 ||| c.toNat / 2 ^ 2 = 0 ↔ _
  rw [Nat.or_eq_zero_iff]
  omega

theorem field5 (p : U16) (n : ℕ) :
    ((p.setWidth 32 >>> n) &&& (0x1F : U32)).toNat = p.toNat / 2 ^ n % 32 := by
  have masked := LowMasks.toNat_and_low (p.setWidth 32 >>> n) (show 5 ≤ 32 by decide)
  have fits : p.toNat < 2 ^ 32 := p.isLt.trans (by decide)
  rw [BitVec.toNat_ushiftRight, BitVec.toNat_setWidth, Nat.mod_eq_of_lt fits,
    Nat.shiftRight_eq_div_pow] at masked
  exact masked

theorem field5_lt (p : U16) (n : ℕ) : ((p.setWidth 32 >>> n) &&& (0x1F : U32)).toNat < 32 := by
  rw [field5]
  exact Nat.mod_lt _ (by decide)

theorem narrow_widen {c : U32} (small : c.toNat < 2 ^ 8) : (c.setWidth 8).setWidth 32 = c := by
  apply BitVec.eq_of_toNat_eq
  rw [BitVec.toNat_setWidth, BitVec.toNat_setWidth, Nat.mod_eq_of_lt small,
    Nat.mod_eq_of_lt (by omega)]

theorem byteAt_toNat (v : U32) (n : ℕ) : (byteAt v n).toNat = v.toNat / 2 ^ n % 2 ^ 8 := by
  rw [Bus.byteAt_eq, BitVec.extractLsb'_toNat, Nat.shiftRight_eq_div_pow]

theorem byteAt_join32 (a b c d : U8) :
    byteAt (join32 a b c d) 24 = a ∧ byteAt (join32 a b c d) 16 = b ∧
      byteAt (join32 a b c d) 8 = c ∧ byteAt (join32 a b c d) 0 = d := by
  have whole : (join32 a b c d).toNat =
      ((a.toNat * 2 ^ 8 + b.toNat) * 2 ^ 8 + c.toNat) * 2 ^ 8 + d.toNat := by
    rw [join32_eq_append, LowMasks.toNat_append, LowMasks.toNat_append, LowMasks.toNat_append]
  have first := a.isLt
  have second := b.isLt
  have third := c.isLt
  have fourth := d.isLt
  refine ⟨?_, ?_, ?_, ?_⟩
  · apply BitVec.eq_of_toNat_eq
    rw [byteAt_toNat, whole]
    omega
  · apply BitVec.eq_of_toNat_eq
    rw [byteAt_toNat, whole]
    omega
  · apply BitVec.eq_of_toNat_eq
    rw [byteAt_toNat, whole]
    omega
  · apply BitVec.eq_of_toNat_eq
    rw [byteAt_toNat, whole]
    omega

theorem or_reverse (a b c d : U32) : a ||| b ||| c ||| d = d ||| c ||| b ||| a := by
  ac_rfl

theorem lut5551_eq (p : U16) :
    lut5551 p = join32 (decode5551 p).a (decode5551 p).b (decode5551 p).g (decode5551 p).r := by
  have wide := fun n => narrow_widen (expand5_lt (field5_lt p n))
  have alpha : ((decode5551 p).a.setWidth 32 : U32) =
      if p.setWidth 32 &&& (1 : U32) ≠ 0 then 0xFF else 0x00 := by
    rw [decode5551]
    dsimp only
    split <;> rfl
  rw [lut5551, join32, alpha, decode5551]
  dsimp only
  rw [wide, wide, wide]
  exact or_reverse _ _ _ _

theorem lut5551_bytes (p : U16) :
    (⟨byteAt (lut5551 p) 0, byteAt (lut5551 p) 8, byteAt (lut5551 p) 16,
      byteAt (lut5551 p) 24⟩ : Rgba) = decode5551 p := by
  obtain ⟨alpha, blue, green, red⟩ := byteAt_join32 (decode5551 p).a (decode5551 p).b
    (decode5551 p).g (decode5551 p).r
  rw [lut5551_eq, alpha, blue, green, red]

theorem decode5551_opaqueBlack (p : U16) : decode5551 p = opaqueBlack ↔ p = 1 := by
  have bit : (p.setWidth 32 &&& (1 : U32)).toNat = p.toNat % 2 := by
    have fits : p.toNat < 2 ^ 32 := p.isLt.trans (by decide)
    rw [BitVec.toNat_and, BitVec.toNat_setWidth, Nat.mod_eq_of_lt fits]
    exact Nat.and_one_is_mod _
  have alpha : (if p.setWidth 32 &&& (1 : U32) ≠ 0 then (0xFF : U8) else 0x00) = 255 ↔
      p.toNat % 2 = 1 := by
    rw [← bit]
    split
    · rename_i set_
      have nonzero : (p.setWidth 32 &&& (1 : U32)).toNat ≠ 0 := fun zero =>
        set_ (BitVec.eq_of_toNat_eq zero)
      exact iff_of_true rfl (by omega)
    · rename_i clear
      rw [not_not.mp clear]
      decide
  have channel := fun n => expand5_eq_zero_iff (field5_lt p n)
  have width := p.isLt
  rw [decode5551, opaqueBlack, Rgba.mk.injEq, channel, channel, channel, field5, field5, field5,
    alpha, ← BitVec.toNat_inj]
  change _ ↔ p.toNat = 1
  omega

theorem decode8888_join (r g b a : U8) : decode8888 (join32 r g b a) = ⟨r, g, b, a⟩ := by
  obtain ⟨red, green, blue, alpha⟩ := byteAt_join32 r g b a
  rw [decode8888, red, green, blue, alpha]

end Decode

section Paths

variable {s : Sys} {x y : ℕ}

/-- The pixel that `copy_framebuffer_rgba` writes. -/
def writtenPixel (s : Sys) (x y : ℕ) : Rgba :=
  if s.bus.rdramSize ≠ 0 ∧ (framebufferOrigin s.vi).toNat < s.bus.rdramSize ∧
      bytesPerPixel s.vi = 2 then
    fastPixel16 s.bus (pixelAddr s.vi x y)
  else if s.bus.rdramSize ≠ 0 ∧ (framebufferOrigin s.vi).toNat < s.bus.rdramSize ∧
      bytesPerPixel s.vi = 4 then
    fastPixel32 s.bus (pixelAddr s.vi x y)
  else (samplePixel s x y).getD opaqueBlack

theorem copy_returns {out : ByteVector} (returned : (copyFramebufferRgba s out).1 = true) :
    bytesPerPixel s.vi ≠ 0 := by
  intro blank
  rw [copyFramebufferRgba, if_pos (.inl blank)] at returned
  exact absurd returned Bool.false_ne_true

theorem pixelAt_copy {out : ByteVector} (returned : (copyFramebufferRgba s out).1 = true)
    (inX : x < fbWidth s.vi) (inY : y < fbHeight s.vi) :
    pixelAt s.vi (copyFramebufferRgba s out).2 x y = writtenPixel s x y := by
  have geometry : ¬ (bytesPerPixel s.vi = 0 ∨ fbWidth s.vi = 0 ∨ fbHeight s.vi = 0) := by
    have format := copy_returns returned
    omega
  rw [copyFramebufferRgba, if_neg geometry, writtenPixel]
  split
  · exact pixelAt_copyRows _ _ inX inY
  · split <;> exact pixelAt_copyRows _ _ inX inY

/-- The pixel read from the mirror, in the format of the picture. -/
def mirroredPixel (s : Sys) (addr : U32) : Rgba :=
  if bytesPerPixel s.vi = 2 then decode5551 (join16 (mirrored s addr 0) (mirrored s addr 1))
  else ⟨mirrored s addr 0, mirrored s addr 1, mirrored s addr 2, mirrored s addr 3⟩

theorem samplePixel_mirrored (some_ : s.bus.rdramSize ≠ 0)
    (started : (framebufferOrigin s.vi).toNat < s.bus.rdramSize) (format : bytesPerPixel s.vi ≠ 0)
    (inX : x < fbWidth s.vi) (inY : y < fbHeight s.vi) :
    samplePixel s x y = some (mirroredPixel s (pixelAddr s.vi x y)) := by
  have low := pixelAddr_lt inX inY
  rw [samplePixel, if_neg (by omega), if_neg (by omega), Int.toNat_natCast, Int.toNat_natCast,
    if_neg (fun outside => not_lt.mpr outside.2 started), mirroredPixel]
  split
  · rw [read16Const_mirrored some_ low]
  · rw [read32Const_mirrored some_ low, decode8888_join]

theorem mirrored_inside {addr : U32} {i : ℕ} (inside : addr.toNat + i < s.bus.rdramSize) :
    mirrored s addr i = s.bus.rdram (addr.toNat + i) := by
  rw [mirrored, Nat.mod_eq_of_lt inside]

theorem fastPixel16_inside {addr : U32} (low : addr.toNat < 2 ^ 25)
    (inside : addr.toNat + 1 < s.bus.rdramSize) :
    fastPixel16 s.bus addr = decode5551 (join16 (mirrored s addr 0) (mirrored s addr 1)) := by
  have next : (addr + 1).toNat = addr.toNat + 1 := addr_add low (show 1 < 8 by decide)
  have first : mirrored s addr 0 = s.bus.rdram addr.toNat :=
    mirrored_inside (show addr.toNat + 0 < s.bus.rdramSize by omega)
  rw [fastPixel16, next, if_pos inside, first, mirrored_inside inside]
  exact lut5551_bytes _

theorem fastPixel16_outside {addr : U32} (low : addr.toNat < 2 ^ 25)
    (outside : ¬ addr.toNat + 1 < s.bus.rdramSize) : fastPixel16 s.bus addr = opaqueBlack := by
  have next : (addr + 1).toNat = addr.toNat + 1 := addr_add low (show 1 < 8 by decide)
  rw [fastPixel16, next, if_neg outside]
  decide

theorem fastPixel32_inside {addr : U32} (low : addr.toNat < 2 ^ 25)
    (inside : addr.toNat + 3 < s.bus.rdramSize) :
    fastPixel32 s.bus addr =
      ⟨mirrored s addr 0, mirrored s addr 1, mirrored s addr 2, mirrored s addr 3⟩ := by
  have second : (addr + 1).toNat = addr.toNat + 1 := addr_add low (show 1 < 8 by decide)
  have third : (addr + 2).toNat = addr.toNat + 2 := addr_add low (show 2 < 8 by decide)
  have fourth : (addr + 3).toNat = addr.toNat + 3 := addr_add low (show 3 < 8 by decide)
  have first : mirrored s addr 0 = s.bus.rdram addr.toNat :=
    mirrored_inside (show addr.toNat + 0 < s.bus.rdramSize by omega)
  rw [fastPixel32, second, third, fourth, if_pos inside, first,
    mirrored_inside (show addr.toNat + 1 < s.bus.rdramSize by omega),
    mirrored_inside (show addr.toNat + 2 < s.bus.rdramSize by omega), mirrored_inside inside]

theorem fastPixel32_outside {addr : U32} (low : addr.toNat < 2 ^ 25)
    (outside : ¬ addr.toNat + 3 < s.bus.rdramSize) : fastPixel32 s.bus addr = opaqueBlack := by
  have fourth : (addr + 3).toNat = addr.toNat + 3 := addr_add low (show 3 < 8 by decide)
  rw [fastPixel32, fourth, if_neg outside]

def MirrorsBlack (s : Sys) (addr : U32) : Prop :=
  if bytesPerPixel s.vi = 2 then mirrored s addr 0 = 0 ∧ mirrored s addr 1 = 1
  else mirrored s addr 0 = 0 ∧ mirrored s addr 1 = 0 ∧ mirrored s addr 2 = 0 ∧
    mirrored s addr 3 = 255

theorem join16_eq_one_iff (a b : U8) : join16 a b = 1 ↔ a = 0 ∧ b = 1 := by
  have whole : (join16 a b).toNat = a.toNat * 2 ^ 8 + b.toNat := by
    rw [join16_eq_append, LowMasks.toNat_append]
  have low := b.isLt
  rw [← BitVec.toNat_inj, ← BitVec.toNat_inj, ← BitVec.toNat_inj, whole]
  change _ = 1 ↔ a.toNat = 0 ∧ b.toNat = 1
  omega

theorem mirrorsBlack_iff (addr : U32) :
    MirrorsBlack s addr ↔ mirroredPixel s addr = opaqueBlack := by
  rw [MirrorsBlack, mirroredPixel]
  split
  · rw [decode5551_opaqueBlack, join16_eq_one_iff]
  · rw [opaqueBlack, Rgba.mk.injEq]

/-- The picture starts outside RDRAM, or the pixel lies inside it, or it is
opaque black in the mirror. -/
def PathsAgree (s : Sys) (x y : ℕ) : Prop :=
  s.bus.rdramSize ≤ (framebufferOrigin s.vi).toNat ∨
    (pixelAddr s.vi x y).toNat + bytesPerPixel s.vi ≤ s.bus.rdramSize ∨
    MirrorsBlack s (pixelAddr s.vi x y)

theorem writtenPixel_started (some_ : s.bus.rdramSize ≠ 0)
    (started : (framebufferOrigin s.vi).toNat < s.bus.rdramSize) (format : bytesPerPixel s.vi ≠ 0)
    (inX : x < fbWidth s.vi) (inY : y < fbHeight s.vi) :
    writtenPixel s x y =
      if (pixelAddr s.vi x y).toNat + bytesPerPixel s.vi ≤ s.bus.rdramSize then
        mirroredPixel s (pixelAddr s.vi x y)
      else opaqueBlack := by
  have low := pixelAddr_lt inX inY
  rcases bytesPerPixel_cases s.vi with blank | two | four
  · exact absurd blank format
  · rw [writtenPixel, if_pos ⟨some_, started, two⟩, mirroredPixel, if_pos two, two]
    split
    · exact fastPixel16_inside low (by omega)
    · exact fastPixel16_outside low (by omega)
  · have notTwo : bytesPerPixel s.vi ≠ 2 := by omega
    rw [writtenPixel, if_neg (fun all => notTwo all.2.2), if_pos ⟨some_, started, four⟩,
      mirroredPixel, if_neg notTwo, four]
    split
    · exact fastPixel32_inside low (by omega)
    · exact fastPixel32_outside low (by omega)

/-- A copied pixel is the sampled one exactly when the picture starts outside
RDRAM, the pixel lies inside it, or its mirror is opaque black. -/
theorem copied_pixel_iff (s : Sys) (out : ByteVector) {x y : ℕ} (inX : x < fbWidth s.vi)
    (inY : y < fbHeight s.vi) (returned : (copyFramebufferRgba s out).1 = true) :
    pixelAt s.vi (copyFramebufferRgba s out).2 x y = (samplePixel s x y).getD opaqueBlack ↔
      PathsAgree s x y := by
  have format := copy_returns returned
  rw [pixelAt_copy returned inX inY, PathsAgree]
  by_cases started : (framebufferOrigin s.vi).toNat < s.bus.rdramSize
  · have some_ : s.bus.rdramSize ≠ 0 := by omega
    rw [writtenPixel_started some_ started format inX inY,
      samplePixel_mirrored some_ started format inX inY, Option.getD_some, mirrorsBlack_iff]
    by_cases inside : (pixelAddr s.vi x y).toNat + bytesPerPixel s.vi ≤ s.bus.rdramSize
    · rw [if_pos inside]
      exact iff_of_true rfl (.inr (.inl inside))
    · rw [if_neg inside]
      constructor
      · intro black
        exact .inr (.inr black.symm)
      · rintro (behind | within | black)
        · exact absurd started (not_lt.mpr behind)
        · exact absurd within inside
        · exact black.symm
  · rw [writtenPixel, if_neg (fun both => started both.2.1), if_neg (fun both => started both.2.1)]
    exact iff_of_true rfl (.inl (not_lt.mp started))

/-- A 16-bit picture four pixels wide in the last four bytes of an RDRAM of
4 MiB that holds white at its bottom. -/
def lastRow : Sys :=
  { vi := { regs := fun i => if i = Control then 2 else if i = Origin then 0x3FFFFC
            else if i = Width then 4 else if i = VStart then 0x4 else 0 }
    bus := { rdram := fun i => if i < 2 then 0xFF else 0 } }

theorem copied_pixel_inside :
    pixelAt lastRow.vi (copyFramebufferRgba lastRow {}).2 1 0 =
      (samplePixel lastRow 1 0).getD opaqueBlack ↔ PathsAgree lastRow 1 0 :=
  copied_pixel_iff lastRow {} (by decide) (by decide) rfl

theorem pixel_behind_the_end :
    (copyFramebufferRgba lastRow {}).1 = true ∧
      pixelAt lastRow.vi (copyFramebufferRgba lastRow {}).2 2 0 = ⟨0, 0, 0, 255⟩ ∧
      samplePixel lastRow 2 0 = some ⟨255, 255, 255, 255⟩ := by
  refine ⟨rfl, ?_, by decide⟩
  rw [pixelAt_copy rfl (by decide) (by decide)]
  decide

end Paths

end Vi

end N64
