import N64Emu.FramebufferPaths
import N64Emu.Layers

/-!
# What the picture shows

The copy for the screen decodes the bytes of RDRAM, and these are what the last
commands over them stored. So a frame copied after a list shows at each pixel
the topmost layers of its bytes, and black behind the end of RDRAM.
-/

set_option autoImplicit false

namespace N64.Vi

open Words

section Copy

variable {s : Sys} {x y : ℕ}

def decodeBytes (bpp : ℕ) (bytes : ℕ → U8) : Rgba :=
  if bpp = 2 then decode5551 (join16 (bytes 0) (bytes 1))
  else ⟨bytes 0, bytes 1, bytes 2, bytes 3⟩

theorem mirroredPixel_inside {addr : U32} (format : bytesPerPixel s.vi ≠ 0)
    (inside : addr.toNat + bytesPerPixel s.vi ≤ s.bus.rdramSize) :
    mirroredPixel s addr =
      decodeBytes (bytesPerPixel s.vi) fun i => s.bus.rdram (addr.toNat + i) := by
  rcases bytesPerPixel_cases s.vi with blank | two | four
  · exact absurd blank format
  · rw [mirroredPixel, decodeBytes, if_pos two, if_pos two, mirrored_inside (by omega),
      mirrored_inside (by omega)]
  · have notTwo : bytesPerPixel s.vi ≠ 2 := by omega
    rw [mirroredPixel, decodeBytes, if_neg notTwo, if_neg notTwo, mirrored_inside (by omega),
      mirrored_inside (by omega), mirrored_inside (by omega), mirrored_inside (by omega)]

theorem linePitchBytes_toNat (v : VideoInterface) (format : bytesPerPixel v ≠ 0) :
    (linePitchBytes v).toNat = fbWidth v * bytesPerPixel v := by
  have wide := fbWidth_le v
  have bpp : bytesPerPixel v ≤ 4 := by
    have := bytesPerPixel_cases v
    omega
  have product : fbWidth v * bytesPerPixel v ≤ 640 * 4 := Nat.mul_le_mul wide bpp
  rw [linePitchBytes]
  split
  · omega
  · rw [BitVec.toNat_ofNat, Nat.mod_eq_of_lt (by omega)]

def pixelStart (v : VideoInterface) (x y : ℕ) : ℕ :=
  (framebufferOrigin v).toNat + (y * fbWidth v + x) * bytesPerPixel v

theorem pixelAddr_toNat {v : VideoInterface} (format : bytesPerPixel v ≠ 0) (inX : x < fbWidth v)
    (inY : y < fbHeight v) : (pixelAddr v x y).toNat = pixelStart v x y := by
  have wide := fbWidth_le v
  have tall := fbHeight_le v
  have start := framebufferOrigin_lt v
  have bpp : bytesPerPixel v ≤ 4 := by
    have := bytesPerPixel_cases v
    omega
  have pitch : fbWidth v * bytesPerPixel v ≤ 640 * 4 := Nat.mul_le_mul wide bpp
  have rows : y * (fbWidth v * bytesPerPixel v) ≤ 480 * 2560 := Nat.mul_le_mul (by omega) pitch
  have columns : x * bytesPerPixel v ≤ 640 * 4 := Nat.mul_le_mul (by omega) bpp
  have place : (y * fbWidth v + x) * bytesPerPixel v =
      y * (fbWidth v * bytesPerPixel v) + x * bytesPerPixel v := by
    rw [Nat.add_mul, Nat.mul_assoc]
  rw [pixelStart, place, pixelAddr, BitVec.toNat_add, BitVec.toNat_add, BitVec.toNat_mul,
    BitVec.toNat_mul, linePitchBytes_toNat v format, BitVec.toNat_ofNat, BitVec.toNat_ofNat,
    BitVec.toNat_ofNat, Nat.mod_eq_of_lt (show y < 2 ^ 32 by omega),
    Nat.mod_eq_of_lt (show x < 2 ^ 32 by omega),
    Nat.mod_eq_of_lt (show bytesPerPixel v < 2 ^ 32 by omega)]
  omega

theorem writtenPixel_behind (format : bytesPerPixel s.vi ≠ 0) (inX : x < fbWidth s.vi)
    (inY : y < fbHeight s.vi) (behind : s.bus.rdramSize ≤ (framebufferOrigin s.vi).toNat) :
    writtenPixel s x y = opaqueBlack := by
  have start := pixelAddr_toNat format inX inY
  have low := pixelAddr_lt inX inY
  have bpp : bytesPerPixel s.vi < 8 := by
    have := bytesPerPixel_cases s.vi
    omega
  have outside : (pixelAddr s.vi x y + BitVec.ofNat 32 (bytesPerPixel s.vi)).toNat >
      s.bus.rdramSize ∧ (framebufferOrigin s.vi).toNat ≥ s.bus.rdramSize := by
    rw [addr_add low bpp, start, pixelStart]
    omega
  have sampled : samplePixel s x y = none := by
    rw [samplePixel, if_neg (by omega), if_neg (by omega), Int.toNat_natCast, Int.toNat_natCast,
      if_pos outside]
  rw [writtenPixel, if_neg (fun both => not_lt.mpr behind both.2.1),
    if_neg (fun both => not_lt.mpr behind both.2.1), sampled]
  rfl

theorem writtenPixel_decoded (format : bytesPerPixel s.vi ≠ 0) (inX : x < fbWidth s.vi)
    (inY : y < fbHeight s.vi) : writtenPixel s x y =
      if pixelStart s.vi x y + bytesPerPixel s.vi ≤ s.bus.rdramSize then
        decodeBytes (bytesPerPixel s.vi) fun i => s.bus.rdram (pixelStart s.vi x y + i)
      else opaqueBlack := by
  have place := pixelAddr_toNat format inX inY
  by_cases started : (framebufferOrigin s.vi).toNat < s.bus.rdramSize
  · rw [writtenPixel_started (by omega) started format inX inY, ← place]
    split
    · rename_i inside
      exact mirroredPixel_inside format inside
    · rfl
  · have behind := not_lt.mp started
    have after : ¬pixelStart s.vi x y + bytesPerPixel s.vi ≤ s.bus.rdramSize := by
      rw [pixelStart]
      omega
    rw [writtenPixel_behind format inX inY behind, if_neg after]

theorem copy_returned (format : bytesPerPixel s.vi ≠ 0) (inX : x < fbWidth s.vi)
    (inY : y < fbHeight s.vi) (out : ByteVector) : (copyFramebufferRgba s out).1 = true := by
  have geometry : ¬(bytesPerPixel s.vi = 0 ∨ fbWidth s.vi = 0 ∨ fbHeight s.vi = 0) := by omega
  rw [copyFramebufferRgba, if_neg geometry]
  split
  · rfl
  · split <;> rfl

end Copy

end N64.Vi

namespace N64.Emulator

open Words Overlay Rdp Vi

/-- After any run and a list the screen shows the topmost layers of the list. -/
theorem command_list_shown (fp : HostFpu) (files : Files) (acts : List Act)
    (onBus : ∀ a ∈ acts, a.OnBus) (start end_ : U32) (xbusDmem : Bool) (out : ByteVector)
    {x y : ℕ} :
    let s := (Runs.run (step fp) acts (construct files)).sys
    let shown (k : ℕ) := (top (layers s (listed s start end_ xbusDmem)) k).getD (s.bus.rdram k)
    let copy := copyFramebufferRgba (runCommandList s start end_ xbusDmem) out
    bytesPerPixel s.vi ≠ 0 → x < fbWidth s.vi → y < fbHeight s.vi →
    copy.1 = true ∧ pixelAt s.vi copy.2 x y =
      if pixelStart s.vi x y + bytesPerPixel s.vi ≤ s.bus.rdramSize then
        decodeBytes (bytesPerPixel s.vi) fun i => shown (pixelStart s.vi x y + i)
      else opaqueBlack := by
  intro s shown copy format inX inY
  have imaged : Imaged s.rdp := (imaged_devices.runInvariant fp).holds files acts onBus
  have drew := (Drew.runCommandList s start end_ xbusDmem).rest
  have vi : (runCommandList s start end_ xbusDmem).vi = s.vi := by rw [drew]
  have size : (runCommandList s start end_ xbusDmem).bus.rdramSize = s.bus.rdramSize := by
    rw [drew]
  have bytes : (runCommandList s start end_ xbusDmem).bus.rdram = shown := by
    rw [runCommandList_paints imaged]
    funext k
    exact pile_apply _ _ k
  have returned := copy_returned (s := runCommandList s start end_ xbusDmem) (x := x) (y := y)
    (by rw [vi]; exact format) (by rw [vi]; exact inX) (by rw [vi]; exact inY) out
  have pixel := pixelAt_copy (x := x) (y := y) returned (by rw [vi]; exact inX)
    (by rw [vi]; exact inY)
  rw [writtenPixel_decoded (by rw [vi]; exact format) (by rw [vi]; exact inX)
    (by rw [vi]; exact inY), vi, size, bytes] at pixel
  exact ⟨returned, pixel⟩

/-- A picture of four pixels a line over a filled image. -/
theorem command_list_shown_fill :
    let s := (Runs.run (step default) [.component (DeviceAct.write32 0xA4400000 2).perform,
      .component (DeviceAct.write32 0xA4400008 4).perform,
      .component (DeviceAct.write32 0xA4400028 4).perform,
      .component (DeviceAct.write64 0xA4000000 0x3F10000300100000).perform,
      .component (DeviceAct.write64 0xA4000008 0x3600800500004001).perform]
      (construct fun _ => none)).sys
    (copyFramebufferRgba (runCommandList s 0 16 true) {}).1 = true :=
  (command_list_shown default (fun _ => none) _ (by simp [Act.OnBus]) 0 16 true {} (x := 1)
    (y := 1) (by decide) (by decide) (by decide)).1

end N64.Emulator
