import N64Emu.TextureRectangles

/-!
# Textured blits

LoadTile lays the rows of a texture out in TMEM in steps of the tile's line, and
the sampler reads them back in the same steps. A textured rectangle with slopes
of one texel therefore copies the texture to the color image.
-/

set_option autoImplicit false

namespace N64.Rdp

open Words Loops Fills

section Rows

variable {b : Bus} {r : Rdp}

theorem sum_toNat {n i : ℕ} (room : n + i < 2 ^ 32) :
    (BitVec.ofNat 32 n + BitVec.ofNat 32 i).toNat = n + i := by
  rw [← BitVec.ofNat_add, BitVec.toNat_ofNat]
  exact Nat.mod_eq_of_lt room

theorem copyRdramToTmem_at (nonzero : b.rdramSize ≠ 0) {dram place n i : ℕ}
    (low : dram + n < 2 ^ 32) (fits : place + n ≤ 4096) (inside : i < n) :
    (copyRdramToTmem b (BitVec.ofNat 32 dram) (BitVec.ofNat 32 place) (BitVec.ofNat 32 n) r).tmem
      (place + i) = b.rdram ((dram + i) % b.rdramSize) := by
  have count : (BitVec.ofNat 32 n).toNat = n := by
    rw [BitVec.toNat_ofNat]
    omega
  have key {j : ℕ} (lt : j < n) :
      (BitVec.ofNat 32 place + BitVec.ofNat 32 j).toNat % kTmemBytes = place + j := by
    rw [sum_toNat (by omega)]
    exact Nat.mod_eq_of_lt (by unfold kTmemBytes; omega)
  have byte : b.rdramByte (BitVec.ofNat 32 dram + BitVec.ofNat 32 i) =
      b.rdram ((dram + i) % b.rdramSize) := by
    unfold Bus.rdramByte
    rw [if_neg nonzero, sum_toNat (by omega)]
  unfold copyRdramToTmem
  rw [if_neg nonzero, count, ← key inside, ← byte]
  apply fill_at_of_injective inside
  intro j lt same
  rw [key lt, key inside] at same
  omega

theorem copyRdramToTmem_other {dram place n k : ℕ} (fits : place + n ≤ 4096)
    (apart : ∀ i < n, place + i ≠ k) :
    (copyRdramToTmem b (BitVec.ofNat 32 dram) (BitVec.ofNat 32 place) (BitVec.ofNat 32 n) r).tmem
      k = r.tmem k := by
  unfold copyRdramToTmem
  split_ifs with empty
  · rfl
  · have count : (BitVec.ofNat 32 n).toNat = n := by
      rw [BitVec.toNat_ofNat]
      omega
    rw [count]
    refine fill_other fun j lt same => apart j lt ?_
    rw [← same, sum_toNat (by omega)]
    exact (Nat.mod_eq_of_lt (by unfold kTmemBytes; omega)).symm

def WithTmem (r t : Rdp) : Prop := t = { r with tmem := t.tmem }

theorem WithTmem.texture {t : Rdp} (with_ : WithTmem r t) : t.textureImage = r.textureImage := by
  rw [with_]

theorem WithTmem.image {t : Rdp} (with_ : WithTmem r t) : t.colorImage = r.colorImage := by
  rw [with_]

theorem WithTmem.clip {t : Rdp} (with_ : WithTmem r t) : t.scissor = r.scissor := by
  rw [with_]

theorem WithTmem.copy {t : Rdp} (with_ : WithTmem r t) (dram place n : U32) :
    WithTmem r (copyRdramToTmem b dram place n t) := by
  unfold copyRdramToTmem
  split_ifs
  · exact with_
  · unfold WithTmem at with_ ⊢
    rw [with_]

end Rows

section Load

variable {b : Bus} {r : Rdp} {address width w h pitch place : ℕ}

/-- The rows of a tile from the corner of a 16-bit texture. -/
def loadRows (b : Bus) (w pitch place h : ℕ) (r : Rdp) : Rdp :=
  upTo (loadTileRow b 0 0 (BitVec.ofNat 32 w) 2 (BitVec.ofNat 32 pitch) (BitVec.ofNat 32 place)) h r

theorem loadTileRow_eq {t : Rdp} (image : t.textureImage.address = BitVec.ofNat 32 address)
    (size : t.textureImage.width = BitVec.ofNat 32 width) (row : ℕ) :
    loadTileRow b 0 0 (BitVec.ofNat 32 w) 2 (BitVec.ofNat 32 pitch) (BitVec.ofNat 32 place) row t =
      copyRdramToTmem b (BitVec.ofNat 32 (address + row * width * 2))
        (BitVec.ofNat 32 (place + row * pitch)) (BitVec.ofNat 32 (w * 2)) t := by
  have dram : t.textureImage.address +
      (0#32 + BitVec.ofNat 32 row) * t.textureImage.width * 2#32 + 0#32 * 2#32 =
      BitVec.ofNat 32 (address + row * width * 2) := by
    rw [image, size, BitVec.zero_add, BitVec.zero_mul, BitVec.add_zero, BitVec.ofNat_add,
      BitVec.ofNat_mul, BitVec.ofNat_mul]
  have start : BitVec.ofNat 32 place + BitVec.ofNat 32 row * BitVec.ofNat 32 pitch =
      BitVec.ofNat 32 (place + row * pitch) := by
    rw [BitVec.ofNat_add, BitVec.ofNat_mul]
  have count : BitVec.ofNat 32 w * 2#32 = BitVec.ofNat 32 (w * 2) := (BitVec.ofNat_mul w 2).symm
  rw [← dram, ← start, ← count]
  rfl

theorem loadRows_at (nonzero : b.rdramSize ≠ 0)
    (image : r.textureImage.address = BitVec.ofNat 32 address)
    (size : r.textureImage.width = BitVec.ofNat 32 width)
    (low : address + h * width * 2 + w * 2 < 2 ^ 32) (wide : 2 * w ≤ pitch)
    (fits : place + (h - 1) * pitch + 2 * w ≤ 4096) {j i : ℕ} (row : j < h) (inside : i < 2 * w) :
    (loadRows b w pitch place h r).tmem (place + j * pitch + i) =
      b.rdram ((address + j * width * 2 + i) % b.rdramSize) := by
  have rows {j : ℕ} (lt : j < h) : place + j * pitch + w * 2 ≤ 4096 := by
    have below : j * pitch ≤ (h - 1) * pitch := Nat.mul_le_mul_right pitch (by omega)
    omega
  have eq {j : ℕ} {t : Rdp} (with_ : WithTmem r t) :
      loadTileRow b 0 0 (BitVec.ofNat 32 w) 2 (BitVec.ofNat 32 pitch) (BitVec.ofNat 32 place) j t =
        copyRdramToTmem b (BitVec.ofNat 32 (address + j * width * 2))
          (BitVec.ofNat 32 (place + j * pitch)) (BitVec.ofNat 32 (w * 2)) t :=
    loadTileRow_eq (by rw [with_.texture, image]) (by rw [with_.texture, size]) j
  refine upTo_written_inv (WithTmem r) (fun t => t.tmem (place + j * pitch + i)) row rfl ?_ ?_ ?_
  · intro k _ t with_
    exact with_.copy _ _ _
  · intro t with_
    have below : j * width * 2 ≤ h * width * 2 :=
      Nat.mul_le_mul_right 2 (Nat.mul_le_mul_right width (by omega))
    rw [eq with_]
    exact copyRdramToTmem_at nonzero (by omega) (rows row) (by omega)
  · intro k lt apart t with_
    rw [eq with_]
    refine copyRdramToTmem_other (rows lt) fun c inside' same => apart ?_
    have places : k * pitch + c = j * pitch + i := by omega
    exact (cell_inj (by omega) (by omega) places).1

end Load

section Tile

variable {r : Rdp} {i : BitVec 3} {line tmem : ℕ}

/-- A 16-bit tile without masks. -/
structure TileReady (r : Rdp) (i : BitVec 3) (line tmem : ℕ) : Prop where
  defined : (r.tiles i).defined = true
  size : (r.tiles i).size = 2
  line : (r.tiles i).line.toNat = line
  tmem : (r.tiles i).tmem.toNat = tmem
  maskS : (r.tiles i).maskS = 0
  maskT : (r.tiles i).maskT = 0

theorem widen (v : U16) : v.setWidth 32 = BitVec.ofNat 32 v.toNat := by
  apply BitVec.eq_of_toNat_eq
  rw [BitVec.toNat_setWidth, BitVec.toNat_ofNat]

theorem sampleTile_ready (ready : TileReady r i line tmem) (positive : 0 < line) {j k : ℕ}
    (fits : 8 * tmem + k * (8 * line) + 2 * j + 2 ≤ 4096) :
    let off := 8 * tmem + k * (8 * line) + 2 * j
    sampleTile r i j k = some { out16 := join16 (r.tmem off) (r.tmem (off + 1)) } := by
  intro off
  have natural : ¬ ((j : ℤ) < 0 ∨ (k : ℤ) < 0) := by omega
  have words : (r.tiles i).line.setWidth 32 = BitVec.ofNat 32 line := by rw [widen, ready.line]
  have small := (r.tiles i).line.isLt
  have nonzero : BitVec.ofNat 32 line ≠ 0 := by
    intro zero
    have value := congrArg BitVec.toNat zero
    rw [BitVec.toNat_ofNat] at value
    rw [ready.line] at small
    have nothing : (0 : U32).toNat = 0 := rfl
    omega
  have offset : (r.tiles i).tmem.setWidth 32 * 8 +
      BitVec.ofInt 32 (k : ℤ) * (BitVec.ofNat 32 line * 8) + BitVec.ofInt 32 (j : ℤ) * 2#32 =
      BitVec.ofNat 32 (8 * tmem + k * (8 * line) + 2 * j) := by
    rw [show (8 : U32) = BitVec.ofNat 32 8 from rfl, widen, ready.tmem, BitVec.ofInt_natCast,
      BitVec.ofInt_natCast, ← BitVec.ofNat_mul, ← BitVec.ofNat_mul, ← BitVec.ofNat_mul,
      ← BitVec.ofNat_mul, ← BitVec.ofNat_add, ← BitVec.ofNat_add, Nat.mul_comm tmem,
      Nat.mul_comm line, Nat.mul_comm j]
  have place : (BitVec.ofNat 32 (8 * tmem + k * (8 * line) + 2 * j)).toNat =
      8 * tmem + k * (8 * line) + 2 * j := by
    rw [BitVec.toNat_ofNat]
    omega
  have end_ : (BitVec.ofNat 32 (8 * tmem + k * (8 * line) + 2 * j) + 2#32).toNat =
      8 * tmem + k * (8 * line) + 2 * j + 2 := sum_toNat (i := 2) (by omega)
  have inside : ¬ (BitVec.ofNat 32 (8 * tmem + k * (8 * line) + 2 * j) + 2#32).toNat >
      kTmemBytes := by
    rw [end_]
    unfold kTmemBytes
    omega
  unfold sampleTile applyMask
  dsimp only
  rw [ready.maskS, ready.maskT, if_pos (Or.inl rfl), if_pos (Or.inl rfl), if_neg natural,
    ready.defined, if_pos rfl, ready.size, words, if_pos nonzero]
  show (if (_ + (2#32)).toNat > kTmemBytes then none else _) = _
  rw [show bytesPerTexel 2 = 2#32 from rfl, offset, if_neg inside, if_pos rfl, place]

theorem tileReady_setTile (cmd : U64) (size : bits cmd 51 2 = 2) (maskT : bits cmd 14 4 = 0)
    (maskS : bits cmd 4 4 = 0) :
    TileReady (cmdSetTile r cmd) (tileIndex cmd) (bits cmd 41 9) (bits cmd 32 9) := by
  have tile : (cmdSetTile r cmd).tiles (tileIndex cmd) = _ := Function.update_self _ _ _
  refine ⟨?_, ?_, ?_, ?_, ?_, ?_⟩
  · rw [tile]
  · rw [tile]
    exact BitVec.eq_of_toNat_eq
      ((field_setWidth cmd 51 (n := 2) (by decide) (by decide)).trans size)
  · rw [tile]
    exact field_setWidth cmd 41 (n := 9) (by decide) (by decide)
  · rw [tile]
    exact field_setWidth cmd 32 (n := 9) (by decide) (by decide)
  · rw [tile]
    exact BitVec.eq_of_toNat_eq
      ((field_setWidth cmd 4 (n := 4) (by decide) (by decide)).trans maskS)
  · rw [tile]
    exact BitVec.eq_of_toNat_eq
      ((field_setWidth cmd 14 (n := 4) (by decide) (by decide)).trans maskT)

end Tile

section LoadTile

variable {b : Bus} {r : Rdp} {cmd : U64} {line tmem w h : ℕ}

theorem texel_edge (k : ℕ) : field cmd k 0xFFF >>> 2 = BitVec.ofNat 32 (bits cmd k 12 / 4) := by
  have value : (field cmd k 0xFFF).toNat = bits cmd k 12 := field_toNat cmd k (n := 12) (by decide)
  have small := bits_lt cmd k 12
  apply BitVec.eq_of_toNat_eq
  rw [BitVec.toNat_ushiftRight, value, BitVec.toNat_ofNat, Nat.shiftRight_eq_div_pow]
  omega

def cornered (r : Rdp) (cmd : U64) : Rdp :=
  let i := tileIndex cmd
  setTileAt r i { r.tiles i with
    sl := ((field cmd 44 0xFFF >>> 2) <<< 2).setWidth 16
    tl := ((field cmd 32 0xFFF >>> 2) <<< 2).setWidth 16
    sh := ((field cmd 12 0xFFF >>> 2) <<< 2).setWidth 16
    th := ((field cmd 0 0xFFF >>> 2) <<< 2).setWidth 16 }

theorem cornered_ready (ready : TileReady r (tileIndex cmd) line tmem) :
    TileReady (cornered r cmd) (tileIndex cmd) line tmem := by
  have tile : (cornered r cmd).tiles (tileIndex cmd) = _ := Function.update_self _ _ _
  refine ⟨?_, ?_, ?_, ?_, ?_, ?_⟩
  · rw [tile, ready.defined]
  · rw [tile, ready.size]
  · rw [tile, ready.line]
  · rw [tile, ready.tmem]
  · rw [tile, ready.maskS]
  · rw [tile, ready.maskT]

def texels (low high : U32) : U32 := if high ≥ low then high - low + 1 else 1

theorem texels_zero (n : ℕ) : texels 0#32 (BitVec.ofNat 32 n) = BitVec.ofNat 32 (n + 1) := by
  have above : BitVec.ofNat 32 n ≥ 0#32 := Nat.zero_le _
  unfold texels
  rw [if_pos above, BitVec.sub_zero, BitVec.ofNat_add]
  rfl

theorem cmdLoadTile_rows (valid : r.textureImage.valid = true)
    (defined : (r.tiles (tileIndex cmd)).line ≠ 0) : cmdLoadTile b r cmd =
      let sl := field cmd 44 0xFFF >>> 2
      let tl := field cmd 32 0xFFF >>> 2
      let bpp := bytesPerTexel r.textureImage.size
      upTo (loadTileRow b sl tl (texels sl (field cmd 12 0xFFF >>> 2)) bpp
          ((r.tiles (tileIndex cmd)).line.setWidth 32 * 8)
          ((r.tiles (tileIndex cmd)).tmem.setWidth 32 * 8))
        (texels tl (field cmd 0 0xFFF >>> 2)).toNat (cornered r cmd) := by
  unfold cmdLoadTile
  rw [valid]
  dsimp only
  rw [if_pos defined]
  rfl

theorem cmdLoadTile_eq (valid : r.textureImage.valid = true) (size : r.textureImage.size = 2)
    (ready : TileReady r (tileIndex cmd) line tmem) (positive : 0 < line)
    (left : bits cmd 44 12 / 4 = 0) (top : bits cmd 32 12 / 4 = 0)
    (right : bits cmd 12 12 / 4 + 1 = w) (bottom : bits cmd 0 12 / 4 + 1 = h) :
    cmdLoadTile b r cmd = loadRows b w (8 * line) (8 * tmem) h (cornered r cmd) := by
  have nonzero : (r.tiles (tileIndex cmd)).line ≠ 0 := by
    intro zero
    have value := ready.line
    rw [zero] at value
    have nothing : (0 : U16).toNat = 0 := rfl
    omega
  have rows : (BitVec.ofNat 32 h).toNat = h := by
    have below := bits_lt cmd 0 12
    rw [BitVec.toNat_ofNat]
    omega
  have eight (v : U16) : v.setWidth 32 * 8 = BitVec.ofNat 32 (8 * v.toNat) := by
    rw [widen, Nat.mul_comm, BitVec.ofNat_mul]
    rfl
  rw [cmdLoadTile_rows valid nonzero]
  dsimp only
  rw [texel_edge, texel_edge, texel_edge, texel_edge, left, top, texels_zero, texels_zero, right,
    bottom, rows, size, eight, eight, ready.line, ready.tmem]
  rfl

theorem loadRows_withTmem (pitch place : ℕ) : WithTmem r (loadRows b w pitch place h r) :=
  upTo_preserves (WithTmem r) h rfl fun _ _ _ with_ => with_.copy _ _ _

theorem WithTmem.ready {t : Rdp} {i : BitVec 3} (with_ : WithTmem r t)
    (ready : TileReady r i line tmem) : TileReady t i line tmem := by
  rw [with_]
  exact ⟨ready.defined, ready.size, ready.line, ready.tmem, ready.maskS, ready.maskT⟩

end LoadTile

section Blit

/-- The five words of a blit of the corner of a 16-bit texture, `w` texels wide
and `h` high, to the pixels from `(x0, y0)` on. -/
structure BlitWords (texture tile load hi lo : U64) (address width w h line tmem x0 y0 : ℕ) :
    Prop where
  setTexture : opcode texture = 0x3D
  textureSize : bits texture 51 2 = 2
  textureWidth : bits texture 32 10 + 1 = width
  textureAddress : bits texture 0 26 / 8 * 8 = address
  setTile : opcode tile = 0x35
  tileSize : bits tile 51 2 = 2
  tileLine : bits tile 41 9 = line
  tileTmem : bits tile 32 9 = tmem
  maskT : bits tile 14 4 = 0
  maskS : bits tile 4 4 = 0
  loadTile : opcode load = 0x34
  loadIndex : tileIndex load = tileIndex tile
  loadLeft : bits load 44 12 / 4 = 0
  loadTop : bits load 32 12 / 4 = 0
  loadRight : bits load 12 12 / 4 + 1 = w
  loadBottom : bits load 0 12 / 4 + 1 = h
  rectangle : opcode hi = TextureRectangle
  sampleIndex : tileIndex hi = tileIndex tile
  left : bits hi 12 12 = 4 * x0
  top : bits hi 0 12 = 4 * y0
  right : bits hi 44 12 = 4 * (x0 + w)
  bottom : bits hi 32 12 = 4 * (y0 + h)
  startS : bits lo 48 16 = 0
  startT : bits lo 32 16 = 0
  stepS : bits lo 16 16 = 1024
  stepT : bits lo 0 16 = 1024

variable {s : Sys} {texture tile load hi lo : U64} {address width w h line tmem x0 y0 : ℕ}

/-- What the commands before the rectangle keep. -/
structure Prepared (s t : Sys) : Prop where
  bus : t.bus = s.bus
  colorImage : t.rdp.colorImage = s.rdp.colorImage
  scissor : t.rdp.scissor = s.rdp.scissor

theorem Prepared.trans {s t u : Sys} (first : Prepared s t) (second : Prepared t u) :
    Prepared s u :=
  ⟨second.bus.trans first.bus, second.colorImage.trans first.colorImage,
    second.scissor.trans first.scissor⟩

theorem Prepared.target {t : Sys} (prepared : Prepared s t) (target : ColorTarget s.rdp) :
    ColorTarget t.rdp := by
  have image := prepared.colorImage
  exact ⟨by rw [image]; exact target.decoded, by rw [image]; exact target.depth⟩

theorem Prepared.drawn_iff {t : Sys} (prepared : Prepared s t) (x y : ℕ) :
    Drawn t x y ↔ Drawn s x y := by
  unfold Drawn InClip
  rw [prepared.bus, prepared.colorImage, prepared.scissor]

theorem decodeImage_size (cmd : U64) : (decodeImage cmd).size.toNat = bits cmd 51 2 :=
  field_setWidth cmd 51 (n := 2) (by decide) (by decide)

theorem executeCommand_texture {cmd : U64} (opens : opcode cmd = 0x3D) :
    Prepared s (executeCommand s cmd) ∧
      (executeCommand s cmd).rdp.textureImage = decodeImage cmd := by
  have run : executeCommand s cmd =
      { countCommand s with rdp := cmdSetTextureImage (countCommand s).rdp cmd } := by
    unfold executeCommand
    rw [opens]
    rfl
  rw [run]
  exact ⟨⟨rfl, rfl, rfl⟩, rfl⟩

theorem executeCommand_tile {cmd : U64} (opens : opcode cmd = 0x35) (size : bits cmd 51 2 = 2)
    (maskT : bits cmd 14 4 = 0) (maskS : bits cmd 4 4 = 0) :
    Prepared s (executeCommand s cmd) ∧
      (executeCommand s cmd).rdp.textureImage = s.rdp.textureImage ∧
      TileReady (executeCommand s cmd).rdp (tileIndex cmd) (bits cmd 41 9) (bits cmd 32 9) := by
  have run : executeCommand s cmd =
      { countCommand s with rdp := cmdSetTile (countCommand s).rdp cmd } := by
    unfold executeCommand
    rw [opens]
    rfl
  rw [run]
  exact ⟨⟨rfl, rfl, rfl⟩, rfl, tileReady_setTile cmd size maskT maskS⟩

theorem executeCommand_load {cmd texture : U64} (opens : opcode cmd = 0x34)
    (image : s.rdp.textureImage = decodeImage texture) (size : bits texture 51 2 = 2)
    (ready : TileReady s.rdp (tileIndex cmd) line tmem) (positive : 0 < line)
    (left : bits cmd 44 12 / 4 = 0) (top : bits cmd 32 12 / 4 = 0)
    (right : bits cmd 12 12 / 4 + 1 = w) (bottom : bits cmd 0 12 / 4 + 1 = h)
    (nonzero : s.bus.rdramSize ≠ 0) (wide : 2 * w ≤ 8 * line)
    (fits : 8 * tmem + (h - 1) * (8 * line) + 2 * w ≤ 4096) :
    Prepared s (executeCommand s cmd) ∧
      TileReady (executeCommand s cmd).rdp (tileIndex cmd) line tmem ∧
      ∀ j < h, ∀ i < 2 * w, (executeCommand s cmd).rdp.tmem (8 * tmem + j * (8 * line) + i) =
        s.bus.rdram ((bits texture 0 26 / 8 * 8 + j * (bits texture 32 10 + 1) * 2 + i) %
          s.bus.rdramSize) := by
  have counted : TileReady (countCommand s).rdp (tileIndex cmd) line tmem :=
    ⟨ready.defined, ready.size, ready.line, ready.tmem, ready.maskS, ready.maskT⟩
  have valid : (countCommand s).rdp.textureImage.valid = true := by
    show s.rdp.textureImage.valid = true
    rw [image, decodeImage_valid]
  have texture16 : (countCommand s).rdp.textureImage.size = 2 := by
    show s.rdp.textureImage.size = 2
    rw [image]
    exact BitVec.eq_of_toNat_eq ((decodeImage_size texture).trans size)
  have address : (cornered (countCommand s).rdp cmd).textureImage.address =
      BitVec.ofNat 32 (bits texture 0 26 / 8 * 8) := by
    show s.rdp.textureImage.address = _
    rw [image, ← decodeImage_address, BitVec.ofNat_toNat, BitVec.setWidth_eq]
  have width : (cornered (countCommand s).rdp cmd).textureImage.width =
      BitVec.ofNat 32 (bits texture 32 10 + 1) := by
    show s.rdp.textureImage.width = _
    rw [image, ← decodeImage_width, BitVec.ofNat_toNat, BitVec.setWidth_eq]
  have run : executeCommand s cmd = { countCommand s with
      rdp := loadRows s.bus w (8 * line) (8 * tmem) h (cornered (countCommand s).rdp cmd) } := by
    unfold executeCommand
    rw [opens, ← cmdLoadTile_eq valid texture16 counted positive left top right bottom]
    rfl
  have rows : WithTmem (cornered (countCommand s).rdp cmd)
      (loadRows s.bus w (8 * line) (8 * tmem) h (cornered (countCommand s).rdp cmd)) :=
    loadRows_withTmem _ _
  have low : bits texture 0 26 / 8 * 8 + h * (bits texture 32 10 + 1) * 2 + w * 2 < 2 ^ 32 := by
    have address := bits_lt texture 0 26
    have width := bits_lt texture 32 10
    have edge := bits_lt cmd 0 12
    have product : h * (bits texture 32 10 + 1) ≤ 1024 * 1024 :=
      Nat.mul_le_mul (by omega) (by omega)
    omega
  rw [run]
  refine ⟨⟨rfl, ?_, ?_⟩, rows.ready (cornered_ready counted), ?_⟩
  · exact rows.image
  · exact rows.clip
  · intro j row i inside
    exact loadRows_at nonzero address width low wide fits row inside

theorem BlitWords.rect
    (words : BlitWords texture tile load hi lo address width w h line tmem x0 y0) :
    rectOf hi = { x0 := x0, y0 := y0, x1 := x0 + w, y1 := y0 + h } := by
  unfold rectOf
  rw [words.left, words.top, words.right, words.bottom]
  simp only [Rect.mk.injEq]
  omega

theorem byte16_join16 (a b : U8) : byte16 (join16 a b) 0 = a ∧ byte16 (join16 a b) 1 = b := by
  obtain ⟨high, low⟩ := byte16_toNat (join16 a b)
  have first := a.isLt
  have second := b.isLt
  have whole : (join16 a b).toNat = a.toNat * 2 ^ 8 + b.toNat := by
    rw [join16_eq_append, LowMasks.toNat_append]
  constructor
  · apply BitVec.eq_of_toNat_eq
    rw [high, whole]
    omega
  · apply BitVec.eq_of_toNat_eq
    rw [low, whole]
    omega

theorem blit_value {t : Sys} {i j : ℕ}
    (words : BlitWords texture tile load hi lo address width w h line tmem x0 y0)
    (depth : t.rdp.colorImage.size = 2) (ready : TileReady t.rdp (tileIndex hi) line tmem)
    (positive : 0 < line) (fits : 8 * tmem + j * (8 * line) + 2 * i + 2 ≤ 4096)
    (drawn : Drawn t (x0 + i) (y0 + j)) :
    let off := 8 * tmem + j * (8 * line) + 2 * i
    texValue hi lo false t (x0 + i) (y0 + j) =
      some (byte16 (join16 (t.rdp.tmem off) (t.rdp.tmem (off + 1)))) := by
  intro off
  have startS : field16s lo 48 = 32 * 0 := by rw [field16s_eq, words.startS]; rfl
  have startT : field16s lo 32 = 32 * 0 := by rw [field16s_eq, words.startT]; rfl
  have stepS : field16s lo 16 = 1024 * 1 := by rw [field16s_eq, words.stepS]; rfl
  have stepT : field16s lo 0 = 1024 * 1 := by rw [field16s_eq, words.stepT]; rfl
  have sample : texSample t.rdp hi lo false i j =
      some { out16 := join16 (t.rdp.tmem off) (t.rdp.tmem (off + 1)) } := by
    rw [texSample_whole t.rdp hi lo startS startT stepS stepT, Int.zero_add, Int.zero_add,
      Int.mul_one, Int.mul_one]
    exact sampleTile_ready ready positive fits
  unfold texValue
  rw [words.rect]
  dsimp only
  rw [Nat.add_sub_cancel_left, Nat.add_sub_cancel_left, sample, Option.bind_some,
    drawnValue_some _ _ _ drawn]
  unfold drawnByte
  rw [if_pos depth, if_neg Bool.false_ne_true]

/-- The state in which the rectangle of a blit starts. -/
structure BlitReady (s t : Sys) (i : BitVec 3) (address width w h line tmem : ℕ) : Prop where
  prepared : Prepared s t
  tile : TileReady t.rdp i line tmem
  texels : ∀ j < h, ∀ i < 2 * w, t.rdp.tmem (8 * tmem + j * (8 * line) + i) =
    s.bus.rdram ((address + j * width * 2 + i) % s.bus.rdramSize)

theorem blit_ready (words : BlitWords texture tile load hi lo address width w h line tmem x0 y0)
    (nonzero : s.bus.rdramSize ≠ 0) (positive : 0 < line) (wide : 2 * w ≤ 8 * line)
    (fits : 8 * tmem + (h - 1) * (8 * line) + 2 * w ≤ 4096) :
    BlitReady s (executeCommand (executeCommand (executeCommand s texture) tile) load)
      (tileIndex hi) address width w h line tmem := by
  obtain ⟨first, image⟩ := executeCommand_texture (s := s) words.setTexture
  obtain ⟨second, kept, ready⟩ := executeCommand_tile (s := executeCommand s texture) words.setTile
    words.tileSize words.maskT words.maskS
  rw [words.tileLine, words.tileTmem, ← words.loadIndex] at ready
  have same := first.trans second
  obtain ⟨third, loaded, texels⟩ := executeCommand_load words.loadTile (kept.trans image)
    words.textureSize ready positive words.loadLeft words.loadTop words.loadRight words.loadBottom
    (by rw [same.bus]; exact nonzero) wide fits
  rw [words.loadIndex, ← words.sampleIndex] at loaded
  rw [words.textureAddress, words.textureWidth, same.bus] at texels
  exact ⟨same.trans third, loaded, texels⟩

theorem BlitReady.value {t : Sys} {i j : ℕ}
    (words : BlitWords texture tile load hi lo address width w h line tmem x0 y0)
    (ready : BlitReady s t (tileIndex hi) address width w h line tmem)
    (depth : s.rdp.colorImage.size = 2) (positive : 0 < line)
    (fits : 8 * tmem + (h - 1) * (8 * line) + 2 * w ≤ 4096) (column : i < w) (row : j < h)
    (drawn : Drawn s (x0 + i) (y0 + j)) :
    ∃ v, texValue hi lo false (countCommand t) (x0 + i) (y0 + j) = some v ∧ ∀ b < 2,
      v b = s.bus.rdram ((address + (j * width + i) * 2 + b) % s.bus.rdramSize) := by
  have tile : TileReady (countCommand t).rdp (tileIndex hi) line tmem :=
    ⟨ready.tile.defined, ready.tile.size, ready.tile.line, ready.tile.tmem, ready.tile.maskS,
      ready.tile.maskT⟩
  have image : (countCommand t).rdp.colorImage.size = 2 := by
    show t.rdp.colorImage.size = 2
    rw [ready.prepared.colorImage, depth]
  have below : j * (8 * line) ≤ (h - 1) * (8 * line) := Nat.mul_le_mul_right _ (by omega)
  have texel (b : ℕ) (lt : b < 2) :
      (countCommand t).rdp.tmem (8 * tmem + j * (8 * line) + 2 * i + b) =
      s.bus.rdram ((address + (j * width + i) * 2 + b) % s.bus.rdramSize) := by
    have place : address + (j * width + i) * 2 + b = address + j * width * 2 + (2 * i + b) := by
      rw [Nat.add_mul]
      omega
    rw [place, Nat.add_assoc _ (2 * i)]
    exact ready.texels j row (2 * i + b) (by omega)
  obtain ⟨high, low⟩ := byte16_join16
    ((countCommand t).rdp.tmem (8 * tmem + j * (8 * line) + 2 * i))
    ((countCommand t).rdp.tmem (8 * tmem + j * (8 * line) + 2 * i + 1))
  refine ⟨_, blit_value words image tile positive (by omega)
    ((ready.prepared.drawn_iff _ _).mpr drawn), ?_⟩
  intro b lt
  rw [← texel b lt]
  obtain rfl | rfl : b = 0 ∨ b = 1 := by omega
  · exact high
  · exact low

/-- Texture to TMEM to color image. -/
theorem textured_blit (s : Sys) (texture tile load hi lo : U64)
    (address width w h line tmem x0 y0 : ℕ)
    (words : BlitWords texture tile load hi lo address width w h line tmem x0 y0)
    (target : ColorTarget s.rdp) (depth : s.rdp.colorImage.size = 2)
    (positive : 1 ≤ line) (wide : 2 * w ≤ 8 * line)
    (fits : 8 * tmem + (h - 1) * (8 * line) + 2 * w ≤ 4096)
    (inside : ∀ i < w, ∀ j < h, Drawn s (x0 + i) (y0 + j)) :
    let r := executeCommandPair
      (executeCommand (executeCommand (executeCommand s texture) tile) load) hi lo
    (∀ i < w, ∀ j < h, ∀ b < 2,
      r.bus.rdram (pixelOffset s.rdp.colorImage (x0 + i) (y0 + j) + b) =
        s.bus.rdram ((address + (j * width + i) * 2 + b) % s.bus.rdramSize)) ∧
    ∀ k, (∀ i < w, ∀ j < h, ∀ b < 2,
        pixelOffset s.rdp.colorImage (x0 + i) (y0 + j) + b ≠ k) →
      r.bus.rdram k = s.bus.rdram k := by
  intro r
  have bytes : pixelBytes s.rdp.colorImage = 2 := if_pos depth
  have nonzero : s.bus.rdramSize ≠ 0 := by
    have columns := words.loadRight
    have rows := words.loadBottom
    have room := (inside 0 (by omega) 0 (by omega)).2
    omega
  have ready := blit_ready words nonzero positive wide fits
  generalize start : executeCommand (executeCommand (executeCommand s texture) tile) load = t
    at ready
  have onto := ready.prepared.target target
  have run : r = forPixels (rectOf hi).corners (texPixel hi lo false) (countCommand t) := by
    have unflipped : flips hi = false := by
      unfold flips
      rw [words.rectangle]
      rfl
    rw [← unflipped, ← executeCommandPair_texture lo (Or.inl words.rectangle) onto.valid,
      ← start]
  have draws : Draws s.rdp.colorImage (Texturing (countCommand t)) (rectOf hi)
      (texPixel hi lo false) (texValue hi lo false (countCommand t)) := by
    rw [← ready.prepared.colorImage]
    exact tex_draws (s := countCommand t) ⟨onto.decoded, onto.depth⟩ hi lo false
  have base : Texturing (countCommand t) (countCommand t) := ⟨rfl, rfl⟩
  constructor
  · intro i column j row b lt
    obtain ⟨v, here, texel⟩ := ready.value words depth positive fits column row
      (inside i column j row)
    have within : (rectOf hi).Inside (x0 + i) (y0 + j) := by
      rw [words.rect]
      show x0 ≤ x0 + i ∧ x0 + i < x0 + w ∧ y0 ≤ y0 + j ∧ y0 + j < y0 + h
      omega
    rw [run, draws.written base within here (by rw [bytes]; exact lt), texel b lt]
  · intro k apart
    rw [run, draws.others base, ← ready.prepared.bus]
    · rfl
    · rw [words.rect, bytes]
      intro x y v within here b lt
      obtain ⟨left, right, top, bottom⟩ : x0 ≤ x ∧ x < x0 + w ∧ y0 ≤ y ∧ y < y0 + h := within
      have other := apart (x - x0) (by omega) (y - y0) (by omega) b lt
      rwa [Nat.add_sub_cancel' left, Nat.add_sub_cancel' top] at other

/-- A 16-bit image of four pixels a line, over memory that counts up. -/
def countingImage : Sys :=
  { bus.rdram := fun k => BitVec.ofNat 8 k, rdp.colorImage := decodeImage 0x3F10000300100000 }

theorem textured_blit_counting :
    (executeCommandPair (executeCommand (executeCommand (executeCommand countingImage
      0x3D10000100200000) 0x3510020000000000) 0x3400000000004004) 0x2400C00C00004004
      0x0000000004000400).bus.rdram (pixelOffset countingImage.rdp.colorImage 1 1 + 1) = 1 :=
  (textured_blit countingImage 0x3D10000100200000 0x3510020000000000 0x3400000000004004
    0x2400C00C00004004 0x0000000004000400 0x200000 2 2 2 1 0 1 1 (by constructor <;> decide)
    ⟨⟨0x3F10000300100000, rfl⟩, by decide⟩ (by decide) (by decide) (by decide) (by decide)
    (by decide)).1 0 (by decide) 0 (by decide) 1 (by decide)

end Blit

end N64.Rdp
