import N64Emu.PackedWords
import N64Emu.TextureBlit

/-!
# Words of RDP commands

The encoders of command words and the bits of what they encode. Pixels are
encoded with two bits of fraction, texels with five and slopes with ten.
-/

set_option autoImplicit false

namespace N64.RdpCmd

open Words PackedWords Rdp

section Encoders

def pack (op : U32) (payload : U64) : U64 :=
  ((op &&& 0x3F).setWidth 64 <<< 56) ||| (payload &&& 0x00FFFFFFFFFFFFFF)

def px (v : ℤ) : U32 := BitVec.ofInt 32 v <<< 2

def tex (v : ℤ) : U16 := (BitVec.ofInt 32 v <<< 5).setWidth 16

def slope (texelsPerPixel : ℤ) : U16 := (BitVec.ofInt 32 texelsPerPixel <<< 10).setWidth 16

def edge (v : ℤ) : U64 := (px v &&& 0xFFF).setWidth 64

/-- The layout `set_color_image` and `set_texture_image` share. -/
def imagePayload (dramAddr widthPx : U32) (size format : U8) : U64 :=
  let w : U64 := (if widthPx > 0 then widthPx - 1 else 0).setWidth 64
  ((format &&& 7).setWidth 64 <<< 53) ||| ((size &&& 3).setWidth 64 <<< 51) |||
    ((w &&& 0x3FF) <<< 32) ||| (dramAddr.setWidth 64 &&& 0x03FFFFFF)

/-- The layout `set_scissor` and `fill_rectangle` share. -/
def edgesPayload (a b c d : ℤ) : U64 :=
  (edge a <<< 44) ||| (edge b <<< 32) ||| (edge c <<< 12) ||| edge d

/-- The layout of the commands with four pixels and a tile. -/
def tilePayload (tile : U8) (a b c d : ℤ) : U64 :=
  (edge a <<< 44) ||| (edge b <<< 32) ||| ((tile.setWidth 64 &&& 7) <<< 24) |||
    (edge c <<< 12) ||| edge d

def setColorImage (dramAddr widthPx : U32) (size format : U8) : U64 :=
  pack 0x3F (imagePayload dramAddr widthPx size format)

def setTextureImage (dramAddr widthPx : U32) (size format : U8) : U64 :=
  pack 0x3D (imagePayload dramAddr widthPx size format)

def setScissor (xh yh xl yl : ℤ) : U64 := pack 0x2D (edgesPayload xh yh xl yl)

def fillRectangle (xh yh xl yl : ℤ) : U64 := pack 0x36 (edgesPayload xl yl xh yh)

def setTile (tile size : U8) (lineWords tmemWord : U16) (format : U8) : U64 :=
  pack 0x35
    (((format &&& 7).setWidth 64 <<< 53) ||| ((size &&& 3).setWidth 64 <<< 51) |||
      ((lineWords.setWidth 64 &&& 0x1FF) <<< 41) ||| ((tmemWord.setWidth 64 &&& 0x1FF) <<< 32) |||
      ((tile.setWidth 64 &&& 7) <<< 24))

def setTileSize (tile : U8) (sl tl sh th : ℤ) : U64 := pack 0x32 (tilePayload tile sl tl sh th)

def loadTile (tile : U8) (sl tl sh th : ℤ) : U64 := pack 0x34 (tilePayload tile sl tl sh th)

/-- The two words of a textured rectangle. -/
def textureRectangle (xh yh xl yl : ℤ) (tile : U8) (s0 t0 dsdx dtdy : ℤ) : U64 × U64 :=
  (pack 0x24 (tilePayload tile xl yl xh yh),
    ((tex s0).setWidth 64 <<< 48) ||| ((tex t0).setWidth 64 <<< 32) |||
      ((slope dsdx).setWidth 64 <<< 16) ||| (slope dtdy).setWidth 64)

end Encoders

section Pack

theorem low_lt {w n : ℕ} (x : BitVec w) (fits : n ≤ w) :
    (x &&& LowMasks.low w n).toNat < 2 ^ n := by
  rw [LowMasks.toNat_and_low x fits]
  exact Nat.mod_lt _ (Nat.two_pow_pos n)

/-- The opcode of a word, below the two highest bits. -/
def opPart (op : U32) : Piece 64 := { shift := 56, width := 6, value := (op &&& 0x3F).setWidth 64 }

theorem opPart_value (op : U32) : (opPart op).value.toNat = op.toNat % 2 ^ 6 := by
  have low : (op &&& 0x3F).toNat = op.toNat % 2 ^ 6 :=
    LowMasks.toNat_and_low (n := 6) op (by decide)
  show ((op &&& 0x3F).setWidth 64).toNat = _
  rw [BitVec.toNat_setWidth, low]
  omega

theorem opPart_fits (op : U32) : (opPart op).Fits := by
  constructor
  · rw [opPart_value]
    exact Nat.mod_lt _ (Nat.two_pow_pos 6)
  · show 56 + 6 ≤ 64
    decide

theorem payloadMask_eq : (0x00FFFFFFFFFFFFFF : U64) = LowMasks.low 64 56 := by decide

theorem bits_pack (op : U32) (payload : U64) {k n : ℕ} (inside : k + n ≤ 56) :
    bits (pack op payload) k n = extract payload k n := by
  have above : extract (opPart op).placed k n = 0 := extract_apart (opPart_fits op) (Or.inr inside)
  have below : extract (payload &&& 0x00FFFFFFFFFFFFFF) k n = extract payload k n := by
    rw [payloadMask_eq]
    exact extract_low payload inside (by decide)
  show extract ((opPart op).placed ||| (payload &&& 0x00FFFFFFFFFFFFFF)) k n = _
  rw [extract_or, above, below, Nat.zero_or]

theorem opcode_pack (op : U32) (payload : U64) : opcode (pack op payload) = op.toNat % 2 ^ 6 := by
  have value : (field (pack op payload) 56 0x3F).toNat = bits (pack op payload) 56 6 :=
    field_toNat _ 56 (n := 6) (by decide)
  have below : (payload &&& 0x00FFFFFFFFFFFFFF).toNat < 2 ^ 56 :=
    low_lt (n := 56) payload (by decide)
  have nothing : extract (payload &&& 0x00FFFFFFFFFFFFFF) 56 6 = 0 := by
    unfold extract
    rw [Nat.div_eq_of_lt below, Nat.zero_mod]
  have nonzero : extract (opPart op).placed 56 6 = op.toNat % 2 ^ 6 :=
    (extract_same (opPart_fits op)).trans (opPart_value op)
  unfold opcode
  rw [value]
  show extract ((opPart op).placed ||| (payload &&& 0x00FFFFFFFFFFFFFF)) 56 6 = _
  rw [extract_or, nonzero, nothing, Nat.or_zero]

end Pack

section Values

theorem widened {n : ℕ} (x : BitVec n) (fits : n ≤ 64) : (x.setWidth 64).toNat = x.toNat := by
  have below := x.isLt
  have bound := Nat.pow_le_pow_right (show 0 < 2 by decide) fits
  rw [BitVec.toNat_setWidth]
  exact Nat.mod_eq_of_lt (by omega)

theorem masked {w n : ℕ} {x : BitVec w} (fits : n ≤ w) (small : x.toNat < 2 ^ n) :
    (x &&& LowMasks.low w n).toNat = x.toNat := by
  rw [LowMasks.toNat_and_low x fits, Nat.mod_eq_of_lt small]

theorem edge_lt (v : ℤ) : (edge v).toNat < 2 ^ 12 := by
  unfold edge
  rw [widened _ (by decide)]
  exact low_lt (n := 12) (px v) (by decide)

theorem edge_toNat {x : ℕ} (inside : x < 1024) : (edge x).toNat = 4 * x := by
  have scaled : (px x).toNat = 4 * x := by
    unfold px
    rw [BitVec.ofInt_natCast, BitVec.toNat_shiftLeft, BitVec.toNat_ofNat, Nat.shiftLeft_eq]
    omega
  unfold edge
  rw [widened _ (by decide)]
  exact (masked (n := 12) (by decide) (by rw [scaled]; omega)).trans scaled

theorem narrowed (v : ℤ) : (BitVec.ofInt 32 v).setWidth 16 = BitVec.ofInt 16 v := by
  apply BitVec.eq_of_toNat_eq
  rw [BitVec.toNat_setWidth, BitVec.toNat_ofInt, BitVec.toNat_ofInt]
  omega

theorem scaled_toInt {v : ℤ} {k : ℕ} (low : -2 ^ 15 ≤ v * (2 ^ k : ℕ))
    (high : v * (2 ^ k : ℕ) < 2 ^ 15) :
    ((BitVec.ofInt 32 v <<< k).setWidth 16).toInt = v * (2 ^ k : ℕ) := by
  have power : BitVec.twoPow 16 k = BitVec.ofInt 16 (2 ^ k : ℕ) := by
    apply BitVec.eq_of_toNat_eq
    rw [BitVec.toNat_twoPow, BitVec.ofInt_natCast, BitVec.toNat_ofNat]
  rw [BitVec.setWidth_shiftLeft_of_le (by decide), BitVec.shiftLeft_eq_mul_twoPow, narrowed, power,
    ← BitVec.ofInt_mul]
  exact BitVec.toInt_ofInt_eq_self (by decide) low high

theorem tex_toInt {v : ℤ} (low : -1024 ≤ v) (high : v ≤ 1023) : (tex v).toInt = 32 * v := by
  have scaled : (tex v).toInt = v * (2 ^ 5 : ℕ) := scaled_toInt (by omega) (by omega)
  omega

theorem slope_toInt {v : ℤ} (low : -32 ≤ v) (high : v ≤ 31) : (slope v).toInt = 1024 * v := by
  have scaled : (slope v).toInt = v * (2 ^ 10 : ℕ) := scaled_toInt (by omega) (by omega)
  omega

end Values

section Layouts

theorem bits_part (op : U32) {payload : U64} {ps : List (Piece 64)} (layout : Layout ps)
    (parts : payload = packed ps) {p : Piece 64} (member : p ∈ ps)
    (inside : p.shift + p.width ≤ 56) :
    bits (pack op payload) p.shift p.width = p.value.toNat := by
  rw [bits_pack op payload inside, parts, extract_packed layout member]

def imageParts (dramAddr widthPx : U32) (size format : U8) : List (Piece 64) :=
  let w : U64 := (if widthPx > 0 then widthPx - 1 else 0).setWidth 64
  [⟨53, 3, (format &&& 7).setWidth 64⟩, ⟨51, 2, (size &&& 3).setWidth 64⟩, ⟨32, 10, w &&& 0x3FF⟩,
    ⟨0, 26, dramAddr.setWidth 64 &&& 0x03FFFFFF⟩]

def setTileParts (tile size : U8) (line tmem : U16) (format : U8) : List (Piece 64) :=
  [⟨53, 3, (format &&& 7).setWidth 64⟩, ⟨51, 2, (size &&& 3).setWidth 64⟩,
    ⟨41, 9, line.setWidth 64 &&& 0x1FF⟩, ⟨32, 9, tmem.setWidth 64 &&& 0x1FF⟩,
    ⟨24, 3, tile.setWidth 64 &&& 7⟩]

def texelParts (s0 t0 dsdx dtdy : ℤ) : List (Piece 64) :=
  [⟨48, 16, (tex s0).setWidth 64⟩, ⟨32, 16, (tex t0).setWidth 64⟩,
    ⟨16, 16, (slope dsdx).setWidth 64⟩, ⟨0, 16, (slope dtdy).setWidth 64⟩]

def tileParts (tile : U8) (a b c d : ℤ) : List (Piece 64) :=
  [⟨44, 12, edge a⟩, ⟨32, 12, edge b⟩, ⟨24, 3, tile.setWidth 64 &&& 7⟩, ⟨12, 12, edge c⟩,
    ⟨0, 12, edge d⟩]

theorem imagePayload_eq (dramAddr widthPx : U32) (size format : U8) :
    imagePayload dramAddr widthPx size format =
      packed (imageParts dramAddr widthPx size format) := by
  simp only [imagePayload, imageParts, packed, Piece.placed, BitVec.or_assoc, BitVec.or_zero,
    BitVec.shiftLeft_zero]

theorem tilePayload_eq (tile : U8) (a b c d : ℤ) :
    tilePayload tile a b c d = packed (tileParts tile a b c d) := by
  simp only [tilePayload, tileParts, packed, Piece.placed, BitVec.or_assoc, BitVec.or_zero,
    BitVec.shiftLeft_zero]

theorem image_layout (dramAddr widthPx : U32) (size format : U8) :
    Layout (imageParts dramAddr widthPx size format) where
  fits := by
    have three : (format &&& 7).toNat < 2 ^ 3 := low_lt (n := 3) format (by decide)
    have two : (size &&& 3).toNat < 2 ^ 2 := low_lt (n := 2) size (by decide)
    simp only [imageParts, List.forall_mem_cons, Piece.Fits, widened _ (show 8 ≤ 64 by decide)]
    exact ⟨⟨three, by decide⟩, ⟨two, by decide⟩, ⟨low_lt (n := 10) _ (by decide), by decide⟩,
      ⟨low_lt (n := 26) _ (by decide), by decide⟩, fun _ nothing => absurd nothing List.not_mem_nil⟩
  apart := by simp [imageParts, Piece.Apart]

theorem tile_layout (tile : U8) (a b c d : ℤ) : Layout (tileParts tile a b c d) where
  fits := by
    simp only [tileParts, List.forall_mem_cons, Piece.Fits]
    exact ⟨⟨edge_lt a, by decide⟩, ⟨edge_lt b, by decide⟩,
      ⟨low_lt (n := 3) _ (by decide), by decide⟩, ⟨edge_lt c, by decide⟩, ⟨edge_lt d, by decide⟩,
      fun _ nothing => absurd nothing List.not_mem_nil⟩
  apart := by simp [tileParts, Piece.Apart]

theorem setTile_layout (tile size : U8) (line tmem : U16) (format : U8) :
    Layout (setTileParts tile size line tmem format) where
  fits := by
    have three : (format &&& 7).toNat < 2 ^ 3 := low_lt (n := 3) format (by decide)
    have two : (size &&& 3).toNat < 2 ^ 2 := low_lt (n := 2) size (by decide)
    simp only [setTileParts, List.forall_mem_cons, Piece.Fits, widened _ (show 8 ≤ 64 by decide)]
    exact ⟨⟨three, by decide⟩, ⟨two, by decide⟩, ⟨low_lt (n := 9) _ (by decide), by decide⟩,
      ⟨low_lt (n := 9) _ (by decide), by decide⟩, ⟨low_lt (n := 3) _ (by decide), by decide⟩,
      fun _ nothing => absurd nothing List.not_mem_nil⟩
  apart := by simp [setTileParts, Piece.Apart]

theorem texel_layout (s0 t0 dsdx dtdy : ℤ) : Layout (texelParts s0 t0 dsdx dtdy) where
  fits := by
    simp only [texelParts, List.forall_mem_cons, Piece.Fits, widened _ (show 16 ≤ 64 by decide)]
    exact ⟨⟨(tex s0).isLt, by decide⟩, ⟨(tex t0).isLt, by decide⟩, ⟨(slope dsdx).isLt, by decide⟩,
      ⟨(slope dtdy).isLt, by decide⟩, fun _ nothing => absurd nothing List.not_mem_nil⟩
  apart := by simp [texelParts, Piece.Apart]

end Layouts

section Reading

/-- An image in its range. -/
structure ImageArgs (addr width : U32) (size format : U8) : Prop where
  aligned : addr.toNat % 8 = 0
  low : addr.toNat < 2 ^ 26
  positive : 1 ≤ width.toNat
  narrow : width.toNat ≤ 1024
  size : size.toNat ≤ 3
  format : format.toNat ≤ 7

/-- Pixels of a command, in their range. -/
structure Pixels (a b c d : ℕ) : Prop where
  first : a ≤ 1023
  second : b ≤ 1023
  third : c ≤ 1023
  fourth : d ≤ 1023

/-- What the decoder reads in a word with four pixels and a tile. -/
structure Edges (cmd : U64) (tile : BitVec 3) (a b c d : ℕ) : Prop where
  first : bits cmd 44 12 = 4 * a
  second : bits cmd 32 12 = 4 * b
  third : bits cmd 12 12 = 4 * c
  fourth : bits cmd 0 12 = 4 * d
  index : tileIndex cmd = tile

theorem edgesPayload_eq (a b c d : ℤ) : edgesPayload a b c d = tilePayload 0 a b c d := by
  unfold edgesPayload tilePayload
  rw [show ((0 : U8).setWidth 64 &&& 7) <<< 24 = 0#64 from rfl, BitVec.or_zero]

theorem bits_gap (op : U32) {ps : List (Piece 64)} (layout : Layout ps) {k n : ℕ}
    (inside : k + n ≤ 56) (apart : ∀ p ∈ ps, p.shift + p.width ≤ k ∨ k + n ≤ p.shift) :
    bits (pack op (packed ps)) k n = 0 := by
  rw [bits_pack op _ inside, extract_gap layout.fits apart]

theorem tile_toNat (tile : BitVec 3) :
    ((tile.setWidth 8).setWidth 64 &&& 7).toNat = tile.toNat := by
  have small := tile.isLt
  have eight : (tile.setWidth 8).toNat = tile.toNat := by
    rw [BitVec.toNat_setWidth]
    omega
  have whole : ((tile.setWidth 8).setWidth 64).toNat = tile.toNat :=
    (widened _ (by decide)).trans eight
  exact (masked (n := 3) (by decide) (by rw [whole]; exact small)).trans whole

theorem pack_edges (op : U32) (tile : BitVec 3) {a b c d : ℕ} (pixels : Pixels a b c d) :
    Edges (pack op (tilePayload (tile.setWidth 8) a b c d)) tile a b c d := by
  obtain ⟨ha, hb, hc, hd⟩ := pixels
  have read {p : Piece 64} (member : p ∈ tileParts (tile.setWidth 8) a b c d)
      (inside : p.shift + p.width ≤ 56) :
      bits (pack op (tilePayload (tile.setWidth 8) a b c d)) p.shift p.width = p.value.toNat :=
    bits_part op (tile_layout _ _ _ _ _) (tilePayload_eq _ _ _ _ _) member inside
  have first := read (p := ⟨44, 12, edge a⟩) (by simp [tileParts]) (show 44 + 12 ≤ 56 by decide)
  have second := read (p := ⟨32, 12, edge b⟩) (by simp [tileParts]) (show 32 + 12 ≤ 56 by decide)
  have third := read (p := ⟨12, 12, edge c⟩) (by simp [tileParts]) (show 12 + 12 ≤ 56 by decide)
  have fourth := read (p := ⟨0, 12, edge d⟩) (by simp [tileParts]) (show 0 + 12 ≤ 56 by decide)
  have index := read (p := ⟨24, 3, (tile.setWidth 8).setWidth 64 &&& 7⟩) (by simp [tileParts])
    (show 24 + 3 ≤ 56 by decide)
  constructor
  · exact first.trans (edge_toNat (by omega))
  · exact second.trans (edge_toNat (by omega))
  · exact third.trans (edge_toNat (by omega))
  · exact fourth.trans (edge_toNat (by omega))
  · apply BitVec.eq_of_toNat_eq
    exact (field_setWidth _ 24 (n := 3) (by decide) (by decide)).trans
      (index.trans (tile_toNat tile))

theorem pack_image (op : U32) {addr width : U32} {size format : U8}
    (args : ImageArgs addr width size format) :
    let cmd := pack op (imagePayload addr width size format)
    bits cmd 53 3 = format.toNat ∧ bits cmd 51 2 = size.toNat ∧
      bits cmd 32 10 = width.toNat - 1 ∧ bits cmd 0 26 = addr.toNat := by
  intro cmd
  obtain ⟨-, low, positive, narrow, small, known⟩ := args
  have read {p : Piece 64} (member : p ∈ imageParts addr width size format)
      (inside : p.shift + p.width ≤ 56) : bits cmd p.shift p.width = p.value.toNat :=
    bits_part op (image_layout _ _ _ _) (imagePayload_eq _ _ _ _) member inside
  have nonzero : width > 0 := BitVec.lt_def.mpr positive
  have less : ((width - 1).setWidth 64).toNat = width.toNat - 1 := by
    have one : (1 : U32).toNat = 1 := rfl
    have below : (1 : U32) ≤ width := BitVec.le_def.mpr (by rw [one]; exact positive)
    rw [widened _ (by decide), BitVec.toNat_sub_of_le below, one]
  have wide : (addr.setWidth 64).toNat = addr.toNat := widened _ (by decide)
  have first := read (p := ⟨53, 3, (format &&& 7).setWidth 64⟩) (by simp [imageParts])
    (show 53 + 3 ≤ 56 by decide)
  have second := read (p := ⟨51, 2, (size &&& 3).setWidth 64⟩) (by simp [imageParts])
    (show 51 + 2 ≤ 56 by decide)
  have third := read
    (p := ⟨32, 10, (if width > 0 then width - 1 else 0).setWidth 64 &&& 0x3FF⟩)
    (by simp [imageParts]) (show 32 + 10 ≤ 56 by decide)
  have fourth := read (p := ⟨0, 26, addr.setWidth 64 &&& 0x03FFFFFF⟩) (by simp [imageParts])
    (show 0 + 26 ≤ 56 by decide)
  rw [widened _ (by decide)] at first second
  rw [if_pos nonzero] at third
  constructor
  · exact first.trans (masked (n := 3) (by decide) (by omega))
  constructor
  · exact second.trans (masked (n := 2) (by decide) (by omega))
  constructor
  · exact third.trans ((masked (n := 10) (by decide) (by rw [less]; omega)).trans less)
  · exact fourth.trans ((masked (n := 26) (by decide) (by rw [wide]; exact low)).trans wide)

theorem decodeImage_pack (op : U32) {addr width : U32} {size format : U8}
    (args : ImageArgs addr width size format) :
    decodeImage (pack op (imagePayload addr width size format)) =
      { format := format, size := size, width := width, address := addr, valid := true } := by
  obtain ⟨formatBits, sizeBits, widthBits, addressBits⟩ := pack_image op args
  obtain ⟨aligned, -, positive, -, -, -⟩ := args
  generalize pack op (imagePayload addr width size format) = cmd at *
  have address : (decodeImage cmd).address = addr := by
    apply BitVec.eq_of_toNat_eq
    rw [decodeImage_address, addressBits]
    omega
  have columns : (decodeImage cmd).width = width := by
    apply BitVec.eq_of_toNat_eq
    rw [decodeImage_width, widthBits]
    omega
  have depth : (decodeImage cmd).size = size :=
    BitVec.eq_of_toNat_eq ((decodeImage_size cmd).trans sizeBits)
  have kind : (decodeImage cmd).format = format :=
    BitVec.eq_of_toNat_eq
      ((field_setWidth cmd 53 (n := 3) (by decide) (by decide)).trans formatBits)
  rw [← address, ← columns, ← depth, ← kind, ← decodeImage_valid cmd]

/-- The fields of a tile, in their ranges. -/
structure TileArgs (size : U8) (line tmem : U16) (format : U8) : Prop where
  size : size.toNat ≤ 3
  line : line.toNat < 512
  tmem : tmem.toNat < 512
  format : format.toNat ≤ 7

theorem setTile_eq (tile size : U8) (line tmem : U16) (format : U8) :
    setTile tile size line tmem format =
      pack 0x35 (packed (setTileParts tile size line tmem format)) := by
  simp only [setTile, setTileParts, packed, Piece.placed, BitVec.or_assoc, BitVec.or_zero]

theorem texels_eq (xh yh xl yl : ℤ) (tile : U8) (s0 t0 dsdx dtdy : ℤ) :
    (textureRectangle xh yh xl yl tile s0 t0 dsdx dtdy).2 =
      packed (texelParts s0 t0 dsdx dtdy) := by
  simp only [textureRectangle, texelParts, packed, Piece.placed, BitVec.or_assoc, BitVec.or_zero,
    BitVec.shiftLeft_zero]

theorem field_eq {cmd : U64} {k n w : ℕ} {v : BitVec w} (narrow : n ≤ 32)
    (value : bits cmd k n = v.toNat) : (field cmd k (LowMasks.low 64 n)).setWidth w = v := by
  apply BitVec.eq_of_toNat_eq
  rw [BitVec.toNat_setWidth, field_toNat cmd k narrow, value]
  exact Nat.mod_eq_of_lt v.isLt

end Reading

end N64.RdpCmd
