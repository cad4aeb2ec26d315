import N64Emu.CommandWords
import N64Emu.FillRectangles
import Mathlib.Data.List.Nodup

/-!
# Commands executed as they were encoded

Executing an encoded command stores the values it was encoded from. An encoded
rectangle covers its pixels once each, the textured one with the texels its
start and its slopes give.
-/

set_option autoImplicit false

namespace N64.RdpCmd

open Words PackedWords Loops Rdp

section Settings

variable {s : Sys}

theorem setScissor_edges {cmd : U64} {tile : BitVec 3} {a b c d : ℕ} {r : Rdp}
    (edges : Edges cmd tile a b c d) : cmdSetScissor r cmd =
      { r with scissor := { xh := a, yh := b, xl := c, yl := d, set := true } } := by
  have edge (k : ℕ) : fx10_2Floor (field cmd k 0xFFF) = ((bits cmd k 12 / 4 : ℕ) : ℤ) := by
    have value : (field cmd k 0xFFF).toNat = bits cmd k 12 :=
      field_toNat cmd k (n := 12) (by decide)
    rw [fx10_2Floor_eq, value]
  have quarter (n : ℕ) : 4 * n / 4 = n := Nat.mul_div_cancel_left n (by decide)
  unfold cmdSetScissor
  rw [edge, edge, edge, edge, edges.first, edges.second, edges.third, edges.fourth, quarter,
    quarter, quarter, quarter]

/-- A tile with the corners of a command, in quarters of a texel. -/
def cornerTile (t : RdpTile) (sl tl sh th : ℕ) : RdpTile :=
  { t with
    sl := BitVec.ofNat 16 (4 * sl)
    tl := BitVec.ofNat 16 (4 * tl)
    sh := BitVec.ofNat 16 (4 * sh)
    th := BitVec.ofNat 16 (4 * th) }

theorem corner_field {cmd : U64} {k a : ℕ} (value : bits cmd k 12 = 4 * a) :
    (field cmd k 0xFFF).setWidth 16 = BitVec.ofNat 16 (4 * a) := by
  have small := bits_lt cmd k 12
  apply field_eq (n := 12) (by decide)
  rw [value, BitVec.toNat_ofNat]
  omega

theorem setTileSize_edges {cmd : U64} {tile : BitVec 3} {a b c d : ℕ} {r : Rdp}
    (edges : Edges cmd tile a b c d) : cmdSetTileSize r cmd =
      setTileAt r tile { cornerTile (r.tiles tile) a b c d with defined := true } := by
  unfold cmdSetTileSize
  rw [edges.index, corner_field edges.first, corner_field edges.second, corner_field edges.third,
    corner_field edges.fourth]
  rfl

theorem corner_texel {cmd : U64} {k a : ℕ} (value : bits cmd k 12 = 4 * a) :
    ((field cmd k 0xFFF >>> 2) <<< 2).setWidth 16 = BitVec.ofNat 16 (4 * a) := by
  have small := bits_lt cmd k 12
  apply BitVec.eq_of_toNat_eq
  rw [texel_edge, value, BitVec.toNat_setWidth, BitVec.toNat_shiftLeft, BitVec.toNat_ofNat,
    BitVec.toNat_ofNat, Nat.shiftLeft_eq]
  omega

theorem loadTile_edges {cmd : U64} {tile : BitVec 3} {a b c d : ℕ} {r : Rdp} (bus : Bus)
    (edges : Edges cmd tile a b c d) (valid : r.textureImage.valid = true) :
    WithTmem (setTileAt r tile (cornerTile (r.tiles tile) a b c d)) (cmdLoadTile bus r cmd) := by
  have start : cornered r cmd = setTileAt r tile (cornerTile (r.tiles tile) a b c d) := by
    unfold cornered
    rw [edges.index, corner_texel edges.first, corner_texel edges.second,
      corner_texel edges.third, corner_texel edges.fourth]
    rfl
  rw [← start]
  unfold cmdLoadTile
  rw [valid]
  exact upTo_preserves (WithTmem (cornered r cmd)) _ rfl fun _ _ _ rows => rows.copy _ _ _

/-- What the decoder reads in the word of a tile: no bit below the index is set. -/
structure TileWord (cmd : U64) (tile : BitVec 3) (size : U8) (line tmem : U16) (format : U8) :
    Prop where
  format : bits cmd 53 3 = format.toNat
  size : bits cmd 51 2 = size.toNat
  line : bits cmd 41 9 = line.toNat
  tmem : bits cmd 32 9 = tmem.toNat
  index : tileIndex cmd = tile
  gap : ∀ k n, k + n ≤ 24 → bits cmd k n = 0

theorem setTile_word (tile : BitVec 3) {size format : U8} {line tmem : U16}
    (args : TileArgs size line tmem format) :
    TileWord (setTile (tile.setWidth 8) size line tmem format) tile size line tmem format := by
  obtain ⟨small, short, low, known⟩ := args
  rw [setTile_eq]
  have layout := setTile_layout (tile.setWidth 8) size line tmem format
  have wide (v : U16) : (v.setWidth 64).toNat = v.toNat := widened v (by decide)
  have read {p : Piece 64} (member : p ∈ setTileParts (tile.setWidth 8) size line tmem format)
      (inside : p.shift + p.width ≤ 56) :
      bits (pack 0x35 (packed (setTileParts (tile.setWidth 8) size line tmem format)))
        p.shift p.width = p.value.toNat := bits_part 0x35 layout rfl member inside
  have formatBits := read (p := ⟨53, 3, (format &&& 7).setWidth 64⟩) (by simp [setTileParts])
    (show 53 + 3 ≤ 56 by decide)
  have sizeBits := read (p := ⟨51, 2, (size &&& 3).setWidth 64⟩) (by simp [setTileParts])
    (show 51 + 2 ≤ 56 by decide)
  have lineBits := read (p := ⟨41, 9, line.setWidth 64 &&& 0x1FF⟩) (by simp [setTileParts])
    (show 41 + 9 ≤ 56 by decide)
  have tmemBits := read (p := ⟨32, 9, tmem.setWidth 64 &&& 0x1FF⟩) (by simp [setTileParts])
    (show 32 + 9 ≤ 56 by decide)
  have tileBits := read (p := ⟨24, 3, (tile.setWidth 8).setWidth 64 &&& 7⟩)
    (by simp [setTileParts]) (show 24 + 3 ≤ 56 by decide)
  rw [widened _ (by decide)] at formatBits sizeBits
  constructor
  · exact formatBits.trans (masked (n := 3) (by decide) (by omega))
  · exact sizeBits.trans (masked (n := 2) (by decide) (by omega))
  · exact lineBits.trans ((masked (n := 9) (by decide) (by rw [wide]; exact short)).trans (wide _))
  · exact tmemBits.trans ((masked (n := 9) (by decide) (by rw [wide]; exact low)).trans (wide _))
  · exact field_eq (n := 3) (by decide) (tileBits.trans (tile_toNat tile))
  · intro k n below
    apply bits_gap 0x35 layout (by omega)
    simp only [setTileParts, List.forall_mem_cons]
    exact ⟨by omega, by omega, by omega, by omega, by omega,
      fun _ nothing => absurd nothing List.not_mem_nil⟩

def plainTile (t : RdpTile) (size : U8) (line tmem : U16) (format : U8) : RdpTile :=
  { t with
    format := format
    size := size
    line := line
    tmem := tmem
    palette := 0
    ct := 0
    mt := 0
    maskT := 0
    shiftT := 0
    cs := 0
    ms := 0
    maskS := 0
    shiftS := 0
    defined := true }

theorem TileWord.set {cmd : U64} {tile : BitVec 3} {size format : U8} {line tmem : U16} {r : Rdp}
    (word : TileWord cmd tile size line tmem format) : cmdSetTile r cmd =
      setTileAt r tile (plainTile (r.tiles tile) size line tmem format) := by
  have empty (k n : ℕ) (narrow : n ≤ 32) (below : k + n ≤ 24) :
      (field cmd k (LowMasks.low 64 n)).setWidth 8 = (0 : U8) :=
    field_eq narrow (word.gap k n below)
  have kind : (field cmd 53 0x7).setWidth 8 = format := field_eq (n := 3) (by decide) word.format
  have depth : (field cmd 51 0x3).setWidth 8 = size := field_eq (n := 2) (by decide) word.size
  have pitch : (field cmd 41 0x1FF).setWidth 16 = line := field_eq (n := 9) (by decide) word.line
  have place : (field cmd 32 0x1FF).setWidth 16 = tmem := field_eq (n := 9) (by decide) word.tmem
  have palette : (field cmd 20 0xF).setWidth 8 = (0 : U8) := empty 20 4 (by decide) (by decide)
  have ct : (field cmd 19 1).setWidth 8 = (0 : U8) := empty 19 1 (by decide) (by decide)
  have mt : (field cmd 18 1).setWidth 8 = (0 : U8) := empty 18 1 (by decide) (by decide)
  have maskT : (field cmd 14 0xF).setWidth 8 = (0 : U8) := empty 14 4 (by decide) (by decide)
  have shiftT : (field cmd 10 0xF).setWidth 8 = (0 : U8) := empty 10 4 (by decide) (by decide)
  have cs : (field cmd 9 1).setWidth 8 = (0 : U8) := empty 9 1 (by decide) (by decide)
  have ms : (field cmd 8 1).setWidth 8 = (0 : U8) := empty 8 1 (by decide) (by decide)
  have maskS : (field cmd 4 0xF).setWidth 8 = (0 : U8) := empty 4 4 (by decide) (by decide)
  have shiftS : (field cmd 0 0xF).setWidth 8 = (0 : U8) := empty 0 4 (by decide) (by decide)
  unfold cmdSetTile
  rw [word.index, kind, depth, pitch, place, palette, ct, mt, maskT, shiftT, cs, ms, maskS, shiftS]
  rfl

end Settings

section Rectangles

def pixelsOf (c : Rect) : List (ℕ × ℕ) :=
  (List.range (c.y1 - c.y0) ×ˢ List.range (c.x1 - c.x0)).map
    fun cell => (c.x0 + cell.2, c.y0 + cell.1)

/-- Every pixel between two corners, once. -/
structure Covers (pixels : List (ℕ × ℕ)) (xh yh xl yl : ℕ) : Prop where
  once : pixels.Nodup
  inside : ∀ x y, (x, y) ∈ pixels ↔
    min xh xl ≤ x ∧ x < max xh xl ∧ min yh yl ≤ y ∧ y < max yh yl

theorem mem_pixelsOf (c : Rect) (x y : ℕ) : (x, y) ∈ pixelsOf c ↔ c.Inside x y := by
  unfold pixelsOf Rect.Inside
  rw [List.mem_map]
  constructor
  · rintro ⟨⟨row, column⟩, member, same⟩
    rw [List.mem_product, List.mem_range, List.mem_range] at member
    obtain ⟨rfl, rfl⟩ := Prod.mk.inj same
    omega
  · intro inside
    refine ⟨(y - c.y0, x - c.x0), ?_, ?_⟩
    · rw [List.mem_product, List.mem_range, List.mem_range]
      omega
    · rw [Prod.mk.injEq]
      omega

theorem nodup_pixelsOf (c : Rect) : (pixelsOf c).Nodup := by
  have cells : (List.range (c.y1 - c.y0) ×ˢ List.range (c.x1 - c.x0)).Nodup :=
    List.Nodup.product List.nodup_range List.nodup_range
  refine List.Nodup.map (fun cell other same => ?_) cells
  obtain ⟨columns, rows⟩ := Prod.mk.inj same
  exact Prod.ext (Nat.add_left_cancel rows) (Nat.add_left_cancel columns)

theorem forPixels_foldl (c : Rect) (pixel : ℕ → ℕ → Sys → Sys) (s : Sys) :
    forPixels c.corners pixel s =
      (pixelsOf c).foldl (fun t p => pixel (p.2 - c.y0) (p.1 - c.x0) t) s := by
  unfold pixelsOf
  rw [forPixels_eq, Fills.grid_eq_foldl, List.foldl_map]
  simp only [Nat.add_sub_cancel_left]

theorem rectOf_edges {cmd : U64} {tile : BitVec 3} {xh yh xl yl : ℕ}
    (edges : Edges cmd tile xl yl xh yh) : rectOf cmd =
      { x0 := min xh xl, y0 := min yh yl, x1 := max xh xl, y1 := max yh yl } := by
  have low (n : ℕ) : 4 * n / 4 = n := Nat.mul_div_cancel_left n (by decide)
  have high (n : ℕ) : (4 * n + 3) / 4 = n := by omega
  unfold rectOf
  rw [edges.first, edges.second, edges.third, edges.fourth, low, low, high, high]

theorem covers_edges {cmd : U64} {tile : BitVec 3} {xh yh xl yl : ℕ}
    (edges : Edges cmd tile xl yl xh yh) : Covers (pixelsOf (rectOf cmd)) xh yh xl yl where
  once := nodup_pixelsOf _
  inside := by
    intro x y
    rw [mem_pixelsOf, rectOf_edges edges]
    rfl

theorem fill_foldl {s : Sys} {cmd : U64} (fills : opcode cmd = 0x36)
    (valid : s.rdp.colorImage.valid = true) : executeCommand s cmd =
      (pixelsOf (rectOf cmd)).foldl (fun t p => writeFillPixel t p.1 p.2) (countCommand s) := by
  rw [executeCommand_fill fills valid, forPixels_foldl]
  refine foldl_congr_inv (fun _ => True) _ trivial (fun _ _ _ _ => trivial) ?_
  rintro ⟨x, y⟩ member t -
  obtain ⟨left, -, top, -⟩ := (mem_pixelsOf _ x y).mp member
  have column : (rectOf cmd).corners.xh + ((x - (rectOf cmd).x0 : ℕ) : ℤ) = x := by
    show ((rectOf cmd).x0 : ℤ) + _ = _
    omega
  have line : (rectOf cmd).corners.yh + ((y - (rectOf cmd).y0 : ℕ) : ℤ) = y := by
    show ((rectOf cmd).y0 : ℤ) + _ = _
    omega
  unfold fillPixel
  rw [column, line]

theorem texels_fields (xh yh xl yl : ℤ) (tile : U8) (s0 t0 dsdx dtdy : ℤ) :
    let lo := (textureRectangle xh yh xl yl tile s0 t0 dsdx dtdy).2
    field16s lo 48 = (tex s0).toInt ∧ field16s lo 32 = (tex t0).toInt ∧
      field16s lo 16 = (slope dsdx).toInt ∧ field16s lo 0 = (slope dtdy).toInt := by
  intro lo
  have read (k : ℕ) {v : U16} (member : (⟨k, 16, v.setWidth 64⟩ : Piece 64) ∈
      texelParts s0 t0 dsdx dtdy) : field16s lo k = v.toInt := by
    have value : bits lo k 16 = (v.setWidth 64).toNat := by
      unfold lo
      rw [texels_eq]
      exact extract_packed (texel_layout s0 t0 dsdx dtdy) member
    rw [widened _ (by decide)] at value
    exact congrArg BitVec.toInt (field_eq (n := 16) (by decide) value)
  exact ⟨read 48 (by simp [texelParts]), read 32 (by simp [texelParts]),
    read 16 (by simp [texelParts]), read 0 (by simp [texelParts])⟩

theorem texture_foldl {s : Sys} {hi lo : U64} {s0 t0 dsdx dtdy : ℤ}
    (opens : opcode hi = TextureRectangle) (valid : s.rdp.colorImage.valid = true)
    (startS : field16s lo 48 = 32 * s0) (startT : field16s lo 32 = 32 * t0)
    (stepS : field16s lo 16 = 1024 * dsdx) (stepT : field16s lo 0 = 1024 * dtdy) :
    executeCommandPair s hi lo = (pixelsOf (rectOf hi)).foldl (fun t p =>
      writeTexPixel t p.1 p.2 (sampleTile s.rdp (tileIndex hi)
        (s0 + ((p.1 : ℤ) - (rectOf hi).x0) * dsdx) (t0 + ((p.2 : ℤ) - (rectOf hi).y0) * dtdy)))
      (countCommand s) := by
  have plain : flips hi = false := by
    unfold flips
    rw [opens]
    rfl
  rw [executeCommandPair_texture lo (Or.inl opens) valid, plain, forPixels_foldl]
  refine foldl_congr_inv (Texturing (countCommand s)) _ ⟨rfl, rfl⟩
    (fun p _ t texturing => texturing.pixel _ _ _) ?_
  rintro ⟨x, y⟩ member t texturing
  obtain ⟨left, -, top, -⟩ := (mem_pixelsOf _ x y).mp member
  have across : ((x - (rectOf hi).x0 : ℕ) : ℤ) = (x : ℤ) - (rectOf hi).x0 := Nat.cast_sub left
  have down : ((y - (rectOf hi).y0 : ℕ) : ℤ) = (y : ℤ) - (rectOf hi).y0 := Nat.cast_sub top
  have column : (rectOf hi).corners.xh + ((x : ℤ) - (rectOf hi).x0) = x := by
    show ((rectOf hi).x0 : ℤ) + _ = _
    omega
  have line : (rectOf hi).corners.yh + ((y : ℤ) - (rectOf hi).y0) = y := by
    show ((rectOf hi).y0 : ℤ) + _ = _
    omega
  unfold texPixel
  rw [texturing.sample, texSample_whole _ hi lo startS startT stepS stepT, across, down, column,
    line]
  rfl

end Rectangles

section RoundTrip

/-- Texels and slopes in their ranges. -/
structure TexelArgs (s0 t0 dsdx dtdy : ℤ) : Prop where
  startS : -1024 ≤ s0 ∧ s0 ≤ 1023
  startT : -1024 ≤ t0 ∧ t0 ≤ 1023
  stepS : -32 ≤ dsdx ∧ dsdx ≤ 31
  stepT : -32 ≤ dtdy ∧ dtdy ≤ 31

variable {s : Sys}

theorem setColorImage_run {addr width : U32} {size format : U8}
    (args : ImageArgs addr width size format) :
    executeCommand s (setColorImage addr width size format) =
      { countCommand s with
        rdp.colorImage :=
          { format := format, size := size, width := width, address := addr, valid := true } } := by
  have opens : opcode (setColorImage addr width size format) = 0x3F := opcode_pack 0x3F _
  rw [← decodeImage_pack 0x3F args]
  unfold executeCommand
  rw [opens]
  rfl

theorem setTextureImage_run {addr width : U32} {size format : U8}
    (args : ImageArgs addr width size format) :
    executeCommand s (setTextureImage addr width size format) =
      { countCommand s with
        rdp.textureImage :=
          { format := format, size := size, width := width, address := addr, valid := true } } := by
  have opens : opcode (setTextureImage addr width size format) = 0x3D := opcode_pack 0x3D _
  rw [← decodeImage_pack 0x3D args]
  unfold executeCommand
  rw [opens]
  rfl

theorem setScissor_run {xh yh xl yl : ℕ} (args : Pixels xh yh xl yl) :
    executeCommand s (setScissor xh yh xl yl) =
      { countCommand s with
        rdp.scissor := { xh := xh, yh := yh, xl := xl, yl := yl, set := true } } := by
  have opens : opcode (setScissor xh yh xl yl) = 0x2D := opcode_pack 0x2D _
  have edges : Edges (setScissor xh yh xl yl) 0 xh yh xl yl := by
    unfold setScissor
    rw [edgesPayload_eq]
    exact pack_edges 0x2D 0 args
  have run : executeCommand s (setScissor xh yh xl yl) =
      { countCommand s with
        rdp := cmdSetScissor (countCommand s).rdp (setScissor xh yh xl yl) } := by
    unfold executeCommand
    rw [opens]
    rfl
  rw [run, setScissor_edges edges]

theorem setTile_run (tile : BitVec 3) {size format : U8} {line tmem : U16}
    (args : TileArgs size line tmem format) :
    executeCommand s (setTile (tile.setWidth 8) size line tmem format) =
      { countCommand s with
        rdp := setTileAt (countCommand s).rdp tile
          (plainTile (s.rdp.tiles tile) size line tmem format) } := by
  have opens : opcode (setTile (tile.setWidth 8) size line tmem format) = 0x35 :=
    opcode_pack 0x35 _
  have run : executeCommand s (setTile (tile.setWidth 8) size line tmem format) =
      { countCommand s with
        rdp := cmdSetTile (countCommand s).rdp
          (setTile (tile.setWidth 8) size line tmem format) } := by
    unfold executeCommand
    rw [opens]
    rfl
  rw [run, (setTile_word tile args).set]
  rfl

theorem setTileSize_run (tile : BitVec 3) {sl tl sh th : ℕ} (args : Pixels sl tl sh th) :
    executeCommand s (setTileSize (tile.setWidth 8) sl tl sh th) =
      { countCommand s with
        rdp := setTileAt (countCommand s).rdp tile
          { cornerTile (s.rdp.tiles tile) sl tl sh th with defined := true } } := by
  have opens : opcode (setTileSize (tile.setWidth 8) sl tl sh th) = 0x32 := opcode_pack 0x32 _
  have edges : Edges (setTileSize (tile.setWidth 8) sl tl sh th) tile sl tl sh th :=
    pack_edges 0x32 tile args
  have run : executeCommand s (setTileSize (tile.setWidth 8) sl tl sh th) =
      { countCommand s with
        rdp := cmdSetTileSize (countCommand s).rdp
          (setTileSize (tile.setWidth 8) sl tl sh th) } := by
    unfold executeCommand
    rw [opens]
    rfl
  rw [run, setTileSize_edges edges]
  rfl

theorem loadTile_run (tile : BitVec 3) {sl tl sh th : ℕ} (args : Pixels sl tl sh th)
    (valid : s.rdp.textureImage.valid = true) :
    ∃ m, executeCommand s (loadTile (tile.setWidth 8) sl tl sh th) =
      { countCommand s with
        rdp :=
          { setTileAt (countCommand s).rdp tile (cornerTile (s.rdp.tiles tile) sl tl sh th) with
            tmem := m } } := by
  have opens : opcode (loadTile (tile.setWidth 8) sl tl sh th) = 0x34 := opcode_pack 0x34 _
  have edges : Edges (loadTile (tile.setWidth 8) sl tl sh th) tile sl tl sh th :=
    pack_edges 0x34 tile args
  have rows := loadTile_edges s.bus edges (r := (countCommand s).rdp) valid
  have run : executeCommand s (loadTile (tile.setWidth 8) sl tl sh th) =
      { countCommand s with
        rdp := cmdLoadTile s.bus (countCommand s).rdp
          (loadTile (tile.setWidth 8) sl tl sh th) } := by
    unfold executeCommand
    rw [opens]
    rfl
  rw [run]
  exact ⟨_, by rw [rows]; rfl⟩

/-- Encoded commands store what they were encoded from, LoadTile with a texture
image set and rectangles with a color image set. Reversed corners are swapped:
texels are counted from the upper left corner. -/
theorem command_round_trip (s : Sys) (addr width : U32) (size format : U8) (line tmem : U16)
    (tile : BitVec 3) (xh yh xl yl sl tl sh th : ℕ) (s0 t0 dsdx dtdy : ℤ)
    (image : ImageArgs addr width size format) (fields : TileArgs size line tmem format)
    (rect : Pixels xh yh xl yl) (corners : Pixels sl tl sh th)
    (texels : TexelArgs s0 t0 dsdx dtdy) :
    executeCommand s (setColorImage addr width size format) =
      { countCommand s with
        rdp.colorImage :=
          { format := format, size := size, width := width, address := addr, valid := true } } ∧
    executeCommand s (setTextureImage addr width size format) =
      { countCommand s with
        rdp.textureImage :=
          { format := format, size := size, width := width, address := addr, valid := true } } ∧
    executeCommand s (setScissor xh yh xl yl) =
      { countCommand s with
        rdp.scissor := { xh := xh, yh := yh, xl := xl, yl := yl, set := true } } ∧
    executeCommand s (setTile (tile.setWidth 8) size line tmem format) =
      { countCommand s with
        rdp := setTileAt (countCommand s).rdp tile
          (plainTile (s.rdp.tiles tile) size line tmem format) } ∧
    executeCommand s (setTileSize (tile.setWidth 8) sl tl sh th) =
      { countCommand s with
        rdp := setTileAt (countCommand s).rdp tile
          { cornerTile (s.rdp.tiles tile) sl tl sh th with defined := true } } ∧
    (s.rdp.textureImage.valid = true →
      ∃ m, executeCommand s (loadTile (tile.setWidth 8) sl tl sh th) =
        { countCommand s with
          rdp :=
            { setTileAt (countCommand s).rdp tile (cornerTile (s.rdp.tiles tile) sl tl sh th) with
              tmem := m } }) ∧
    (s.rdp.colorImage.valid = true →
      (∃ pixels, Covers pixels xh yh xl yl ∧
        executeCommand s (fillRectangle xh yh xl yl) =
          pixels.foldl (fun t p => writeFillPixel t p.1 p.2) (countCommand s)) ∧
      ∃ pixels, Covers pixels xh yh xl yl ∧
        executeCommandPair s
            (textureRectangle xh yh xl yl (tile.setWidth 8) s0 t0 dsdx dtdy).1
            (textureRectangle xh yh xl yl (tile.setWidth 8) s0 t0 dsdx dtdy).2 =
          pixels.foldl (fun t p => writeTexPixel t p.1 p.2 (sampleTile s.rdp tile
            (s0 + ((p.1 : ℤ) - (min xh xl : ℕ)) * dsdx)
            (t0 + ((p.2 : ℤ) - (min yh yl : ℕ)) * dtdy))) (countCommand s)) := by
  refine ⟨setColorImage_run image, setTextureImage_run image, setScissor_run rect,
    setTile_run tile fields, setTileSize_run tile corners, loadTile_run tile corners, ?_⟩
  intro valid
  have swapped : Pixels xl yl xh yh := ⟨rect.third, rect.fourth, rect.first, rect.second⟩
  constructor
  · have opens : opcode (fillRectangle xh yh xl yl) = 0x36 := opcode_pack 0x36 _
    have edges : Edges (fillRectangle xh yh xl yl) 0 xl yl xh yh := by
      unfold fillRectangle
      rw [edgesPayload_eq]
      exact pack_edges 0x36 0 swapped
    exact ⟨_, covers_edges edges, fill_foldl opens valid⟩
  · have opens : opcode (textureRectangle xh yh xl yl (tile.setWidth 8) s0 t0 dsdx dtdy).1 =
        TextureRectangle := opcode_pack 0x24 _
    have edges : Edges (textureRectangle xh yh xl yl (tile.setWidth 8) s0 t0 dsdx dtdy).1 tile
        xl yl xh yh := pack_edges 0x24 tile swapped
    obtain ⟨startS, startT, stepS, stepT⟩ :=
      texels_fields xh yh xl yl (tile.setWidth 8) s0 t0 dsdx dtdy
    rw [tex_toInt texels.startS.1 texels.startS.2] at startS
    rw [tex_toInt texels.startT.1 texels.startT.2] at startT
    rw [slope_toInt texels.stepS.1 texels.stepS.2] at stepS
    rw [slope_toInt texels.stepT.1 texels.stepT.2] at stepT
    have run := texture_foldl opens valid startS startT stepS stepT
    rw [edges.index] at run
    exact ⟨_, covers_edges edges, by rw [run, rectOf_edges edges]⟩

def withImages : Sys where
  rdp :=
    { colorImage := { size := 2, width := 320, address := 0x100000, valid := true }
      textureImage := { size := 2, width := 64, address := 0x200000, valid := true } }

theorem command_round_trip_screen :
    executeCommand withImages (setColorImage 0x180000 320 2 0) =
      { countCommand withImages with
        rdp.colorImage :=
          { format := 0, size := 2, width := 320, address := 0x180000, valid := true } } ∧
      (∃ m, executeCommand withImages (loadTile 3 4 8 19 23) =
        { countCommand withImages with
          rdp :=
            { setTileAt (countCommand withImages).rdp 3
                (cornerTile (withImages.rdp.tiles 3) 4 8 19 23) with
              tmem := m } }) ∧
      ∃ pixels, Covers pixels 200 100 40 30 ∧
        executeCommand withImages (fillRectangle 200 100 40 30) =
          pixels.foldl (fun t p => writeFillPixel t p.1 p.2) (countCommand withImages) := by
  have law := command_round_trip withImages 0x180000 320 2 0 8 0 3 200 100 40 30 4 8 19 23 0 0 1 1
    (by constructor <;> decide) (by constructor <;> decide) (by constructor <;> decide)
    (by constructor <;> decide) (by constructor <;> decide)
  exact ⟨law.1, law.2.2.2.2.2.1 rfl, (law.2.2.2.2.2.2 rfl).1⟩

/-- LoadTile stores nothing without a texture image, and reversed corners do not
count texels from the corner that was named first. -/
theorem command_round_trip_limits :
    (¬ ∀ (s : Sys) (tile : BitVec 3) (sl tl sh th : ℕ), Pixels sl tl sh th →
      ((executeCommand s (loadTile (tile.setWidth 8) sl tl sh th)).rdp.tiles tile).sh =
        BitVec.ofNat 16 (4 * sh)) ∧
    ¬ ∀ (s : Sys) (tile : BitVec 3) (xh yh xl yl : ℕ) (s0 t0 dsdx dtdy : ℤ),
      s.rdp.colorImage.valid = true → Pixels xh yh xl yl → TexelArgs s0 t0 dsdx dtdy →
      ∃ pixels, Covers pixels xh yh xl yl ∧
        executeCommandPair s
            (textureRectangle xh yh xl yl (tile.setWidth 8) s0 t0 dsdx dtdy).1
            (textureRectangle xh yh xl yl (tile.setWidth 8) s0 t0 dsdx dtdy).2 =
          pixels.foldl (fun t p => writeTexPixel t p.1 p.2 (sampleTile s.rdp tile
            (s0 + ((p.1 : ℤ) - xh) * dsdx) (t0 + ((p.2 : ℤ) - yh) * dtdy))) (countCommand s) := by
  constructor
  · intro stored
    exact absurd (stored {} 0 0 0 1 1 (by constructor <;> decide)) (by decide)
  · intro sampled
    obtain ⟨pixels, ⟨-, inside⟩, run⟩ := sampled smallImage 0 1 0 0 1 0 0 1 1 (by decide)
      (by constructor <;> decide) (by constructor <;> decide)
    have nothing : pixels.foldl (fun t p => writeTexPixel t p.1 p.2 (sampleTile smallImage.rdp 0
        (0 + ((p.1 : ℤ) - (1 : ℕ)) * 1) (0 + ((p.2 : ℤ) - (0 : ℕ)) * 1)))
        (countCommand smallImage) = pixels.foldl (fun t _ => t) (countCommand smallImage) := by
      refine foldl_congr_inv (fun _ => True) _ trivial (fun _ _ _ _ => trivial) ?_
      rintro ⟨x, y⟩ member t -
      obtain ⟨rfl, rfl⟩ : x = 0 ∧ y = 0 := by
        have between := (inside x y).mp member
        omega
      rfl
    rw [nothing, List.foldl_fixed] at run
    exact absurd (congrArg (fun t : Sys => t.rdp.texPixels) run) (by decide)

end RoundTrip

end N64.RdpCmd
