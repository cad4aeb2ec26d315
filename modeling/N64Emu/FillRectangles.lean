import N64Emu.PixelWrites

/-!
# Filled rectangles

The color image of an RDP a run of commands reaches is as SetColorImage made
it. Over such an image FillRectangle stores the fill color in the pixels of the
rectangle the clip and RDRAM admit, and nothing else.
-/

set_option autoImplicit false

namespace N64.Rdp

open Words Loops

section Reached

variable {s : Sys}

def Imaged (r : Rdp) : Prop := r.colorImage.valid = true → ∃ cmd, r.colorImage = decodeImage cmd

theorem Imaged.target {r : Rdp} (imaged : Imaged r) (valid : r.colorImage.valid = true)
    (depth : r.colorImage.size = 2 ∨ r.colorImage.size = 3) : ColorTarget r :=
  ⟨imaged valid, depth⟩

theorem imaged_reset (r : Rdp) : Imaged (reset r) := fun valid => absurd valid Bool.false_ne_true

theorem Imaged.same {r r' : Rdp} (imaged : Imaged r) (same : r'.colorImage = r.colorImage) :
    Imaged r' := by
  unfold Imaged
  rw [same]
  exact imaged

theorem writeFillPixel_image (x y : ℤ) :
    (writeFillPixel s x y).rdp.colorImage = s.rdp.colorImage := by
  simp only [writeFillPixel]
  split_ifs <;> simp [countFillPixel, writeColorPixel_rdp]

theorem writeTexPixel_image (x y : ℤ) (sample : Option Sample) :
    (writeTexPixel s x y sample).rdp.colorImage = s.rdp.colorImage := by
  cases sample with
  | none => rfl
  | some t => simp [writeTexPixel, writeColorPixel_rdp]

theorem forPixels_image (c : Corners) {pixel : ℕ → ℕ → Sys → Sys}
    (each : ∀ row col t, (pixel row col t).rdp.colorImage = t.rdp.colorImage) :
    (forPixels c pixel s).rdp.colorImage = s.rdp.colorImage :=
  upTo_untouched (fun t : Sys => t.rdp.colorImage) _ _ fun row _ t =>
    upTo_untouched (fun t : Sys => t.rdp.colorImage) _ t fun col _ => each row col

theorem cmdFillRectangle_image (cmd : U64) :
    (cmdFillRectangle s cmd).rdp.colorImage = s.rdp.colorImage := by
  simp only [cmdFillRectangle]
  split
  · rfl
  · exact forPixels_image _ fun _ _ _ => writeFillPixel_image _ _

theorem cmdTextureRectangle_image (hi lo : U64) (flip : Bool) :
    (cmdTextureRectangle s hi lo flip).rdp.colorImage = s.rdp.colorImage := by
  simp only [cmdTextureRectangle]
  split
  · rfl
  · exact forPixels_image _ fun _ _ _ => writeTexPixel_image _ _ _

theorem copyRdramToTmem_image (b : Bus) (dram tmemByte nbytes : U32) (r : Rdp) :
    (copyRdramToTmem b dram tmemByte nbytes r).colorImage = r.colorImage := by
  unfold copyRdramToTmem
  split <;> rfl

theorem cmdLoadBlock_image (b : Bus) (r : Rdp) (cmd : U64) :
    (cmdLoadBlock b r cmd).colorImage = r.colorImage := by
  simp only [cmdLoadBlock]
  split
  · rfl
  · exact copyRdramToTmem_image b _ _ _ r

theorem cmdLoadTile_image (b : Bus) (r : Rdp) (cmd : U64) :
    (cmdLoadTile b r cmd).colorImage = r.colorImage := by
  simp only [cmdLoadTile]
  split
  · rfl
  · exact upTo_untouched (fun t : Rdp => t.colorImage) _ _ fun row _ t =>
      copyRdramToTmem_image b _ _ _ t

theorem Imaged.executeCommand (imaged : Imaged s.rdp) (cmd : U64) :
    Imaged (executeCommand s cmd).rdp := by
  simp only [Rdp.executeCommand]
  split
  case h_4 => exact imaged.same (cmdFillRectangle_image cmd)
  case h_7 => exact fun _ => ⟨cmd, rfl⟩
  case h_11 => exact imaged.same (cmdLoadBlock_image _ _ cmd)
  case h_12 => exact imaged.same (cmdLoadTile_image _ _ cmd)
  all_goals exact imaged.same rfl

theorem Imaged.executeCommandPair (imaged : Imaged s.rdp) (hi lo : U64) :
    Imaged (executeCommandPair s hi lo).rdp := by
  simp only [Rdp.executeCommandPair]
  split_ifs
  · exact imaged.same (cmdTextureRectangle_image hi lo false)
  · exact imaged.same (cmdTextureRectangle_image hi lo true)
  · exact imaged.same rfl

theorem Imaged.runList (xbusDmem : Bool) (stop : U32) (fuel : ℕ) (pc : U32)
    (imaged : Imaged s.rdp) : Imaged (runList xbusDmem stop fuel pc s).rdp := by
  induction fuel generalizing pc s with
  | zero => exact imaged
  | succ fuel ih =>
    simp only [Rdp.runList, readCmd64_eq]
    split_ifs
    · exact imaged
    · exact ih _ (imaged.executeCommandPair _ _)
    · exact ih _ (imaged.executeCommand _)
    · exact imaged

theorem Imaged.runCommandList (imaged : Imaged s.rdp) (start end_ : U32) (xbusDmem : Bool) :
    Imaged (runCommandList s start end_ xbusDmem).rdp := by
  simp only [Rdp.runCommandList]
  split
  · exact imaged
  · exact (Imaged.runList xbusDmem _ _ _ (s := { s with rdp.busy := true })
      (imaged.same rfl)).same rfl

end Reached

section Fill

variable {s t : Sys} {x y : ℕ}

/-- The pixel of the fill color at an RDRAM offset: bit 1 of the offset selects
the half of a 16-bit color image. -/
def fillHalf (color : U32) (off : ℕ) : U16 :=
  if off / 2 % 2 = 1 then color.setWidth 16 else (color >>> 16).setWidth 16

def fillByte (r : Rdp) (x y : ℕ) : ℕ → U8 :=
  if r.colorImage.size = 2 then byte16 (fillHalf r.fillColor (pixelOffset r.colorImage x y))
  else byte32 r.fillColor

/-- What a rectangle fill changes beside RDRAM. -/
structure Filling (s t : Sys) : Prop where
  rdp : t.rdp = { s.rdp with fillPixels := t.rdp.fillPixels }
  rdramSize : t.bus.rdramSize = s.bus.rdramSize

theorem writeFillPixel_cases (t : Sys) (x y : ℤ) : writeFillPixel t x y = t ∨
    ∃ pix16 pix32 use32,
      writeFillPixel t x y = countFillPixel (writeColorPixel t x y pix16 pix32 use32) := by
  unfold writeFillPixel
  split
  · exact Or.inl rfl
  · split
    · exact Or.inr ⟨_, _, _, rfl⟩
    · split
      · exact Or.inr ⟨_, _, _, rfl⟩
      · exact Or.inl rfl

theorem Filling.pixel (filling : Filling s t) (x y : ℤ) : Filling s (writeFillPixel t x y) := by
  obtain ⟨rdp, size⟩ := filling
  rcases writeFillPixel_cases t x y with same | ⟨pix16, pix32, use32, drawn⟩
  · rw [same]
    exact ⟨rdp, size⟩
  · rw [drawn]
    refine ⟨?_, (writeColorPixel_rdramSize _ _ _ x y).trans size⟩
    simp only [countFillPixel, writeColorPixel_rdp]
    rw [rdp]

theorem writeFillPixel_rdram (target : ColorTarget s.rdp) (hx : x ≤ 1024) (hy : y ≤ 1024) :
    (writeFillPixel s x y).bus.rdram = storeAt s.rdp.colorImage x y
      (if Drawn s x y then some (fillByte s.rdp x y) else none) s.bus.rdram := by
  have clip := clipPoint_iff target.valid (y := y) (show x < 2 ^ 32 by omega)
  unfold writeFillPixel
  by_cases inside : clipPoint s.rdp x y = true
  · have open_ : ¬ (!s.rdp.colorImage.valid || !clipPoint s.rdp x y) = true := by
      rw [target.valid, inside]
      exact Bool.false_ne_true
    rw [if_neg open_]
    by_cases depth : s.rdp.colorImage.size = 2
    · have half : (if pixelAddr s.rdp x y 2 &&& 2 ≠ 0 then s.rdp.fillColor.setWidth 16
          else (s.rdp.fillColor >>> 16).setWidth 16) =
          fillHalf s.rdp.fillColor (pixelOffset s.rdp.colorImage x y) := by
        have bit := LowMasks.bit_ne_zero_iff (n := 1) (pixelAddr s.rdp x y 2) (by decide)
        rw [pixelAddr_16 target hx hy depth] at bit
        exact if_congr bit rfl rfl
      have value : drawnByte s.rdp.colorImage
          (fillHalf s.rdp.fillColor (pixelOffset s.rdp.colorImage x y)) 0 false =
          fillByte s.rdp x y := by
        unfold drawnByte fillByte
        rw [if_pos depth, if_pos depth]
        rfl
      rw [if_pos depth]
      dsimp only
      rw [half]
      refine (writeColorPixel_rdram _ _ _ target hx hy).trans ?_
      rw [drawnValue, value]
    · have value : drawnByte s.rdp.colorImage 0 s.rdp.fillColor true = fillByte s.rdp x y := by
        unfold drawnByte fillByte
        rw [if_neg depth, if_neg depth]
      rw [if_neg depth, if_pos (target.depth.resolve_left depth)]
      refine (writeColorPixel_rdram _ _ _ target hx hy).trans ?_
      rw [drawnValue, value]
  · rw [if_pos (by simp only [inside, Bool.not_false, Bool.or_true]),
      if_neg fun drawn => inside (clip.mpr drawn.1)]
    rfl

theorem Filling.image (filling : Filling s t) : t.rdp.colorImage = s.rdp.colorImage := by
  rw [filling.rdp]

theorem Filling.target (filling : Filling s t) (target : ColorTarget s.rdp) :
    ColorTarget t.rdp := by
  have image := filling.image
  exact ⟨by rw [image]; exact target.decoded, by rw [image]; exact target.depth⟩

theorem Filling.drawn_iff (filling : Filling s t) : Drawn t x y ↔ Drawn s x y := by
  unfold Drawn InClip
  rw [filling.rdp, filling.rdramSize]

theorem Filling.byte (filling : Filling s t) : fillByte t.rdp x y = fillByte s.rdp x y := by
  unfold fillByte
  rw [filling.rdp]

def fillPixel (c : Rect) (row col : ℕ) (t : Sys) : Sys :=
  writeFillPixel t (c.corners.xh + col) (c.corners.yh + row)

def fillValue (s : Sys) (x y : ℕ) : Option (ℕ → U8) :=
  if Drawn s x y then some (fillByte s.rdp x y) else none

theorem fill_draws (target : ColorTarget s.rdp) {c : Rect} (right : c.x1 ≤ 1024)
    (bottom : c.y1 ≤ 1024) :
    Draws s.rdp.colorImage (Filling s) c (fillPixel c) (fillValue s) where
  keeps := fun _ _ _ _ _ filling => filling.pixel _ _
  stores := by
    intro row hr col hc t filling
    have column : c.corners.xh + (col : ℤ) = ((c.x0 + col : ℕ) : ℤ) := (Nat.cast_add _ _).symm
    have line : c.corners.yh + (row : ℤ) = ((c.y0 + row : ℕ) : ℤ) := (Nat.cast_add _ _).symm
    have stored := writeFillPixel_rdram (filling.target target)
      (show c.x0 + col ≤ 1024 by omega) (show c.y0 + row ≤ 1024 by omega)
    rw [filling.image, filling.byte, if_congr filling.drawn_iff rfl rfl] at stored
    unfold fillPixel fillValue
    rw [column, line]
    exact stored
  narrow := by
    intro x y v here
    unfold fillValue at here
    split_ifs at here with drawn
    exact drawn.1.2

theorem executeCommand_fill {cmd : U64} (fills : opcode cmd = 0x36)
    (valid : s.rdp.colorImage.valid = true) : executeCommand s cmd =
      forPixels (rectOf cmd).corners (fillPixel (rectOf cmd)) (countCommand s) := by
  have counted : (countCommand s).rdp.colorImage.valid = true := valid
  unfold executeCommand
  rw [fills]
  show cmdFillRectangle (countCommand s) cmd = _
  unfold cmdFillRectangle
  rw [counted, corners_eq]
  rfl

def Shows (m : Bytes) (r : Rdp) (x y : ℕ) : Prop :=
  let off := pixelOffset r.colorImage x y
  if r.colorImage.size = 2 then join16 (m off) (m (off + 1)) = fillHalf r.fillColor off
  else join32 (m off) (m (off + 1)) (m (off + 2)) (m (off + 3)) = r.fillColor

theorem shows_of_bytes {m : Bytes} {r : Rdp}
    (bytes : ∀ i < pixelBytes r.colorImage,
      m (pixelOffset r.colorImage x y + i) = fillByte r x y i) : Shows m r x y := by
  unfold Shows
  unfold pixelBytes fillByte at bytes
  dsimp only
  split_ifs at bytes ⊢
  · rw [show m (pixelOffset r.colorImage x y) = _ from bytes 0 (by decide), bytes 1 (by decide)]
    exact join16_bytes _
  · rw [show m (pixelOffset r.colorImage x y) = _ from bytes 0 (by decide), bytes 1 (by decide),
      bytes 2 (by decide), bytes 3 (by decide)]
    exact join32_bytes _

/-- The pixels a fill command stores: those of its rectangle that the clip and
RDRAM admit. -/
def Filled (s : Sys) (cmd : U64) (x y : ℕ) : Prop := (rectOf cmd).Inside x y ∧ Drawn s x y

/-- FillRectangle fills exactly its pixels. -/
theorem fill_rectangle_exact (s : Sys) (cmd : U64) (fills : opcode cmd = 0x36)
    (target : ColorTarget s.rdp) :
    let r := executeCommand s cmd
    (∀ x y, Filled s cmd x y → Shows r.bus.rdram s.rdp x y) ∧
    (∀ k, (∀ x y, Filled s cmd x y → ∀ i < pixelBytes s.rdp.colorImage,
      pixelOffset s.rdp.colorImage x y + i ≠ k) → r.bus.rdram k = s.bus.rdram k) ∧
    r.rdp = { s.rdp with
      cmdsExecuted := r.rdp.cmdsExecuted
      fillPixels := r.rdp.fillPixels } := by
  intro r
  have run : r = forPixels (rectOf cmd).corners (fillPixel (rectOf cmd)) (countCommand s) :=
    executeCommand_fill fills target.valid
  obtain ⟨right, bottom⟩ := rectOf_le cmd
  have counted : ColorTarget (countCommand s).rdp := ⟨target.decoded, target.depth⟩
  have draws := fill_draws counted right bottom
  have base : Filling (countCommand s) (countCommand s) := ⟨rfl, rfl⟩
  refine ⟨?_, ?_, ?_⟩
  · rintro x y ⟨inside, drawn⟩
    rw [run]
    exact shows_of_bytes fun i lt => draws.written base inside (if_pos drawn) lt
  · intro k apart
    rw [run]
    refine draws.others base fun x y v inside here => ?_
    unfold fillValue at here
    split_ifs at here with drawn
    exact apart x y ⟨inside, drawn⟩
  · have kept := draws.kept base
    rw [run, kept.rdp]
    rfl

/-- A 16-bit image of four pixels a line, with a fill color of two pixels. -/
def smallImage : Sys :=
  { rdp.colorImage := decodeImage 0x3F10000300100000, rdp.fillColor := 0xF80107C1 }

theorem fill_rectangle_exact_small :
    Shows (executeCommand smallImage 0x3600800500004001).bus.rdram smallImage.rdp 1 1 :=
  (fill_rectangle_exact smallImage 0x3600800500004001 (by decide)
    ⟨⟨0x3F10000300100000, rfl⟩, by decide⟩).1 1 1 (by unfold Filled Rect.Inside; decide)

end Fill

end N64.Rdp
