import N64Emu.Overlay
import N64Emu.FillRectangles
import N64Emu.TextureRectangles
import N64Emu.SpSide

/-!
# Command lists paint in order

Every command covers the bytes of RDRAM its rectangle stores and leaves the
others clear. What a list leaves in RDRAM is, at every byte, what the last of
its commands that covers the byte stores there.
-/

set_option autoImplicit false

namespace N64.Rdp

open Words Loops Fills Overlay

section Depth

variable {s : Sys} {x y : ℕ} (pix16 : U16) (pix32 : U32) (use32 : Bool)

def widened (cmd : U64) : U64 := cmd ||| 3#64 <<< 51

theorem field_widened (cmd : U64) (k : ℕ) (mask : U64)
    (apart : (3#64 <<< 51) >>> k &&& mask = 0) :
    field (widened cmd) k mask = field cmd k mask := by
  unfold field widened
  rw [BitVec.ushiftRight_or_distrib, BitVec.and_or_distrib_right, apart]
  exact congrArg (BitVec.setWidth 32) BitVec.or_zero

theorem field_widened_size (cmd : U64) : field (widened cmd) 51 0x3 = 3 := by
  have absorbed (v : U64) : v &&& 3 ||| 3 = 3 := by
    ext i hi
    rw [BitVec.getElem_or, BitVec.getElem_and]
    generalize (3 : U64)[i] = low
    cases v[i] <;> cases low <;> rfl
  unfold field widened
  rw [BitVec.ushiftRight_or_distrib, BitVec.and_or_distrib_right]
  exact congrArg (BitVec.setWidth 32) (absorbed (cmd >>> 51))

theorem decodeImage_widened (cmd : U64) :
    decodeImage (widened cmd) = { decodeImage cmd with size := 3 } := by
  unfold decodeImage
  rw [field_widened cmd 32 _ (by decide), field_widened cmd 53 _ (by decide),
    field_widened cmd 0 _ (by decide), field_widened_size]
  rfl

def deepened (s : Sys) : Sys := { s with rdp.colorImage.size := 3 }

/-- What a write stores at any depth: images of 8 bits take 32-bit samples only. -/
def painted (s : Sys) (x y : ℕ) (pix16 : U16) (pix32 : U32) (use32 : Bool) : Option (ℕ → U8) :=
  if s.rdp.colorImage.size = 2 ∨ s.rdp.colorImage.size = 3 ∨ use32 = true then
    drawnValue s x y pix16 pix32 use32
  else none

theorem storeAt_deepened (shallow : s.rdp.colorImage.size ≠ 2) (v : Option (ℕ → U8)) (m : Bytes) :
    storeAt (deepened s).rdp.colorImage x y v m = storeAt s.rdp.colorImage x y v m := by
  have bytes : pixelBytes s.rdp.colorImage = 4 := if_neg shallow
  cases v with
  | none => rfl
  | some v =>
    unfold storeAt pixelOffset
    rw [bytes]
    rfl

theorem drawnValue_deepened (shallow : s.rdp.colorImage.size ≠ 2) :
    drawnValue (deepened s) x y pix16 pix32 use32 = drawnValue s x y pix16 pix32 use32 := by
  have bytes : pixelBytes s.rdp.colorImage = 4 := if_neg shallow
  have places : Drawn (deepened s) x y ↔ Drawn s x y := by
    unfold Drawn pixelOffset
    rw [bytes]
    exact Iff.rfl
  have stored : drawnByte (deepened s).rdp.colorImage pix16 pix32 use32 =
      drawnByte s.rdp.colorImage pix16 pix32 use32 := (if_neg shallow).symm
  unfold drawnValue
  rw [if_congr places rfl rfl, stored]

theorem writeColorPixel_32 (shallow : s.rdp.colorImage.size ≠ 2) :
    writeColorPixel s x y pix16 pix32 true =
      if !s.rdp.colorImage.valid || !clipPoint s.rdp x y then s
      else if s.bus.rdramSize = 0 then s
      else storePixel32 s (pixelAddr s.rdp x y 4) pix32 := by
  have narrow : ¬(s.rdp.colorImage.size = 2 ∧ (!true) = true) := fun both => shallow both.1
  have wide : s.rdp.colorImage.size = 3 ∨ true = true := Or.inr rfl
  unfold writeColorPixel
  rw [if_neg narrow, if_pos wide, if_neg shallow]

theorem writeColorPixel_deepened (shallow : s.rdp.colorImage.size ≠ 2) :
    (writeColorPixel (deepened s) x y pix16 pix32 true).bus.rdram =
      (writeColorPixel s x y pix16 pix32 true).bus.rdram := by
  have stored (addr : U32) :
      (storePixel32 (deepened s) addr pix32).bus.rdram = (storePixel32 s addr pix32).bus.rdram := by
    have size : (deepened s).bus.rdramSize = s.bus.rdramSize := rfl
    unfold storePixel32
    rw [size]
    split
    · rfl
    · rfl
  have deep : writeColorPixel (deepened s) x y pix16 pix32 true =
      if !s.rdp.colorImage.valid || !clipPoint s.rdp x y then deepened s
      else if s.bus.rdramSize = 0 then deepened s
      else storePixel32 (deepened s) (pixelAddr s.rdp x y 4) pix32 :=
    writeColorPixel_32 (s := deepened s) _ _ (show (3 : U8) ≠ 2 by decide)
  rw [deep, writeColorPixel_32 _ _ shallow]
  split
  · rfl
  · split
    · rfl
    · exact stored _

theorem writeColorPixel_skips (notTwo : s.rdp.colorImage.size ≠ 2)
    (notThree : s.rdp.colorImage.size ≠ 3) : writeColorPixel s x y pix16 pix32 false = s := by
  have narrow : ¬(s.rdp.colorImage.size = 2 ∧ (!false) = true) := fun both => notTwo both.1
  have wide : ¬(s.rdp.colorImage.size = 3 ∨ false = true) :=
    not_or.mpr ⟨notThree, Bool.false_ne_true⟩
  unfold writeColorPixel
  rw [if_neg narrow, if_neg wide]
  split
  · rfl
  · split <;> rfl

theorem writeColorPixel_paints (decoded : ∃ cmd, s.rdp.colorImage = decodeImage cmd)
    (hx : x ≤ 1024) (hy : y ≤ 1024) : (writeColorPixel s x y pix16 pix32 use32).bus.rdram =
      storeAt s.rdp.colorImage x y (painted s x y pix16 pix32 use32) s.bus.rdram := by
  unfold painted
  by_cases deep : s.rdp.colorImage.size = 2 ∨ s.rdp.colorImage.size = 3
  · rw [if_pos (deep.imp_right Or.inl)]
    exact writeColorPixel_rdram _ _ _ ⟨decoded, deep⟩ hx hy
  · have notTwo : s.rdp.colorImage.size ≠ 2 := fun two => deep (Or.inl two)
    have notThree : s.rdp.colorImage.size ≠ 3 := fun three => deep (Or.inr three)
    cases use32 with
    | false =>
      have skipped := not_or.mpr ⟨notTwo, not_or.mpr ⟨notThree, Bool.false_ne_true⟩⟩
      rw [writeColorPixel_skips _ _ notTwo notThree, if_neg skipped]
      rfl
    | true =>
      obtain ⟨cmd, image⟩ := decoded
      have target : ColorTarget (deepened s).rdp := by
        refine ⟨⟨widened cmd, ?_⟩, Or.inr rfl⟩
        rw [decodeImage_widened, ← image]
        rfl
      rw [if_pos (Or.inr (Or.inr rfl)), ← writeColorPixel_deepened _ _ notTwo,
        writeColorPixel_rdram _ _ _ target hx hy, storeAt_deepened notTwo,
        drawnValue_deepened _ _ _ notTwo]
      rfl

end Depth

section Layer

/-- The bytes a rectangle covers: those of its pixels that store something. -/
def rectLayer (img : RdpImage) (c : Rect) (value : ℕ → ℕ → Option (ℕ → U8)) (k : ℕ) : Option U8 :=
  let pixel := (k - img.address.toNat) / pixelBytes img
  let x := pixel % img.width.toNat
  let y := pixel / img.width.toNat
  if img.address.toNat ≤ k ∧ c.x0 ≤ x ∧ x < c.x1 ∧ c.y0 ≤ y ∧ y < c.y1 then
    (value x y).map fun bytes => bytes ((k - img.address.toNat) % pixelBytes img)
  else none

variable {img : RdpImage} {P : Sys → Prop} {c : Rect} {pixel : ℕ → ℕ → Sys → Sys}
  {value : ℕ → ℕ → Option (ℕ → U8)} {s : Sys}

theorem pixelBytes_pos (img : RdpImage) : 0 < pixelBytes img := by
  have cases_ := pixelBytes_cases img
  omega

theorem pixelOffset_of_byte {k : ℕ} (behind : img.address.toNat ≤ k) :
    pixelOffset img ((k - img.address.toNat) / pixelBytes img % img.width.toNat)
      ((k - img.address.toNat) / pixelBytes img / img.width.toNat) +
      (k - img.address.toNat) % pixelBytes img = k := by
  unfold pixelOffset
  rw [Nat.div_add_mod', Nat.add_assoc, Nat.div_add_mod']
  omega

theorem Draws.layer (draws : Draws img P c pixel value) (base : P s)
    (wide : 0 < img.width.toNat) (k : ℕ) : (forPixels c.corners pixel s).bus.rdram k =
      overlay (rectLayer img c value) s.bus.rdram k := by
  have bytes : (k - img.address.toNat) % pixelBytes img < pixelBytes img :=
    Nat.mod_lt _ (pixelBytes_pos img)
  have column : (k - img.address.toNat) / pixelBytes img % img.width.toNat < img.width.toNat :=
    Nat.mod_lt _ wide
  unfold overlay rectLayer
  dsimp only
  split
  · rename_i inside
    have place := pixelOffset_of_byte inside.1
    cases here : value ((k - img.address.toNat) / pixelBytes img % img.width.toNat)
        ((k - img.address.toNat) / pixelBytes img / img.width.toNat) with
    | some v =>
      have stored := draws.written base inside.2 here bytes
      rw [place] at stored
      exact stored
    | none =>
      refine draws.others base fun x y v _ drawn i hi same => ?_
      rw [← place] at same
      obtain ⟨sameX, sameY, -⟩ := pixelOffset_inj (draws.narrow _ _ _ drawn) column hi bytes same
      rw [← sameX, ← sameY, drawn] at here
      cases here
  · rename_i outside
    refine draws.others base fun x y v inside drawn i hi same => outside ?_
    have behind : img.address.toNat ≤ k := by
      rw [← same]
      unfold pixelOffset
      omega
    have place := pixelOffset_of_byte behind
    rw [← place] at same
    obtain ⟨sameX, sameY, -⟩ := pixelOffset_inj (draws.narrow _ _ _ drawn) column hi bytes same
    rw [← sameX, ← sameY]
    exact ⟨behind, inside⟩

end Layer

section Command

/-- A command of a list: one word, or two for a textured rectangle. -/
inductive Command where
  | single (cmd : U64)
  | pair (hi lo : U64)

def texPainted (hi lo : U64) (s : Sys) (x y : ℕ) : Option (ℕ → U8) :=
  (texSample s.rdp hi lo (flips hi) (x - (rectOf hi).x0) (y - (rectOf hi).y0)).bind fun t =>
    painted s x y t.out16 t.out32 t.is32

namespace Command

def perform : Command → Sys → Sys
  | .single cmd, s => executeCommand s cmd
  | .pair hi lo, s => executeCommandPair s hi lo

def rect : Command → Option Rect
  | .single cmd => if opcode cmd = 0x36 then some (rectOf cmd) else none
  | .pair hi _ => if isTextureRectangle hi then some (rectOf hi) else none

def value : Command → Sys → ℕ → ℕ → Option (ℕ → U8)
  | .single _, s => fun x y =>
    if s.rdp.colorImage.size = 2 ∨ s.rdp.colorImage.size = 3 then fillValue s x y else none
  | .pair hi lo, s => texPainted hi lo s

/-- The bytes of RDRAM a command covers in the machine it meets. -/
def layer (c : Command) (s : Sys) (k : ℕ) : Option U8 :=
  match c.rect with
  | some r => if s.rdp.colorImage.valid then rectLayer s.rdp.colorImage r (c.value s) k else none
  | none => none

end Command

variable {s : Sys}

theorem over_clear {layer : ℕ → Option U8} (m : Bytes) (clear : ∀ k, layer k = none) :
    overlay layer m = m := by
  funext k
  rw [overlay, clear]
  rfl

theorem rectLayer_clear {img : RdpImage} {c : Rect} {value : ℕ → ℕ → Option (ℕ → U8)}
    (clear : ∀ x y, value x y = none) (k : ℕ) : rectLayer img c value k = none := by
  unfold rectLayer
  dsimp only
  rw [clear]
  exact ite_self none

theorem decodeImage_wide {img : RdpImage} (decoded : ∃ cmd, img = decodeImage cmd) :
    0 < img.width.toNat := by
  obtain ⟨cmd, rfl⟩ := decoded
  rw [decodeImage_width]
  exact Nat.succ_pos _

theorem executeCommand_rdram {cmd : U64} (other : opcode cmd ≠ 0x36) :
    (executeCommand s cmd).bus.rdram = s.bus.rdram := by
  unfold executeCommand
  dsimp only
  split
  all_goals first
    | rfl
    | exact absurd ‹_› other

theorem writeFillPixel_skips (notTwo : s.rdp.colorImage.size ≠ 2)
    (notThree : s.rdp.colorImage.size ≠ 3) (x y : ℤ) : writeFillPixel s x y = s := by
  unfold writeFillPixel
  rw [if_neg notTwo, if_neg notThree]
  exact ite_self s

theorem fill_layer {cmd : U64} (fills : opcode cmd = 0x36)
    (valid : s.rdp.colorImage.valid = true) : (Command.single cmd).layer s =
      rectLayer s.rdp.colorImage (rectOf cmd) ((Command.single cmd).value s) := by
  funext k
  simp only [Command.layer, Command.rect, if_pos fills, if_pos valid]

theorem fill_skips {cmd : U64} (fills : opcode cmd = 0x36)
    (valid : s.rdp.colorImage.valid = true) (notTwo : s.rdp.colorImage.size ≠ 2)
    (notThree : s.rdp.colorImage.size ≠ 3) : executeCommand s cmd = countCommand s := by
  have skipped (row col : ℕ) :
      fillPixel (rectOf cmd) row col (countCommand s) = countCommand s :=
    writeFillPixel_skips (s := countCommand s) notTwo notThree _ _
  rw [executeCommand_fill fills valid]
  refine upTo_preserves (· = countCommand s) _ rfl fun row _ t same => ?_
  refine upTo_preserves (· = countCommand s) _ same fun col _ u again => ?_
  rw [again]
  exact skipped row col

theorem fill_rdram (imaged : Imaged s.rdp) {cmd : U64} (fills : opcode cmd = 0x36)
    (valid : s.rdp.colorImage.valid = true) :
    (executeCommand s cmd).bus.rdram = overlay ((Command.single cmd).layer s) s.bus.rdram := by
  rw [fill_layer fills valid]
  by_cases deep : s.rdp.colorImage.size = 2 ∨ s.rdp.colorImage.size = 3
  · have target : ColorTarget (countCommand s).rdp := ⟨imaged valid, deep⟩
    have value : (Command.single cmd).value s = fillValue (countCommand s) := by
      funext x y
      exact if_pos deep
    obtain ⟨right, bottom⟩ := rectOf_le cmd
    rw [value, executeCommand_fill fills valid]
    funext k
    exact (fill_draws target right bottom).layer ⟨rfl, rfl⟩ (decodeImage_wide (imaged valid)) k
  · obtain ⟨notTwo, notThree⟩ := not_or.mp deep
    have clear : ∀ x y, (Command.single cmd).value s x y = none := fun x y => if_neg deep
    rw [fill_skips fills valid notTwo notThree, over_clear _ (rectLayer_clear clear)]
    rfl

theorem fill_invalid {cmd : U64} (fills : opcode cmd = 0x36)
    (invalid : s.rdp.colorImage.valid = false) : executeCommand s cmd = countCommand s := by
  unfold executeCommand
  rw [fills]
  show cmdFillRectangle (countCommand s) cmd = _
  unfold cmdFillRectangle
  rw [show (countCommand s).rdp.colorImage.valid = false from invalid]
  rfl

theorem perform_single (imaged : Imaged s.rdp) (cmd : U64) :
    (executeCommand s cmd).bus.rdram = overlay ((Command.single cmd).layer s) s.bus.rdram := by
  by_cases fills : opcode cmd = 0x36
  · cases valid : s.rdp.colorImage.valid with
    | true => exact fill_rdram imaged fills valid
    | false =>
      have clear (k : ℕ) : (Command.single cmd).layer s k = none := by
        simp only [Command.layer, Command.rect, if_pos fills, valid]
        rfl
      rw [over_clear _ clear, fill_invalid fills valid]
      rfl
  · have clear (k : ℕ) : (Command.single cmd).layer s k = none := by
      simp only [Command.layer, Command.rect, if_neg fills]
    rw [over_clear _ clear, executeCommand_rdram fills]

theorem writeTexPixel_paints (decoded : ∃ cmd, s.rdp.colorImage = decodeImage cmd) {x y : ℕ}
    (hx : x ≤ 1024) (hy : y ≤ 1024) (sample : Option Sample) :
    (writeTexPixel s x y sample).bus.rdram = storeAt s.rdp.colorImage x y
      (sample.bind fun t => painted s x y t.out16 t.out32 t.is32) s.bus.rdram := by
  cases sample with
  | none => rfl
  | some p => exact writeColorPixel_paints _ _ _ decoded hx hy

theorem Texturing.painted {t : Sys} (texturing : Texturing s t) (x y : ℕ) (pix16 : U16)
    (pix32 : U32) (use32 : Bool) :
    Rdp.painted t x y pix16 pix32 use32 = Rdp.painted s x y pix16 pix32 use32 := by
  unfold Rdp.painted
  rw [texturing.image, texturing.value]

theorem tex_paints (decoded : ∃ cmd, s.rdp.colorImage = decodeImage cmd) (hi lo : U64) :
    Draws s.rdp.colorImage (Texturing s) (rectOf hi) (texPixel hi lo (flips hi))
      (texPainted hi lo s) where
  keeps := fun _ _ _ _ _ texturing => texturing.pixel _ _ _
  stores := by
    intro row hr col hc t texturing
    obtain ⟨right, bottom⟩ := rectOf_le hi
    have column : (rectOf hi).corners.xh + (col : ℤ) = (((rectOf hi).x0 + col : ℕ) : ℤ) :=
      (Nat.cast_add _ _).symm
    have line : (rectOf hi).corners.yh + (row : ℤ) = (((rectOf hi).y0 + row : ℕ) : ℤ) :=
      (Nat.cast_add _ _).symm
    have image := texturing.image
    have stored := writeTexPixel_paints (s := t) (by rw [image]; exact decoded)
      (show (rectOf hi).x0 + col ≤ 1024 by omega) (show (rectOf hi).y0 + row ≤ 1024 by omega)
      (texSample t.rdp hi lo (flips hi) col row)
    simp only [image, texturing.painted, texturing.sample] at stored
    unfold texPixel texPainted
    rw [column, line, Nat.add_sub_cancel_left, Nat.add_sub_cancel_left, texturing.sample]
    exact stored
  narrow := by
    intro x y v here
    obtain ⟨p, -, stored⟩ := Option.bind_eq_some_iff.mp here
    unfold painted drawnValue at stored
    split_ifs at stored with deep inside
    exact inside.1.2

theorem pair_invalid {hi : U64} (lo : U64) (invalid : s.rdp.colorImage.valid = false) :
    executeCommandPair s hi lo = countCommand s := by
  have none_ (flip : Bool) : cmdTextureRectangle (countCommand s) hi lo flip = countCommand s := by
    unfold cmdTextureRectangle
    rw [show (countCommand s).rdp.colorImage.valid = false from invalid]
    rfl
  unfold executeCommandPair
  dsimp only
  rw [none_, none_]
  split_ifs <;> rfl

theorem perform_pair (imaged : Imaged s.rdp) (hi lo : U64) :
    (executeCommandPair s hi lo).bus.rdram =
      overlay ((Command.pair hi lo).layer s) s.bus.rdram := by
  by_cases draws : isTextureRectangle hi
  · cases valid : s.rdp.colorImage.valid with
    | true =>
      have layer : (Command.pair hi lo).layer s =
          rectLayer s.rdp.colorImage (rectOf hi) (texPainted hi lo (countCommand s)) := by
        funext k
        simp only [Command.layer, Command.rect, if_pos draws, if_pos valid]
        rfl
      rw [layer, executeCommandPair_texture lo draws valid]
      funext k
      exact (tex_paints (s := countCommand s) (imaged valid) hi lo).layer ⟨rfl, rfl⟩
        (decodeImage_wide (imaged valid)) k
    | false =>
      have clear (k : ℕ) : (Command.pair hi lo).layer s k = none := by
        simp only [Command.layer, Command.rect, if_pos draws, valid]
        rfl
      rw [over_clear _ clear, pair_invalid lo valid]
      rfl
  · have clear (k : ℕ) : (Command.pair hi lo).layer s k = none := by
      simp only [Command.layer, Command.rect, if_neg draws]
    obtain ⟨plain, flipped⟩ := not_or.mp draws
    rw [over_clear _ clear]
    unfold executeCommandPair
    dsimp only
    rw [if_neg plain, if_neg flipped]
    rfl

theorem perform_paints (imaged : Imaged s.rdp) (c : Command) :
    (c.perform s).bus.rdram = overlay (c.layer s) s.bus.rdram := by
  cases c with
  | single cmd => exact perform_single imaged cmd
  | pair hi lo => exact perform_pair imaged hi lo

theorem Imaged.perform (imaged : Imaged s.rdp) (c : Command) : Imaged (c.perform s).rdp := by
  cases c with
  | single cmd => exact imaged.executeCommand cmd
  | pair hi lo => exact imaged.executeCommandPair hi lo

theorem run_paints (imaged : Imaged s.rdp) (cmds : List Command) :
    (Runs.run Command.perform cmds s).bus.rdram =
      pile (Runs.trace Command.perform (fun c t => [c.layer t]) cmds s) s.bus.rdram := by
  induction cmds generalizing s with
  | nil => rfl
  | cons c cmds ih =>
    rw [Runs.run_cons, ih (imaged.perform c), perform_paints imaged c]
    rfl

end Command

section List

variable (xbusDmem : Bool) (stop : U32)

/-- The commands the loop of `run_command_list` executes from `pc`. -/
def executed : ℕ → U32 → Sys → List Command
  | 0, _, _ => []
  | fuel+1, pc, s =>
    if pc < stop then
      let cmd := cmdAt s pc xbusDmem
      if isTextureRectangle cmd then
        if pc + 16 > stop then []
        else
          let c := Command.pair cmd (cmdAt s (pc + 8) xbusDmem)
          c :: executed fuel (pc + 16) (c.perform s)
      else
        let c := Command.single cmd
        c :: executed fuel (pc + 8) (c.perform s)
    else []

/-- The commands as they stand in memory, before any of them is executed. -/
def written (s : Sys) : ℕ → U32 → List Command
  | 0, _ => []
  | fuel+1, pc =>
    if pc < stop then
      let cmd := cmdAt s pc xbusDmem
      if isTextureRectangle cmd then
        if pc + 16 > stop then []
        else .pair cmd (cmdAt s (pc + 8) xbusDmem) :: written s fuel (pc + 16)
      else .single cmd :: written s fuel (pc + 8)
    else []

variable {xbusDmem} {stop} {s : Sys}

theorem runList_executed (fuel : ℕ) (pc : U32) :
    runList xbusDmem stop fuel pc s =
      Runs.run Command.perform (executed xbusDmem stop fuel pc s) s := by
  induction fuel generalizing pc s with
  | zero => rfl
  | succ fuel ih =>
    simp only [runList, executed, readCmd64_eq]
    split
    · change (if isTextureRectangle (cmdAt s pc xbusDmem) then _ else _) = _
      split
      · split
        · rfl
        · rw [Runs.run_cons, ← ih]
          rfl
      · rw [Runs.run_cons, ← ih]
        rfl
    · rfl

theorem executed_eq_written {P : Sys → Prop} (keeps : ∀ c t, P t → P (Command.perform c t))
    (same : ∀ t, P t → ∀ addr, cmdAt t addr xbusDmem = cmdAt s addr xbusDmem) (fuel : ℕ) (pc : U32)
    {t : Sys} (start : P t) :
    executed xbusDmem stop fuel pc t = written xbusDmem stop s fuel pc := by
  induction fuel generalizing pc t with
  | zero => rfl
  | succ fuel ih =>
    simp only [executed, written, same t start]
    split
    · split
      · split
        · rfl
        · rw [ih _ (keeps _ t start)]
      · rw [ih _ (keeps _ t start)]
    · rfl

theorem read32Const_sp {s t : Sys} (dmem : t.bus.spDmem = s.bus.spDmem)
    (imem : t.bus.spImem = s.bus.spImem) {a : U32} (low : 0x04000000 ≤ (Bus.physical a).toNat)
    (high : (Bus.physical a).toNat < 0x04001000) : Bus.read32Const t a = Bus.read32Const s a := by
  have bytes (i : ℕ) (near : i < 4) :
      Bus.read8Const t (a + BitVec.ofNat 32 i) = Bus.read8Const s (a + BitVec.ofNat 32 i) := by
    have place : (Bus.physical (a + BitVec.ofNat 32 i)).toNat = (Bus.physical a).toNat + i := by
      rw [Bus.physical_toNat] at low high ⊢
      rw [Bus.physical_toNat, BitVec.toNat_add, BitVec.toNat_ofNat]
      omega
    have noRdram : ¬(Bus.physical a).toNat + i < 0x03F00000 := by omega
    by_cases inside : (Bus.physical a).toNat + i < 0x04001000
    · have here : 0x04000000 ≤ (Bus.physical a).toNat + i ∧
          (Bus.physical a).toNat + i < 0x04001000 := ⟨by omega, inside⟩
      simp only [Bus.read8Const, place, if_neg noRdram, if_pos here, dmem]
    · have behind : ¬(0x04000000 ≤ (Bus.physical a).toNat + i ∧
          (Bus.physical a).toNat + i < 0x04001000) := fun both => inside both.2
      have here : 0x04001000 ≤ (Bus.physical a).toNat + i ∧
          (Bus.physical a).toNat + i < 0x04002000 := ⟨by omega, by omega⟩
      simp only [Bus.read8Const, place, if_neg noRdram, if_neg behind, if_pos here, imem]
  have first : Bus.read8Const t a = Bus.read8Const s a := by simpa using bytes 0 (by decide)
  have second : Bus.read8Const t (a + 1) = Bus.read8Const s (a + 1) := bytes 1 (by decide)
  have third : Bus.read8Const t (a + 2) = Bus.read8Const s (a + 2) := bytes 2 (by decide)
  have fourth : Bus.read8Const t (a + 3) = Bus.read8Const s (a + 3) := bytes 3 (by decide)
  have noRdram (u : Sys) : ¬((Bus.physical a).toNat < 0x03F00000 ∧ u.bus.rdramSize ≠ 0 ∧
      (Bus.physical a).toNat % u.bus.rdramSize + 3 < u.bus.rdramSize) := by omega
  have noCart (u : Sys) : ¬(0x10000000 ≤ (Bus.physical a).toNat ∧
      (Bus.physical a).toNat ≤ 0x1FBFFFFF ∧
      (Bus.physical a).toNat - 0x10000000 + 3 < u.bus.cartSize) := by omega
  simp only [Bus.read32Const, if_neg (noRdram _), if_neg (noCart _), first, second, third, fourth,
    dmem, imem]

theorem cmdAt_xbus {t : Sys} (dmem : t.bus.spDmem = s.bus.spDmem)
    (imem : t.bus.spImem = s.bus.spImem) (addr : U32) : cmdAt t addr true = cmdAt s addr true := by
  have word (a : U32) : cmdWord t a true = cmdWord s a true := by
    have small : (a &&& 0xFFF).toNat ≤ 0xFFF := by
      rw [BitVec.toNat_and]
      exact Nat.and_le_right
    have base : (0x04000000 : U32).toNat = 0x04000000 := rfl
    have place : (0x04000000 + (a &&& 0xFFF) : U32).toNat = 0x04000000 + (a &&& 0xFFF).toNat := by
      rw [BitVec.toNat_add, base]
      exact Nat.mod_eq_of_lt (by omega)
    have window : (Bus.physical (Bus.physical (0x04000000 + (a &&& 0xFFF)))).toNat =
        0x04000000 + (a &&& 0xFFF).toNat := by
      rw [Bus.physical_idem, Bus.physical_toNat, place]
      omega
    unfold cmdWord
    rw [if_pos rfl]
    exact read32Const_sp dmem imem (by omega) (by omega)
  unfold cmdAt
  rw [word, word]

theorem Drew.perform (c : Command) (t : Sys) : Drew t (c.perform t) := by
  cases c with
  | single cmd => exact Drew.executeCommand t cmd
  | pair hi lo => exact Drew.executeCommandPair t hi lo

theorem executed_xbus {t : Sys} (same : t.sp = s.sp) (fuel : ℕ) (pc : U32) :
    executed true stop fuel pc t = written true stop s fuel pc := by
  refine executed_eq_written (P := fun u => u.sp = s.sp) ?_ ?_ fuel pc same
  · intro c u start
    exact (Sys.sp_drew (Drew.perform c u)).trans start
  · intro u start addr
    exact cmdAt_xbus (congrArg SpView.dmem start) (congrArg SpView.imem start) addr

end List

section List

variable {s : Sys}

/-- The commands of a list from `start` to `end_`. -/
def listed (s : Sys) (start end_ : U32) (xbusDmem : Bool) : List Command :=
  if end_ ≤ start then []
  else executed xbusDmem (end_ &&& ~~~7) (end_ &&& ~~~7).toNat (start &&& ~~~7)
    { s with rdp.busy := true }

def layers (s : Sys) (cmds : List Command) : List (ℕ → Option U8) :=
  Runs.trace Command.perform (fun c t => [c.layer t]) cmds { s with rdp.busy := true }

theorem runCommandList_paints (imaged : Imaged s.rdp) (start end_ : U32) (xbusDmem : Bool) :
    (runCommandList s start end_ xbusDmem).bus.rdram =
      pile (layers s (listed s start end_ xbusDmem)) s.bus.rdram := by
  have busy : Imaged ({ s with rdp.busy := true } : Sys).rdp := imaged.same rfl
  unfold layers listed runCommandList
  split
  · rfl
  · rw [← run_paints busy, ← runList_executed]

theorem listed_xbus (start end_ : U32) : listed s start end_ true =
    if end_ ≤ start then []
    else written true (end_ &&& ~~~7) s (end_ &&& ~~~7).toNat (start &&& ~~~7) := by
  unfold listed
  rw [executed_xbus (s := s) (t := { s with rdp.busy := true }) rfl]

end List

section Reached

variable {s : Sys}

theorem rdp_dmaByte (toSp imem : Bool) (mem dram : U32) (i : ℕ) :
    (SpRegs.dmaByte toSp imem mem dram i s).rdp = s.rdp := by
  simp only [SpRegs.dmaByte, SpRegs.setSpmem, Sys.setRdramByte]
  split_ifs <;> rfl

theorem rdp_notifyMemoryWrite (p : PhysicalAddress) (n : U32) :
    (s.notifyMemoryWrite p n).rdp = s.rdp := Sys.rdp_of (Sys.co_notifyMemoryWrite s p n)

theorem rdp_dmaLine (toSp imem : Bool) (d : SpRegs.SpDmaLen) (t : SpRegs.DmaState) :
    (SpRegs.dmaLine toSp imem d t).sys.rdp = t.sys.rdp := by
  have bytes := upTo_untouched Sys.rdp d.length.toNat t.sys
    fun i _ u => rdp_dmaByte (s := u) toSp imem t.mem t.dram i
  simp only [SpRegs.dmaLine]
  split
  · exact (rdp_notifyMemoryWrite _ _).trans bytes
  · exact (rdp_notifyMemoryWrite _ _).trans bytes

theorem rdp_doDma (toSp : Bool) (lenReg : U32) : (SpRegs.doDma s toSp lenReg).rdp = s.rdp := by
  have lines (imem : Bool) (d : SpRegs.SpDmaLen) (n : ℕ) (t : SpRegs.DmaState) :
      (upTo (fun _ u => SpRegs.dmaLine toSp imem d u) n t).sys.rdp = t.sys.rdp :=
    upTo_untouched (fun u : SpRegs.DmaState => u.sys.rdp) n t
      fun _ _ u => rdp_dmaLine toSp imem d u
  have copied (imem : Bool) (t : Sys) : (SpRegs.copyToRsp t imem).rdp = t.rdp := by
    unfold SpRegs.copyToRsp
    split <;> rfl
  have finished (t : Sys) (r : SpRegisters) :
      (Mi.raise { t with bus.spRegs := r } MiIntr.SP).rdp = t.rdp := rfl
  simp only [SpRegs.doDma]
  rw [finished, copied, lines]
  rfl

theorem rdp_applyStatusWrite (value : U32) : (SpRegs.applyStatusWrite s value).rdp = s.rdp := by
  have signal (t : Sys) (same : t.rdp = s.rdp) (i : ℕ) :
      (SpRegs.signalStep value i t).rdp = s.rdp :=
    onBit_preserves (fun t : Sys => t.rdp = s.rdp)
      (onBit_preserves (fun t : Sys => t.rdp = s.rdp) same id) id
  refine upTo_preserves (fun t : Sys => t.rdp = s.rdp) 8 ?_ fun i _ t same => signal t same i
  refine onBit_preserves (fun t : Sys => t.rdp = s.rdp) ?_ id
  refine onBit_preserves (fun t : Sys => t.rdp = s.rdp) ?_ id
  refine onBit_preserves (fun t : Sys => t.rdp = s.rdp) ?_ id
  refine onBit_preserves (fun t : Sys => t.rdp = s.rdp) ?_ id
  refine onBit_preserves (fun t : Sys => t.rdp = s.rdp) ?_ id
  refine onBit_preserves (fun t : Sys => t.rdp = s.rdp) ?_ id
  refine onBit_preserves (fun t : Sys => t.rdp = s.rdp) ?_ id
  refine onBit_preserves (fun t : Sys => t.rdp = s.rdp) ?_ id
  exact onBit_preserves (fun t : Sys => t.rdp = s.rdp) rfl id

theorem rdp_spWrite (offset value : U32) : (SpRegs.write s offset value).rdp = s.rdp := by
  unfold SpRegs.write
  split
  case h_3 => exact rdp_doDma true value
  case h_4 => exact rdp_doDma false value
  case h_5 => exact rdp_applyStatusWrite value
  all_goals rfl

theorem rdp_spWritePc (offset value : U32) : (SpRegs.writePc s offset value).rdp = s.rdp := by
  unfold SpRegs.writePc
  split <;> rfl

theorem Imaged.dpWrite (imaged : Imaged s.rdp) (offset value : U32) :
    Imaged (DpRegs.write s offset value).rdp := by
  have flushed (t : Sys) (k : Imaged t.rdp) : Imaged (DpRegs.flush t).rdp := k.same rfl
  have status : Imaged (DpRegs.writeStatus s value).rdp := by
    refine onBit_preserves (fun t : Sys => Imaged t.rdp) ?_ (flushed _)
    refine onBit_preserves (fun t : Sys => Imaged t.rdp) ?_ id
    refine onBit_preserves (fun t : Sys => Imaged t.rdp) ?_ id
    refine onBit_preserves (fun t : Sys => Imaged t.rdp) ?_ id
    refine onBit_preserves (fun t : Sys => Imaged t.rdp) ?_ id
    exact onBit_preserves (fun t : Sys => Imaged t.rdp) imaged id
  have ended (t : Sys) (d : DpRegisters) (done : U32) : (Mi.raise (DpRegs.setStatus
      (DpRegs.clearStatus { t with bus.dpRegs := d } done) DpRegisters.StCbufReady)
      MiIntr.DP).rdp = t.rdp := rfl
  have ran (t : Sys) (k : Imaged t.rdp) : Imaged (DpRegs.runCommands t).rdp := by
    unfold DpRegs.runCommands
    rw [ended]
    refine Imaged.runCommandList ?_ _ _ _
    exact k
  unfold DpRegs.write
  split
  · exact imaged
  · dsimp only
    split
    · exact ran _ imaged
    · exact imaged
  · exact status
  · exact imaged

theorem imaged_outside : OutsideRsp fun s => Imaged s.rdp where
  cpu := fun _ h => h
  relog := fun _ h => h
  takeSemaphore := fun h => h
  pokeRdram := fun _ _ h => h
  storeDmem := fun _ _ h => h
  storeImem := fun _ _ h => h
  storePifRam := fun off b h => by rwa [Sys.rdp_of (Sys.co_storePifRam _ off b)]
  spWrite := fun offset value h => by rwa [rdp_spWrite]
  spWritePc := fun offset value h => by rwa [rdp_spWritePc]
  dpWrite := fun offset value h => h.dpWrite offset value
  miWrite := fun offset value h => by rwa [Sys.rdp_of (Sys.co_miWrite _ offset value)]
  viWrite := fun offset value h => by rwa [Sys.rdp_of (Sys.co_viWrite _ offset value)]
  aiWrite := fun offset value h => by rwa [Sys.rdp_of (Sys.co_aiWrite _ offset value)]
  piWrite := fun offset value h => by rwa [Sys.rdp_of (Sys.co_piWrite _ offset value)]
  riWrite := fun _ _ h => h
  siWrite := fun offset value h => by rwa [Sys.rdp_of (Sys.co_siWrite _ offset value)]
  rsp := fun _ h => h
  pokeSpDmem := fun _ _ h => h
  pushMemToBus := fun h => h
  notifyBreak := fun intrOnBreak h => by
    simp only [SpRegs.notifyBreak]
    split
    · exact h
    · exact h

theorem imaged_devices : DevicesInvariant fun s => Imaged s.rdp where
  toBusInvariant := imaged_outside.toBusInvariant
  rspStep := imaged_outside.rspStep
  tick := fun d h => by rwa [Sys.rdp_of (Sys.co_tickDevices _ d)]
  reset := fun s => imaged_reset s.rdp
  pushMemToBus := fun h => h
  clearFrameReady := fun h => h
  loadCartridge := fun _ _ h => h
  loadPifRom := fun _ _ h => h
  seedPif := fun _ h => h
  mirrorPif := fun h => h
  resetRsp := fun h => h

end Reached

end N64.Rdp

namespace N64.Emulator

open Words Overlay Rdp

/-- Whatever ran before, a list leaves at every byte of RDRAM what the last of
its commands that covers the byte stores there, and changes no other byte. -/
theorem command_list_paints (fp : HostFpu) (files : Files) (acts : List Act)
    (onBus : ∀ a ∈ acts, a.OnBus) (start end_ : U32) (xbusDmem : Bool) :
    let s := (Runs.run (step fp) acts (construct files)).sys
    let cmds := listed s start end_ xbusDmem
    (∀ k, (runCommandList s start end_ xbusDmem).bus.rdram k =
      (top (layers s cmds) k).getD (s.bus.rdram k)) ∧
    (xbusDmem = true → cmds = if end_ ≤ start then []
      else written true (end_ &&& ~~~7) s (end_ &&& ~~~7).toNat (start &&& ~~~7)) := by
  intro s cmds
  have imaged : Imaged s.rdp := (imaged_devices.runInvariant fp).holds files acts onBus
  refine ⟨fun k => ?_, fun inDmem => ?_⟩
  · rw [runCommandList_paints imaged, pile_apply]
  · show listed s start end_ xbusDmem = _
    rw [inDmem, listed_xbus]

/-- A color image and a fill, written to DMEM and started from there. -/
theorem command_list_paints_fill :
    let s := (Runs.run (step default)
      [.component (DeviceAct.write64 0xA4000000 0x3F10000300100000).perform,
        .component (DeviceAct.write64 0xA4000008 0x3600800500004001).perform]
      (construct fun _ => none)).sys
    ∀ k, (runCommandList s 0 16 true).bus.rdram k =
      (top (layers s (listed s 0 16 true)) k).getD (s.bus.rdram k) :=
  (command_list_paints default (fun _ => none) _ (by simp [Act.OnBus]) 0 16 true).1

end N64.Emulator
