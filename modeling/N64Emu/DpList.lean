import N64Emu.BusWrite

/-!
# Command lists and the DP registers

A command list is walked one command at a time; a command boundary is an
address the walk meets. `run_command_list` with its end on a boundary is the
walk up to it. The walk depends neither on the DP registers nor on the busy
flag, so one END write does all the work and leaves START invalid: a second
END write past the first finds nothing to start from.
-/

set_option autoImplicit false

namespace N64

open Words Loops

def Bus.withDp (d : DpRegisters) (b : Bus) : Bus := { b with dpRegs := d }

def Rdp.withBusy (busy : Bool) (r : Rdp) : Rdp := { r with busy := busy }

def Sys.withDp (d : DpRegisters) (busy : Bool) (s : Sys) : Sys :=
  { s with bus := s.bus.withDp d, rdp := s.rdp.withBusy busy }

namespace Rdp

open Sys

def cmdWord (s : Sys) (addr : U32) (xbusDmem : Bool) : U32 :=
  Bus.read32Const s
    (Bus.physical (if xbusDmem then 0x04000000 + (addr &&& 0xFFF) else addr &&& 0x00FFFFFF))

theorem isMmioRegion_below {p : PhysicalAddress} (h : p.toNat < 0x04040000) :
    Bus.isMmioRegion p = false := by
  simp only [Bus.isMmioRegion, Mmio.inRange, Mmio.SP_REGS_BASE, Mmio.SP_REGS2_BASE,
    Mmio.DP_CMD_BASE, Mmio.MI_BASE, Mmio.VI_BASE, Mmio.AI_BASE, Mmio.PI_BASE, Mmio.RI_BASE,
    Mmio.SI_BASE]
  simp
  omega

theorem physical_le (a : U32) : (Bus.physical a).toNat ≤ a.toNat := by
  rw [Bus.physical, BitVec.toNat_and]
  exact Nat.and_le_left

theorem readCmdWord_eq (s : Sys) (addr : U32) (xbusDmem : Bool) :
    readCmdWord s addr xbusDmem = (cmdWord s addr xbusDmem, s) := by
  have read : ∀ a : U32, a.toNat < 0x04040000 →
      Bus.read32 s a = (Bus.read32Const s (Bus.physical a), s) := fun a small => by
    simp [Bus.read32, isMmioRegion_below (Nat.lt_of_le_of_lt (physical_le a) small)]
  cases xbusDmem with
  | true =>
    have small : (0x04000000#32 + (addr &&& 0xFFF#32)).toNat < 0x04040000 := by
      have low : (addr &&& 0xFFF#32).toNat ≤ 0xFFF := by
        rw [BitVec.toNat_and]
        exact Nat.and_le_right
      rw [BitVec.toNat_add, show (0x04000000#32).toNat = 0x04000000 from rfl]
      omega
    exact read _ small
  | false =>
    have small : (addr &&& 0x00FFFFFF#32).toNat < 0x04040000 := by
      have low : (addr &&& 0x00FFFFFF#32).toNat ≤ 0x00FFFFFF := by
        rw [BitVec.toNat_and]
        exact Nat.and_le_right
      omega
    exact read _ small

theorem readCmd64_eq (s : Sys) (addr : U32) (xbusDmem : Bool) :
    readCmd64 s addr xbusDmem =
      (join64 (cmdWord s addr xbusDmem) (cmdWord s (addr + 4) xbusDmem), s) := by
  simp [readCmd64, readCmdWord_eq]

def cmdAt (s : Sys) (addr : U32) (xbusDmem : Bool) : U64 :=
  join64 (cmdWord s addr xbusDmem) (cmdWord s (addr + 4) xbusDmem)

def isTextureRectangle (cmd : U64) : Prop :=
  opcode cmd = TextureRectangle ∨ opcode cmd = TextureRectangleFlip

instance (cmd : U64) : Decidable (isTextureRectangle cmd) :=
  inferInstanceAs (Decidable (_ ∨ _))

/-- One command of the list, from the address `t.1` in the machine `t.2`. -/
def advance (xbusDmem : Bool) (t : U32 × Sys) : U32 × Sys :=
  let cmd := cmdAt t.2 t.1 xbusDmem
  if isTextureRectangle cmd then
    (t.1 + 16, executeCommandPair t.2 cmd (cmdAt t.2 (t.1 + 8) xbusDmem))
  else (t.1 + 8, executeCommand t.2 cmd)

section Independence

variable (d : DpRegisters) (busy : Bool) (s : Sys)

theorem cmdAt_withDp (addr : U32) (xbusDmem : Bool) :
    cmdAt (s.withDp d busy) addr xbusDmem = cmdAt s addr xbusDmem := rfl

theorem storePixel16_withDp (addr : U32) (p : U16) :
    storePixel16 (s.withDp d busy) addr p = (storePixel16 s addr p).withDp d busy := by
  by_cases h : (addr + 1).toNat ≥ s.bus.rdramSize
  · rw [storePixel16, storePixel16, if_pos h]
    exact if_pos h
  · rw [storePixel16, storePixel16, if_neg h]
    exact if_neg h

theorem storePixel32_withDp (addr : U32) (p : U32) :
    storePixel32 (s.withDp d busy) addr p = (storePixel32 s addr p).withDp d busy := by
  by_cases h : (addr + 3).toNat ≥ s.bus.rdramSize
  · rw [storePixel32, storePixel32, if_pos h]
    exact if_pos h
  · rw [storePixel32, storePixel32, if_neg h]
    exact if_neg h

theorem writeColorPixel_withDp (x y : ℤ) (pix16 : U16) (pix32 : U32) (use32 : Bool) :
    writeColorPixel (s.withDp d busy) x y pix16 pix32 use32 =
      (writeColorPixel s x y pix16 pix32 use32).withDp d busy := by
  have clip : clipPoint (s.withDp d busy).rdp x y = clipPoint s.rdp x y := rfl
  have image : (s.withDp d busy).rdp.colorImage = s.rdp.colorImage := rfl
  have size : (s.withDp d busy).bus.rdramSize = s.bus.rdramSize := rfl
  have addr : ∀ b, pixelAddr (s.withDp d busy).rdp x y b = pixelAddr s.rdp x y b := fun _ => rfl
  simp only [writeColorPixel, clip, image, size, addr, storePixel16_withDp, storePixel32_withDp]
  split_ifs <;> rfl

theorem writeFillPixel_withDp (x y : ℤ) :
    writeFillPixel (s.withDp d busy) x y = (writeFillPixel s x y).withDp d busy := by
  have clip : clipPoint (s.withDp d busy).rdp x y = clipPoint s.rdp x y := rfl
  have image : (s.withDp d busy).rdp.colorImage = s.rdp.colorImage := rfl
  have color : (s.withDp d busy).rdp.fillColor = s.rdp.fillColor := rfl
  have addr : ∀ b, pixelAddr (s.withDp d busy).rdp x y b = pixelAddr s.rdp x y b := fun _ => rfl
  simp only [writeFillPixel, clip, image, color, addr, writeColorPixel_withDp]
  split_ifs <;> rfl

theorem writeTexPixel_withDp (x y : ℤ) (sample : Option Sample) :
    writeTexPixel (s.withDp d busy) x y sample = (writeTexPixel s x y sample).withDp d busy := by
  cases sample with
  | none => rfl
  | some t =>
    simp only [writeTexPixel, writeColorPixel_withDp]
    rfl

theorem forPixels_withDp (c : Corners) {pixel : ℕ → ℕ → Sys → Sys}
    (each : ∀ row col t, pixel row col (t.withDp d busy) = (pixel row col t).withDp d busy) :
    forPixels c pixel (s.withDp d busy) = (forPixels c pixel s).withDp d busy :=
  (upTo_proj (Sys.withDp d busy) _ s fun row t =>
    upTo_proj (Sys.withDp d busy) _ t fun col u => (each row col u).symm).symm

theorem cmdFillRectangle_withDp (cmd : U64) :
    cmdFillRectangle (s.withDp d busy) cmd = (cmdFillRectangle s cmd).withDp d busy := by
  have image : (s.withDp d busy).rdp.colorImage = s.rdp.colorImage := rfl
  simp only [cmdFillRectangle, image]
  split_ifs
  · rfl
  · exact forPixels_withDp d busy s _ fun _ _ t => writeFillPixel_withDp d busy t _ _

theorem cmdTextureRectangle_withDp (hi lo : U64) (flip : Bool) :
    cmdTextureRectangle (s.withDp d busy) hi lo flip =
      (cmdTextureRectangle s hi lo flip).withDp d busy := by
  have image : (s.withDp d busy).rdp.colorImage = s.rdp.colorImage := rfl
  simp only [cmdTextureRectangle, image]
  split_ifs
  · rfl
  · exact forPixels_withDp d busy s _ fun _ _ t => writeTexPixel_withDp d busy t _ _ _
  · exact forPixels_withDp d busy s _ fun _ _ t => writeTexPixel_withDp d busy t _ _ _

theorem copyRdramToTmem_withDp (b : Bus) (dram tmemByte nbytes : U32) (r : Rdp) :
    copyRdramToTmem (b.withDp d) dram tmemByte nbytes (r.withBusy busy) =
      (copyRdramToTmem b dram tmemByte nbytes r).withBusy busy := by
  by_cases absent : b.rdramSize = 0
  · rw [copyRdramToTmem, copyRdramToTmem, if_pos absent]
    exact if_pos absent
  · rw [copyRdramToTmem, copyRdramToTmem, if_neg absent]
    exact if_neg absent

theorem cmdLoadBlock_withDp (b : Bus) (r : Rdp) (cmd : U64) :
    cmdLoadBlock (b.withDp d) (r.withBusy busy) cmd = (cmdLoadBlock b r cmd).withBusy busy := by
  by_cases valid : (!r.textureImage.valid) = true
  · rw [cmdLoadBlock, cmdLoadBlock, if_pos valid]
    exact if_pos valid
  · rw [cmdLoadBlock, cmdLoadBlock, if_neg valid]
    exact (if_neg valid).trans (copyRdramToTmem_withDp d busy b _ _ _ r)

theorem loadTileRow_withDp (b : Bus) (sl tl tw bpp lineBytes tmemByte : U32) (row : ℕ) (r : Rdp) :
    loadTileRow (b.withDp d) sl tl tw bpp lineBytes tmemByte row (r.withBusy busy) =
      (loadTileRow b sl tl tw bpp lineBytes tmemByte row r).withBusy busy :=
  copyRdramToTmem_withDp d busy b _ _ _ r

theorem loadTileRows_withDp (b : Bus) (sl tl tw bpp lineBytes tmemByte : U32) (n : ℕ) (r : Rdp) :
    upTo (loadTileRow (b.withDp d) sl tl tw bpp lineBytes tmemByte) n (r.withBusy busy) =
      (upTo (loadTileRow b sl tl tw bpp lineBytes tmemByte) n r).withBusy busy := by
  refine (upTo_proj (withBusy busy) n r ?_).symm
  intro row t
  exact (loadTileRow_withDp d busy b sl tl tw bpp lineBytes tmemByte row t).symm

theorem setTileAt_withBusy (r : Rdp) (i : BitVec 3) (t : RdpTile) :
    setTileAt (r.withBusy busy) i t = (setTileAt r i t).withBusy busy := rfl

theorem cmdLoadTile_withDp (b : Bus) (r : Rdp) (cmd : U64) :
    cmdLoadTile (b.withDp d) (r.withBusy busy) cmd = (cmdLoadTile b r cmd).withBusy busy := by
  have image : ∀ r : Rdp, (r.withBusy busy).textureImage = r.textureImage := fun _ => rfl
  have tiles : (r.withBusy busy).tiles = r.tiles := rfl
  simp only [cmdLoadTile, image, tiles, setTileAt_withBusy, loadTileRows_withDp]
  by_cases valid : (!r.textureImage.valid) = true
  · rw [if_pos valid, if_pos valid]
  · rw [if_neg valid, if_neg valid]

theorem executeCommandPair_withDp (hi lo : U64) :
    executeCommandPair (s.withDp d busy) hi lo = (executeCommandPair s hi lo).withDp d busy := by
  have count : countCommand (s.withDp d busy) = (countCommand s).withDp d busy := rfl
  simp only [executeCommandPair, count, cmdTextureRectangle_withDp]
  split_ifs <;> rfl

theorem executeCommand_withDp (cmd : U64) :
    executeCommand (s.withDp d busy) cmd = (executeCommand s cmd).withDp d busy := by
  have count : countCommand (s.withDp d busy) = (countCommand s).withDp d busy := rfl
  simp only [executeCommand, count]
  split
  case h_4 => exact cmdFillRectangle_withDp d busy (countCommand s) cmd
  case h_11 =>
    have load := cmdLoadBlock_withDp d busy (countCommand s).bus (countCommand s).rdp cmd
    simp only [Sys.withDp, load]
  case h_12 =>
    have load := cmdLoadTile_withDp d busy (countCommand s).bus (countCommand s).rdp cmd
    simp only [Sys.withDp, load]
  all_goals rfl

theorem advance_withDp (pc : U32) (xbusDmem : Bool) :
    advance xbusDmem (pc, s.withDp d busy) =
      ((advance xbusDmem (pc, s)).1, (advance xbusDmem (pc, s)).2.withDp d busy) := by
  simp only [advance, cmdAt_withDp, executeCommand_withDp, executeCommandPair_withDp]
  split_ifs <;> rfl

theorem walk_withDp (pc : U32) (xbusDmem : Bool) (n : ℕ) :
    (advance xbusDmem)^[n] (pc, s.withDp d busy) =
      (((advance xbusDmem)^[n] (pc, s)).1, ((advance xbusDmem)^[n] (pc, s)).2.withDp d busy) := by
  induction n with
  | zero => rfl
  | succ n ih => rw [Function.iterate_succ_apply', Function.iterate_succ_apply', ih, advance_withDp]

end Independence

section Count

variable (s : Sys)

theorem writeColorPixel_rdp (x y : ℤ) (pix16 : U16) (pix32 : U32) (use32 : Bool) :
    (writeColorPixel s x y pix16 pix32 use32).rdp = s.rdp := by
  unfold writeColorPixel storePixel16 storePixel32
  split_ifs <;> rfl

theorem writeFillPixel_cmds (x y : ℤ) :
    (writeFillPixel s x y).rdp.cmdsExecuted = s.rdp.cmdsExecuted := by
  simp only [writeFillPixel]
  split_ifs <;> simp [countFillPixel, writeColorPixel_rdp]

theorem writeTexPixel_cmds (x y : ℤ) (sample : Option Sample) :
    (writeTexPixel s x y sample).rdp.cmdsExecuted = s.rdp.cmdsExecuted := by
  cases sample with
  | none => rfl
  | some t => simp [writeTexPixel, writeColorPixel_rdp]

theorem forPixels_cmds (c : Corners) {pixel : ℕ → ℕ → Sys → Sys}
    (each : ∀ row col t, (pixel row col t).rdp.cmdsExecuted = t.rdp.cmdsExecuted) :
    (forPixels c pixel s).rdp.cmdsExecuted = s.rdp.cmdsExecuted := by
  refine upTo_preserves (fun t : Sys => t.rdp.cmdsExecuted = s.rdp.cmdsExecuted) _ rfl ?_
  intro row _ t same
  refine upTo_preserves (fun u : Sys => u.rdp.cmdsExecuted = s.rdp.cmdsExecuted) _ same ?_
  intro col _ u same
  rw [each, same]

theorem cmdFillRectangle_cmds (cmd : U64) :
    (cmdFillRectangle s cmd).rdp.cmdsExecuted = s.rdp.cmdsExecuted := by
  simp only [cmdFillRectangle]
  split
  · rfl
  · exact forPixels_cmds s _ fun _ _ t => writeFillPixel_cmds t _ _

theorem cmdTextureRectangle_cmds (hi lo : U64) (flip : Bool) :
    (cmdTextureRectangle s hi lo flip).rdp.cmdsExecuted = s.rdp.cmdsExecuted := by
  simp only [cmdTextureRectangle]
  split
  · rfl
  · exact forPixels_cmds s _ fun _ _ t => writeTexPixel_cmds t _ _ _

theorem copyRdramToTmem_cmds (b : Bus) (dram tmemByte nbytes : U32) (r : Rdp) :
    (copyRdramToTmem b dram tmemByte nbytes r).cmdsExecuted = r.cmdsExecuted := by
  unfold copyRdramToTmem
  split <;> rfl

theorem cmdLoadBlock_cmds (b : Bus) (r : Rdp) (cmd : U64) :
    (cmdLoadBlock b r cmd).cmdsExecuted = r.cmdsExecuted := by
  simp only [cmdLoadBlock]
  split
  · rfl
  · exact copyRdramToTmem_cmds b _ _ _ r

theorem cmdLoadTile_cmds (b : Bus) (r : Rdp) (cmd : U64) :
    (cmdLoadTile b r cmd).cmdsExecuted = r.cmdsExecuted := by
  simp only [cmdLoadTile]
  split
  · rfl
  · refine upTo_preserves (fun t : Rdp => t.cmdsExecuted = r.cmdsExecuted) _ rfl ?_
    intro row _ t same
    rw [loadTileRow, copyRdramToTmem_cmds, same]

theorem executeCommand_cmds (cmd : U64) :
    (executeCommand s cmd).rdp.cmdsExecuted = s.rdp.cmdsExecuted + 1 := by
  simp only [executeCommand]
  split
  case h_4 => exact cmdFillRectangle_cmds (countCommand s) cmd
  case h_11 => exact cmdLoadBlock_cmds (countCommand s).bus (countCommand s).rdp cmd
  case h_12 => exact cmdLoadTile_cmds (countCommand s).bus (countCommand s).rdp cmd
  all_goals rfl

theorem executeCommandPair_cmds (hi lo : U64) :
    (executeCommandPair s hi lo).rdp.cmdsExecuted = s.rdp.cmdsExecuted + 1 := by
  simp only [executeCommandPair]
  split_ifs
  · exact cmdTextureRectangle_cmds (countCommand s) hi lo false
  · exact cmdTextureRectangle_cmds (countCommand s) hi lo true
  · rfl

theorem walk_cmds (xbusDmem : Bool) (pc : U32) (n : ℕ) :
    ((advance xbusDmem)^[n] (pc, s)).2.rdp.cmdsExecuted =
      s.rdp.cmdsExecuted + BitVec.ofNat 64 n := by
  induction n with
  | zero => simp
  | succ n ih =>
    rw [Function.iterate_succ_apply', BitVec.ofNat_add, ← BitVec.add_assoc, ← ih, advance]
    split
    · exact executeCommandPair_cmds _ _ _
    · exact executeCommand_cmds _ _

end Count

/-- The walk from `s` meets `e` after `n` commands, and passes nothing past `e`
on the way. -/
structure Walks (xbusDmem : Bool) (m : Sys) (s e : U32) (n : ℕ) : Prop where
  meets : ((advance xbusDmem)^[n] (s, m)).1 = e
  below : ∀ j, j < n → ((advance xbusDmem)^[j] (s, m)).1 < e

/-- `e` is a command boundary of the list that starts at `s`. -/
def Boundary (xbusDmem : Bool) (m : Sys) (s e : U32) : Prop := ∃ n, Walks xbusDmem m s e n

section Walk

variable {xbusDmem : Bool} {m : Sys} {s e : U32} {n : ℕ}

theorem advance_pc (t : U32 × Sys) :
    (advance xbusDmem t).1 = t.1 + 8 ∨ (advance xbusDmem t).1 = t.1 + 16 := by
  simp only [advance]
  split
  · exact Or.inr rfl
  · exact Or.inl rfl

theorem Walks.progress (h : Walks xbusDmem m s e n) (range : e.toNat < 2 ^ 24) (j : ℕ)
    (hj : j ≤ n) : s.toNat + j ≤ (((advance xbusDmem)^[j] (s, m)).1).toNat := by
  induction j with
  | zero => simp
  | succ j ih =>
    have before := ih (by omega)
    have low := BitVec.lt_def.mp (h.below j hj)
    rw [Function.iterate_succ_apply']
    rcases advance_pc ((advance xbusDmem)^[j] (s, m)) with next | next
    · rw [next, BitVec.toNat_add, show (8 : U32).toNat = 8 from rfl]
      omega
    · rw [next, BitVec.toNat_add, show (16 : U32).toNat = 16 from rfl]
      omega

theorem Walks.length_le (h : Walks xbusDmem m s e n) (range : e.toNat < 2 ^ 24) :
    s.toNat + n ≤ e.toNat := by
  have := h.progress range n le_rfl
  rwa [h.meets] at this

theorem Walks.length_lt {e' : U32} {n' : ℕ} (h : Walks xbusDmem m s e n)
    (h' : Walks xbusDmem m s e' n') (before : e < e') : n < n' := by
  by_contra late
  rcases Nat.lt_or_eq_of_le (Nat.le_of_not_lt late) with passed | same
  · have := h.below n' passed
    rw [h'.meets] at this
    exact absurd before (BitVec.not_lt.mpr (BitVec.le_of_lt this))
  · have met := h.meets
    rw [← same, h'.meets] at met
    rw [met] at before
    exact BitVec.lt_irrefl e before

theorem Walks.zero_iff (h : Walks xbusDmem m s e n) : n = 0 ↔ e = s := by
  constructor
  · rintro rfl
    exact h.meets.symm
  · rintro rfl
    by_contra pos
    exact BitVec.lt_irrefl e (h.below 0 (by omega))

theorem Walks.start_lt (h : Walks xbusDmem m s e n) (ne : e ≠ s) : s < e := by
  have pos : 0 < n := by
    by_contra zero
    exact ne (h.zero_iff.mp (by omega))
  exact h.below 0 pos

theorem Walks.tail (h : Walks xbusDmem m s e (n+1)) :
    Walks xbusDmem (advance xbusDmem (s, m)).2 (advance xbusDmem (s, m)).1 e n :=
  ⟨h.meets, fun j hj => h.below (j + 1) (by omega)⟩

theorem runList_eq_walk (fuel : ℕ) (h : Walks xbusDmem m s e n) (range : e.toNat < 2 ^ 24)
    (enough : n ≤ fuel) : runList xbusDmem e fuel s m = ((advance xbusDmem)^[n] (s, m)).2 := by
  induction n generalizing fuel s m with
  | zero =>
    have here : s = e := h.meets
    cases fuel with
    | zero => rfl
    | succ fuel => simp [runList, here]
  | succ n ih =>
    have low : s < e := h.below 0 (by omega)
    obtain ⟨fuel, rfl⟩ : ∃ f, fuel = f + 1 := ⟨fuel - 1, by omega⟩
    have rest := ih fuel h.tail (by omega)
    have ahead := h.tail.length_le range
    rw [Function.iterate_succ_apply, runList, if_pos low]
    simp only [readCmd64_eq]
    change (if isTextureRectangle (cmdAt m s xbusDmem) then _ else _) = _
    by_cases tex : isTextureRectangle (cmdAt m s xbusDmem)
    · simp only [advance, if_pos tex] at rest ahead ⊢
      have room : ¬s + 16 > e := by
        rw [gt_iff_lt, BitVec.lt_def]
        omega
      rw [if_neg room]
      exact rest
    · simp only [advance, if_neg tex] at rest ahead ⊢
      exact rest

end Walk

end Rdp

namespace DpRegs

open DpRegisters Rdp

def xbus (m : Sys) : Bool := (m.bus.dpRegs.status &&& StXbusDma) != 0

def endWrites (m : Sys) (es : List U32) : Sys := es.foldl (fun m e => write m 0x04 e) m

def startEnd (m : Sys) (s : U32) (es : List U32) : Sys := endWrites (write m 0x00 s) es

def view (m : Sys) : Rdp × Bytes := (m.rdp, m.bus.rdram)

def IsRegister (x : U32) : Prop := x &&& 0x00FFFFF8 = x

instance (x : U32) : Decidable (IsRegister x) := inferInstanceAs (Decidable (_ = _))

theorem IsRegister.lt {x : U32} (h : IsRegister x) : x.toNat < 2 ^ 24 := by
  have low : (x &&& 0x00FFFFF8#32).toNat ≤ 0x00FFFFF8 := by
    rw [BitVec.toNat_and]
    exact Nat.and_le_right
  rw [show x &&& 0x00FFFFF8#32 = x from h] at low
  omega

theorem IsRegister.aligned {x : U32} (h : IsRegister x) : x &&& ~~~7 = x := by
  have same : x &&& 0x00FFFFF8 &&& ~~~7 = x &&& 0x00FFFFF8 := by
    rw [BitVec.and_assoc]
    rfl
  rwa [show x &&& 0x00FFFFF8 = x from h] at same

/-- The machine after a START write and END writes that had nothing to run. -/
structure Armed (m : Sys) (s : U32) (t : Sys) : Prop where
  same : ∃ d, t = m.withDp d m.rdp.busy
  start : t.bus.dpRegs.start = s
  valid : t.bus.dpRegs.status &&& StStartValid ≠ 0
  free : t.bus.dpRegs.status &&& StFreeze = 0
  xbus : xbus t = xbus m

def Idle (t : Sys) : Prop := t.bus.dpRegs.status &&& StStartValid = 0

section Writes

variable {m t : Sys} {s e : U32}

theorem armed_start (free : m.bus.dpRegs.status &&& StFreeze = 0) (reg : IsRegister s) :
    Armed m s (write m 0x00 s) where
  same := ⟨_, rfl⟩
  start := reg
  valid := (or_and_of_subset _ rfl).mpr (by decide)
  free := (or_and_of_disjoint _ rfl).trans free
  xbus := congrArg (· != 0) (or_and_of_disjoint _ rfl)

def loadEnd (t : Sys) (e : U32) : Sys := setStatus { t with bus.dpRegs.end_ := e } StEndValid

theorem loadEnd_status (t : Sys) (e : U32) {mask : U32} (other : StEndValid &&& mask = 0) :
    (loadEnd t e).bus.dpRegs.status &&& mask = t.bus.dpRegs.status &&& mask :=
  or_and_of_disjoint _ other

theorem write_end (t : Sys) (reg : IsRegister e) :
    write t 0x04 e =
      if t.bus.dpRegs.status &&& StStartValid ≠ 0 ∧ t.bus.dpRegs.start < e ∧
          t.bus.dpRegs.status &&& StFreeze = 0 then
        runCommands (loadEnd t e)
      else loadEnd t e := by
  have body : write t 0x04 e =
      if (loadEnd t (e &&& 0x00FFFFF8)).bus.dpRegs.status &&& StStartValid ≠ 0 ∧
          t.bus.dpRegs.start < e &&& 0x00FFFFF8 ∧
          (loadEnd t (e &&& 0x00FFFFF8)).bus.dpRegs.status &&& StFreeze = 0 then
        runCommands (loadEnd t (e &&& 0x00FFFFF8))
      else loadEnd t (e &&& 0x00FFFFF8) := rfl
  rw [body, show e &&& 0x00FFFFF8 = e from reg, loadEnd_status t e rfl, loadEnd_status t e rfl]

theorem Armed.load (h : Armed m s t) (e : U32) : Armed m s (loadEnd t e) where
  same := by
    obtain ⟨d, rfl⟩ := h.same
    exact ⟨_, rfl⟩
  start := h.start
  valid := by
    rw [loadEnd_status t e rfl]
    exact h.valid
  free := (loadEnd_status t e rfl).trans h.free
  xbus := (congrArg (· != 0) (loadEnd_status t e rfl)).trans h.xbus

theorem Armed.stay (h : Armed m s t) (reg : IsRegister s) : Armed m s (write t 0x04 s) := by
  have nothing : ¬t.bus.dpRegs.start < s := by
    rw [h.start]
    exact BitVec.lt_irrefl s
  rw [write_end t reg, if_neg fun run => nothing run.2.1]
  exact h.load s

theorem Idle.write_end (h : Idle t) (reg : IsRegister e) :
    Idle (write t 0x04 e) ∧ view (write t 0x04 e) = view t := by
  rw [DpRegs.write_end t reg, if_neg fun run => run.1 h]
  exact ⟨(loadEnd_status t e rfl).trans h, rfl⟩

theorem Idle.endWrites {es : List U32} (h : Idle t) (regs : ∀ x ∈ es, IsRegister x) :
    view (endWrites t es) = view t := by
  induction es generalizing t with
  | nil => rfl
  | cons e es ih =>
    have first := h.write_end (regs e (by simp))
    rw [← first.2]
    exact ih first.1 fun x hx => regs x (by simp [hx])

/-- What the list up to a boundary leaves behind after `n` commands. -/
def walked (m : Sys) (s : U32) (n : ℕ) : Rdp × Bytes :=
  let t := ((advance (DpRegs.xbus m))^[n] (s, m)).2
  (t.rdp.withBusy false, t.bus.rdram)

theorem runCommandList_walk {n : ℕ} {xb : Bool} (d : DpRegisters) (busy : Bool)
    (walk : Walks xb m s e n) (before : s < e) (regS : IsRegister s) (regE : IsRegister e) :
    runCommandList (m.withDp d busy) s e xb =
      (((advance xb)^[n] (s, m)).2).withDp d false := by
  have walk' : Walks xb (m.withDp d true) s e n := by
    constructor
    · rw [walk_withDp]
      exact walk.meets
    · intro j hj
      rw [walk_withDp]
      exact walk.below j hj
  have enough := walk.length_le regE.lt
  have run := runList_eq_walk e.toNat walk' regE.lt (by omega)
  rw [runCommandList, if_neg (BitVec.not_le.mpr before), regS.aligned, regE.aligned]
  change { runList xb e e.toNat s (m.withDp d true) with rdp.busy := false } = _
  rw [run, walk_withDp]
  rfl

/-- The status bits `run_commands` shows while it runs. -/
def markBusy (u : Sys) : Sys := clearStatus (setStatus u (StCmdBusy ||| StPipeBusy)) StCbufReady

theorem markBusy_xbus (u : Sys) : DpRegs.xbus (markBusy u) = DpRegs.xbus u :=
  congrArg (· != 0) ((andNot_and_of_disjoint _ rfl).trans (or_and_of_disjoint _ rfl))

theorem view_runCommands (u : Sys) :
    view (runCommands u) =
      view (runCommandList (markBusy u) u.bus.dpRegs.start u.bus.dpRegs.end_
        (DpRegs.xbus (markBusy u))) := by
  simp only [view, runCommands, markBusy, DpRegs.xbus, Mi.raise, Mi.notify, setStatus,
    clearStatus]

theorem idle_runCommands (u : Sys) : Idle (runCommands u) :=
  (or_and_of_disjoint _ rfl).trans (andNot_and_of_subset _ rfl)

/-- The END write that runs a pending START leaves what the walk to its
boundary leaves, and no START behind. -/
theorem Armed.fire {n : ℕ} (h : Armed m s t) (walk : Walks (DpRegs.xbus m) m s e n)
    (before : s < e) (regS : IsRegister s) (regE : IsRegister e) :
    view (write t 0x04 e) = walked m s n ∧ Idle (write t 0x04 e) := by
  have pending : t.bus.dpRegs.status &&& StStartValid ≠ 0 ∧ t.bus.dpRegs.start < e ∧
      t.bus.dpRegs.status &&& StFreeze = 0 := ⟨h.valid, h.start.symm ▸ before, h.free⟩
  rw [write_end t regE, if_pos pending]
  refine ⟨?_, idle_runCommands _⟩
  have loaded := h.load e
  obtain ⟨d, same⟩ := loaded.same
  have start : (loadEnd t e).bus.dpRegs.start = s := loaded.start
  have stop : (loadEnd t e).bus.dpRegs.end_ = e := rfl
  have marked :
      markBusy (loadEnd t e) = m.withDp (markBusy (loadEnd t e)).bus.dpRegs m.rdp.busy := by
    rw [same]
    rfl
  rw [view_runCommands, markBusy_xbus, loaded.xbus, start, stop, marked,
    runCommandList_walk _ _ walk before regS regE]
  rfl

end Writes

/-- A START that is not frozen and END writes in increasing order, all on
command boundaries of the list the START names. -/
structure EndSequence (m : Sys) (s : U32) (es : List U32) (e : U32) : Prop where
  notFrozen : m.bus.dpRegs.status &&& StFreeze = 0
  start : IsRegister s
  ends : ∀ x ∈ es ++ [e], IsRegister x
  increasing : (es ++ [e]).Pairwise (· < ·)
  boundaries : ∀ x ∈ es ++ [e], Boundary (xbus m) m s x

section Sequences

variable {m t : Sys} {s e : U32} {es : List U32}

theorem Armed.endWrites_stay (h : Armed m s t) (regS : IsRegister s) (all : ∀ x ∈ es, x = s) :
    Armed m s (endWrites t es) := by
  induction es generalizing t with
  | nil => exact h
  | cons x es ih =>
    have here : x = s := all x (by simp)
    subst here
    exact ih (h.stay regS) fun y hy => all y (by simp [hy])

/-- The first END write past the start is the last one that runs anything. -/
theorem Armed.endWrites_fire (h : Armed m s t) (regS : IsRegister s)
    (regs : ∀ x ∈ es, IsRegister x) (bounds : ∀ x ∈ es, Boundary (DpRegs.xbus m) m s x)
    (past : ∃ x ∈ es, x ≠ s) :
    ∃ x ∈ es, ∃ n, Walks (DpRegs.xbus m) m s x n ∧ x ≠ s ∧
      ∀ tail, (∀ y ∈ tail, IsRegister y) → view (endWrites t (es ++ tail)) = walked m s n := by
  induction es generalizing t with
  | nil => simp at past
  | cons x es ih =>
    by_cases here : x = s
    · obtain ⟨y, member, n, walk, ne, final⟩ := ih (h.stay (here ▸ regs x (by simp)))
        (fun y hy => regs y (by simp [hy])) (fun y hy => bounds y (by simp [hy]))
        (by simpa [here] using past)
      refine ⟨y, by simp [member], n, walk, ne, ?_⟩
      rw [here]
      exact final
    · obtain ⟨n, walk⟩ := bounds x (by simp)
      have fired := h.fire walk (walk.start_lt here) regS (regs x (by simp))
      refine ⟨x, by simp, n, walk, here, ?_⟩
      intro tail regsTail
      rw [← fired.1]
      apply fired.2.endWrites
      intro y hy
      rcases List.mem_append.mp hy with old | new
      · exact regs y (by simp [old])
      · exact regsTail y new

theorem walked_cmds (n : ℕ) :
    (walked m s n).1.cmdsExecuted = m.rdp.cmdsExecuted + BitVec.ofNat 64 n :=
  walk_cmds m (xbus m) s n

/-- Different walks inside the register range execute different numbers of
commands. -/
theorem walked_ne {x : U32} {n n' : ℕ} (walk : Walks (xbus m) m s x n)
    (walk' : Walks (xbus m) m s e n') (before : x < e) (reg : IsRegister e) :
    walked m s n ≠ walked m s n' := by
  intro same
  have fewer := walk.length_lt walk' before
  have bound := walk'.length_le reg.lt
  have range := reg.lt
  have counts : BitVec.ofNat 64 n = BitVec.ofNat 64 n' := by
    have := congrArg (fun v : Rdp × Bytes => v.1.cmdsExecuted) same
    simp only [walked_cmds] at this
    exact (BitVec.add_right_inj _).mp this
  have := congrArg BitVec.toNat counts
  rw [BitVec.toNat_ofNat, BitVec.toNat_ofNat, Nat.mod_eq_of_lt (by omega),
    Nat.mod_eq_of_lt (by omega)] at this
  omega

theorem endWrites_append (t : Sys) (es fs : List U32) :
    endWrites t (es ++ fs) = endWrites (endWrites t es) fs := List.foldl_append

/-- A single END write walks the list to its boundary: every command once, in
order. -/
theorem Armed.single {n : ℕ} (h : Armed m s t) (walk : Walks (DpRegs.xbus m) m s e n)
    (regS : IsRegister s) (regE : IsRegister e) :
    view (write t 0x04 e) = if e = s then view m else walked m s n := by
  by_cases here : e = s
  · subst here
    obtain ⟨d, same⟩ := (h.stay regE).same
    rw [if_pos rfl, same]
    rfl
  · rw [if_neg here]
    exact (h.fire walk (walk.start_lt here) regS regE).1

/-- The END writes leave what a single END write at the last of them leaves
exactly when no earlier one lies past the start. -/
theorem end_writes_eq_single_iff (seq : EndSequence m s es e) :
    view (startEnd m s (es ++ [e])) = view (startEnd m s [e]) ↔ ∀ x ∈ es, x = s := by
  have armed := armed_start seq.notFrozen seq.start
  have regE : IsRegister e := seq.ends e (by simp)
  obtain ⟨n', walk'⟩ := seq.boundaries e (by simp)
  have single := armed.single walk' seq.start regE
  constructor
  · intro same
    by_contra lost
    push Not at lost
    obtain ⟨x, member, n, walk, ne, final⟩ := armed.endWrites_fire seq.start
      (fun x hx => seq.ends x (by simp [hx])) (fun x hx => seq.boundaries x (by simp [hx])) lost
    have before : x < e := (List.pairwise_append.mp seq.increasing).2.2 x member e (by simp)
    have past : e ≠ s := by
      rintro rfl
      exact BitVec.lt_irrefl x (BitVec.lt_trans before (walk.start_lt ne))
    have left : view (startEnd m s (es ++ [e])) = walked m s n := final [e] (by simpa using regE)
    have right : view (startEnd m s [e]) = walked m s n' := single.trans (if_neg past)
    exact walked_ne walk walk' before regE (left ▸ right ▸ same)
  · intro all
    have stayed := armed.endWrites_stay seq.start all
    rw [startEnd, endWrites_append]
    exact (stayed.single walk' seq.start regE).trans single.symm

end Sequences

def fillColors : Sys := { bus := { rdram := fun i => if i % 8 = 0 then 0x37 else 0 } }

theorem fillColors_boundary (n : ℕ) (hn : n ≤ 2) :
    Boundary (xbus fillColors) fillColors 0 (BitVec.ofNat 32 (8 * n)) := by
  refine ⟨n, ?_, ?_⟩
  · interval_cases n <;> decide
  · interval_cases n <;> decide

theorem fillColors_sequence (n : ℕ) (hn : n < 2) :
    EndSequence fillColors 0 [BitVec.ofNat 32 (8 * n)] 16 where
  notFrozen := by decide
  start := by decide
  ends := by interval_cases n <;> simp <;> decide
  increasing := by interval_cases n <;> decide
  boundaries := by
    intro x hx
    rcases List.mem_append.mp hx with first | last
    · rw [List.mem_singleton.mp first]
      exact fillColors_boundary n (by omega)
    · rw [List.mem_singleton.mp last]
      exact fillColors_boundary 2 le_rfl

theorem end_writes_eq_single_at_start :
    view (startEnd fillColors 0 ([0] ++ [16])) = view (startEnd fillColors 0 [16]) ↔
      ∀ x ∈ [(0 : U32)], x = 0 :=
  end_writes_eq_single_iff (fillColors_sequence 0 (by decide))

/-- The second command is lost: one is executed where a single END write
executes two. -/
theorem second_end_write_loses :
    EndSequence fillColors 0 [8] 16 ∧
      view (startEnd fillColors 0 ([8] ++ [16])) ≠ view (startEnd fillColors 0 [16]) := by
  refine ⟨fillColors_sequence 1 (by decide), ?_⟩
  intro same
  have one : (startEnd fillColors 0 ([8] ++ [16])).rdp.cmdsExecuted = 1 := by decide
  have two : (startEnd fillColors 0 [16]).rdp.cmdsExecuted = 2 := by decide
  have counts := congrArg (fun v : Rdp × Bytes => v.1.cmdsExecuted) same
  simp only [view, one, two] at counts
  exact absurd counts (by decide)

end DpRegs

end N64
