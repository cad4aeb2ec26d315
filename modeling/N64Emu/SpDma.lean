import Mathlib.Data.Nat.ModEq
import N64Emu.Coherence
import N64Emu.Fills
import N64Emu.LowMasks

/-!
# Transfers of the SP

A transfer moves lines of bytes between one of the SP memories, which it wraps
around, and RDRAM. As long as the lines do not meet in RDRAM, a transfer back
stores in the SP memory what is there.
-/

set_option autoImplicit false

namespace N64.SpRegs

open Words Loops Fills

section Fields

variable (v : U32)

def lineLength : ℕ := v.toNat % 4096 + 1
def lineCount : ℕ := v.toNat / 4096 % 256 + 1
def lineSkip : ℕ := v.toNat / 2 ^ 20

theorem toNat_succ {x : U32} {n : ℕ} (value : x.toNat = n) (room : n + 1 < 2 ^ 32) :
    (x + 1).toNat = n + 1 := by
  rw [BitVec.toNat_add, value]
  exact Nat.mod_eq_of_lt room

theorem decodeLen_length : (decodeLen v).length.toNat = lineLength v :=
  toNat_succ (LowMasks.toNat_and_low (n := 12) v (by decide)) (by omega)

theorem decodeLen_count : (decodeLen v).count.toNat = lineCount v := by
  have low := LowMasks.toNat_and_low (n := 8) (v >>> 12) (by decide)
  rw [BitVec.toNat_ushiftRight, Nat.shiftRight_eq_div_pow] at low
  exact toNat_succ low (by omega)

theorem decodeLen_skip : (decodeLen v).skip.toNat = lineSkip v := by
  have low := LowMasks.toNat_and_low (n := 12) (v >>> 20) (by decide)
  rw [BitVec.toNat_ushiftRight, Nat.shiftRight_eq_div_pow] at low
  exact low.trans (Nat.mod_eq_of_lt (by omega))

theorem span_lt {line i : ℕ} (below : line < lineCount v) (inside : i < lineLength v) :
    line * (lineLength v + lineSkip v) + i < 2 ^ 21 := by
  have word := v.isLt
  have lines : line ≤ 255 := by
    unfold lineCount at below
    omega
  have length : lineLength v ≤ 4096 := by
    unfold lineLength
    omega
  have skip : lineSkip v ≤ 4095 := by
    unfold lineSkip
    omega
  have product := Nat.mul_le_mul lines (Nat.add_le_add length skip)
  omega

end Fields

section Bytes

/-- A byte moved between offset `sp` of an SP memory and offset `dr` of RDRAM. -/
def moveByte (toSp imem : Bool) (sp dr : ℕ) (b : Bus) : Bus :=
  if toSp then
    if imem then { b with spImem := Function.update b.spImem sp (b.rdram dr) }
    else { b with spDmem := Function.update b.spDmem sp (b.rdram dr) }
  else { b with rdram := Function.update b.rdram dr (spmem b imem sp) }

theorem dmaByte_bus {s : Sys} (nonzero : s.bus.rdramSize ≠ 0) (toSp imem : Bool) (mem dram : U32)
    (i : ℕ) (room : dram.toNat + i < 2 ^ 32) :
    (dmaByte toSp imem mem dram i s).bus =
      moveByte toSp imem ((mem.toNat + i) % 4096) ((dram.toNat + i) % s.bus.rdramSize) s.bus := by
  have sp : ((mem + BitVec.ofNat 32 i) &&& 0xFFF).toNat = (mem.toNat + i) % 4096 := by
    have low := LowMasks.toNat_and_low (n := 12) (mem + BitVec.ofNat 32 i) (by decide)
    rw [BitVec.toNat_add, BitVec.toNat_ofNat] at low
    exact low.trans (by omega)
  have dr : (dram + BitVec.ofNat 32 i).toNat = dram.toNat + i := by
    rw [BitVec.toNat_add, BitVec.toNat_ofNat]
    omega
  unfold dmaByte
  simp only [sp]
  cases toSp with
  | true =>
    have byte : s.bus.rdramByte (dram + BitVec.ofNat 32 i) =
        s.bus.rdram ((dram.toNat + i) % s.bus.rdramSize) := by
      unfold Bus.rdramByte
      rw [if_neg nonzero, dr]
    rw [if_pos rfl, byte]
    cases imem <;> rfl
  | false =>
    rw [if_neg Bool.false_ne_true]
    unfold Sys.setRdramByte
    rw [if_neg nonzero, dr]
    rfl

theorem moveByte_rdramSize (toSp imem : Bool) (sp dr : ℕ) (b : Bus) :
    (moveByte toSp imem sp dr b).rdramSize = b.rdramSize := by
  unfold moveByte
  split_ifs <;> rfl

end Bytes

section Lines

variable {toSp imem : Bool} {v : U32} {t : DmaState}

def runLines (toSp imem : Bool) (v : U32) (n : ℕ) (t : DmaState) : DmaState :=
  upTo (fun _ t => dmaLine toSp imem (decodeLen v) t) n t

theorem runLines_regs (toSp imem : Bool) (n : ℕ) (low : t.mem.toNat < 4096)
    (room : t.dram.toNat + n * (lineLength v + lineSkip v) < 2 ^ 32)
    (bytes : t.total.toNat + n * lineLength v < 2 ^ 32) :
    (runLines toSp imem v n t).mem.toNat = (t.mem.toNat + n * lineLength v) % 4096 ∧
      (runLines toSp imem v n t).dram.toNat = t.dram.toNat + n * (lineLength v + lineSkip v) ∧
      (runLines toSp imem v n t).total.toNat = t.total.toNat + n * lineLength v := by
  induction n with
  | zero =>
    rw [Nat.zero_mul, Nat.zero_mul]
    exact ⟨(Nat.mod_eq_of_lt low).symm, rfl, rfl⟩
  | succ n ih =>
    rw [Nat.succ_mul] at room bytes
    obtain ⟨mem, dram, total⟩ := ih (by omega) (by omega)
    have length := decodeLen_length v
    have skip := decodeLen_skip v
    rw [Nat.succ_mul, Nat.succ_mul]
    refine ⟨?_, ?_, ?_⟩
    · have masked := LowMasks.toNat_and_low (n := 12)
        ((runLines toSp imem v n t).mem + (decodeLen v).length) (by decide)
      rw [BitVec.toNat_add, mem, length] at masked
      exact masked.trans (by omega)
    · show ((runLines toSp imem v n t).dram + (decodeLen v).length + (decodeLen v).skip).toNat = _
      rw [BitVec.toNat_add, BitVec.toNat_add, dram, length, skip]
      omega
    · show ((runLines toSp imem v n t).total + (decodeLen v).length).toNat = _
      rw [BitVec.toNat_add, total, length]
      omega

def spOffset (mem : ℕ) (v : U32) (line i : ℕ) : ℕ := (mem + line * lineLength v + i) % 4096

def drOffset (size dram : ℕ) (v : U32) (line i : ℕ) : ℕ :=
  (dram + (line * (lineLength v + lineSkip v) + i)) % size

/-- The bytes of `n` lines. -/
def moveLines (toSp imem : Bool) (mem dram : ℕ) (v : U32) (n : ℕ) (b : Bus) : Bus :=
  grid (fun line i => moveByte toSp imem (spOffset mem v line i)
    (drOffset b.rdramSize dram v line i)) n (lineLength v) b

theorem moveLines_rdramSize (mem dram n : ℕ) (b : Bus) :
    (moveLines toSp imem mem dram v n b).rdramSize = b.rdramSize :=
  grid_preserves (fun c : Bus => c.rdramSize = b.rdramSize) rfl fun _ _ _ _ c kept => by
    rw [moveByte_rdramSize, kept]

/-- A machine whose bus is `b`, with RDRAM of `size` bytes. -/
def MovedTo (size : ℕ) (s : Sys) (b : Bus) : Prop := s.bus = b ∧ b.rdramSize = size

theorem dmaLine_bus (nonzero : t.sys.bus.rdramSize ≠ 0)
    (room : t.dram.toNat + lineLength v ≤ 2 ^ 32) :
    (dmaLine toSp imem (decodeLen v) t).sys.bus =
      upTo (fun i => moveByte toSp imem ((t.mem.toNat + i) % 4096)
        ((t.dram.toNat + i) % t.sys.bus.rdramSize)) (lineLength v) t.sys.bus := by
  have silent (s : Sys) (p : PhysicalAddress) (n : U32) :
      (s.notifyMemoryWrite p n).bus = s.bus := by
    unfold Sys.notifyMemoryWrite
    split <;> rfl
  have line : (dmaLine toSp imem (decodeLen v) t).sys.bus =
      (upTo (dmaByte toSp imem t.mem t.dram) (decodeLen v).length.toNat t.sys).bus := by
    unfold dmaLine
    cases toSp <;> exact silent _ _ _
  rw [line, decodeLen_length]
  have both : MovedTo t.sys.bus.rdramSize
      (upTo (dmaByte toSp imem t.mem t.dram) (lineLength v) t.sys)
      (upTo (fun i => moveByte toSp imem ((t.mem.toNat + i) % 4096)
        ((t.dram.toNat + i) % t.sys.bus.rdramSize)) (lineLength v) t.sys.bus) := by
    refine upTo_sim (MovedTo t.sys.bus.rdramSize) (lineLength v) ⟨rfl, rfl⟩ ?_
    rintro i lt s _ ⟨rfl, size⟩
    unfold MovedTo
    rw [dmaByte_bus (by rwa [size]) toSp imem t.mem t.dram i (by omega), size]
    exact ⟨rfl, (moveByte_rdramSize _ _ _ _ _).trans size⟩
  exact both.1

theorem runLines_bus (n : ℕ) (nonzero : t.sys.bus.rdramSize ≠ 0) (low : t.mem.toNat < 4096)
    (room : t.dram.toNat + n * (lineLength v + lineSkip v) < 2 ^ 32)
    (bytes : t.total.toNat + n * lineLength v < 2 ^ 32) :
    (runLines toSp imem v n t).sys.bus =
      moveLines toSp imem t.mem.toNat t.dram.toNat v n t.sys.bus := by
  induction n with
  | zero => rfl
  | succ n ih =>
    rw [Nat.succ_mul] at room bytes
    obtain ⟨mem, dram, -⟩ := runLines_regs toSp imem n low
      (show _ + n * (lineLength v + lineSkip v) < _ by omega)
      (show _ + n * lineLength v < _ by omega)
    have before := ih (by omega) (by omega)
    have size : (runLines toSp imem v n t).sys.bus.rdramSize = t.sys.bus.rdramSize := by
      rw [before, moveLines_rdramSize]
    have next : (runLines toSp imem v (n + 1) t).sys.bus =
        (dmaLine toSp imem (decodeLen v) (runLines toSp imem v n t)).sys.bus := rfl
    rw [next, dmaLine_bus (by rwa [size]) (by rw [dram]; omega), before, mem, dram,
      moveLines_rdramSize]
    refine upTo_congr _ fun i _ b => ?_
    unfold spOffset drOffset
    congr 1
    · omega
    · rw [Nat.add_assoc]

end Lines

section RoundTrip

variable {imem : Bool} {mem dram n : ℕ} {v : U32} {b : Bus}

theorem drOffset_inj {size : ℕ} (large : 2 ^ 21 ≤ size) {line i row j : ℕ}
    (hl : line < lineCount v) (hi : i < lineLength v) (hr : row < lineCount v)
    (hj : j < lineLength v) (same : drOffset size dram v line i = drOffset size dram v row j) :
    line = row ∧ i = j := by
  have first := span_lt v hl hi
  have second := span_lt v hr hj
  have sums : line * (lineLength v + lineSkip v) + i = row * (lineLength v + lineSkip v) + j := by
    have congruent : Nat.ModEq size (line * (lineLength v + lineSkip v) + i)
        (row * (lineLength v + lineSkip v) + j) := Nat.ModEq.add_left_cancel' dram same
    exact Nat.ModEq.eq_of_lt_of_lt congruent (by omega) (by omega)
  exact cell_inj (by omega) (by omega) sums

/-- What a transfer out of an SP memory leaves of the bus. -/
def Sides (b c : Bus) : Prop :=
  c.spDmem = b.spDmem ∧ c.spImem = b.spImem ∧ c.rdramSize = b.rdramSize

theorem moveByte_sides {c : Bus} (sp dr : ℕ) (h : Sides b c) :
    Sides b (moveByte false imem sp dr c) := h

theorem spmem_sides {c : Bus} (h : Sides b c) (sp : ℕ) : spmem c imem sp = spmem b imem sp := by
  unfold spmem
  rw [h.1, h.2.1]

theorem moveLines_sides : Sides b (moveLines false imem mem dram v n b) :=
  grid_preserves (Sides b) ⟨rfl, rfl, rfl⟩ fun _ _ _ _ _ h => moveByte_sides _ _ h

theorem moveLines_at (large : 2 ^ 21 ≤ b.rdramSize) {line i : ℕ} (hl : line < lineCount v)
    (hi : i < lineLength v) :
    (moveLines false imem mem dram v (lineCount v) b).rdram
        (drOffset b.rdramSize dram v line i) = spmem b imem (spOffset mem v line i) := by
  apply grid_written (Sides b)
    (fun c : Bus => c.rdram (drOffset b.rdramSize dram v line i)) hl hi ⟨rfl, rfl, rfl⟩
  · exact fun _ _ _ _ _ h => moveByte_sides _ _ h
  · intro c h
    exact (Function.update_self _ _ _).trans (spmem_sides h _)
  · intro row hr j hj apart c _
    apply Function.update_of_ne
    intro same
    obtain ⟨rfl, rfl⟩ := drOffset_inj large hl hi hr hj same
    exact apart.elim (fun h => h rfl) fun h => h rfl

theorem moveLines_other {k : ℕ}
    (apart : ∀ line < lineCount v, ∀ i < lineLength v, drOffset b.rdramSize dram v line i ≠ k) :
    (moveLines false imem mem dram v (lineCount v) b).rdram k = b.rdram k :=
  grid_untouched (fun _ => True) (fun c : Bus => c.rdram k) trivial (fun _ _ _ _ _ _ => trivial)
    fun line hl i hi _ _ => Function.update_of_ne (apart line hl i hi).symm _ _

theorem moveLines_back (held : ∀ line < lineCount v, ∀ i < lineLength v,
    b.rdram (drOffset b.rdramSize dram v line i) = spmem b imem (spOffset mem v line i)) :
    moveLines true imem mem dram v (lineCount v) b = b := by
  apply grid_preserves (fun c : Bus => c = b) rfl
  rintro line hl i hi _ rfl
  have byte := held line hl i hi
  unfold moveByte
  rw [if_pos rfl, byte]
  unfold spmem
  cases imem <;> simp only [if_true, Bool.false_eq_true, if_false, Function.update_eq_self]

def OnSpLines (mem : ℕ) (v : U32) (k : ℕ) : Prop :=
  ∃ line < lineCount v, ∃ i < lineLength v, spOffset mem v line i = k

/-- Where the lines hold the bytes `f` for their SP offsets, the SP memory gets these. -/
theorem moveLines_fills {f : ℕ → U8} (held : ∀ line < lineCount v, ∀ i < lineLength v,
    b.rdram (drOffset b.rdramSize dram v line i) = f (spOffset mem v line i)) {k : ℕ}
    (on_ : OnSpLines mem v k) :
    spmem (moveLines true imem mem dram v (lineCount v) b) imem k = f k := by
  obtain ⟨line, hl, i, hi, rfl⟩ := on_
  have stored (row j : ℕ) (c : Bus) (same : c.rdram = b.rdram) (k : ℕ) :
      spmem (moveByte true imem (spOffset mem v row j) (drOffset b.rdramSize dram v row j) c)
          imem k =
        if k = spOffset mem v row j then b.rdram (drOffset b.rdramSize dram v row j)
        else spmem c imem k := by
    unfold moveByte spmem
    cases imem <;> simp only [if_true, Bool.false_eq_true, if_false, same, Function.update_apply]
  have keeps (row j : ℕ) (c : Bus) (same : c.rdram = b.rdram) :
      (moveByte true imem (spOffset mem v row j) (drOffset b.rdramSize dram v row j) c).rdram =
        b.rdram := by
    unfold moveByte
    cases imem <;> exact same
  apply grid_reached (fun c : Bus => c.rdram = b.rdram)
    (fun c : Bus => spmem c imem (spOffset mem v line i) = f (spOffset mem v line i)) hl hi rfl
  · exact fun row _ j _ => keeps row j
  · intro c same
    rw [stored line i c same, if_pos rfl, held line hl i hi]
  · intro row hr j hj c same already
    rw [stored row j c same]
    split
    case isTrue here => rw [held row hr j hj, here]
    case isFalse => exact already

theorem moveLines_keeps {k : ℕ} (off : ¬ OnSpLines mem v k) :
    spmem (moveLines true imem mem dram v (lineCount v) b) imem k = spmem b imem k := by
  apply grid_untouched (fun _ => True) (fun c : Bus => spmem c imem k) trivial
    fun _ _ _ _ _ _ => trivial
  intro line hl i hi c _
  have apart : k ≠ spOffset mem v line i := fun here => off ⟨line, hl, i, hi, here.symm⟩
  unfold moveByte spmem
  cases imem
  · exact Function.update_of_ne apart _ _
  · exact Function.update_of_ne apart _ _

def OnLines (size : ℕ) (dram v : U32) (k : ℕ) : Prop :=
  ∃ line < lineCount v, ∃ i < lineLength v, drOffset size (dram.toNat % 2 ^ 24) v line i = k

end RoundTrip

section Transfer

variable (s : Sys) (toSp : Bool) (v : U32)

def onImem : Bool := (s.bus.spRegs.memAddr &&& 0x1FFF &&& 0x1000) != 0

def startState : DmaState :=
  { sys := setDmaBusy s
    mem := s.bus.spRegs.memAddr &&& 0x1FFF &&& 0xFFF
    dram := s.bus.spRegs.dramAddr &&& 0x00FFFFFF
    total := 0 }

def transfer : DmaState := runLines toSp (onImem s) v (lineCount v) (startState s)

def movedBus : Bus :=
  moveLines toSp (onImem s) (startState s).mem.toNat (startState s).dram.toNat v (lineCount v)
    (setDmaBusy s).bus

theorem doDma_eq : doDma s toSp v =
    Mi.raise
      { copyToRsp (transfer s toSp v).sys (onImem s) with
          bus.spRegs.memAddr := (if onImem s then 0x1000 else 0) ||| (transfer s toSp v).mem
          bus.spRegs.dramAddr := (transfer s toSp v).dram &&& 0x00FFFFFF
          bus.spRegs.lastDmaBytes := (transfer s toSp v).total
          bus.spRegs.status :=
            (copyToRsp (transfer s toSp v).sys (onImem s)).bus.spRegs.status &&&
              ~~~SpRegisters.StDmaBusy } MiIntr.SP := by
  unfold transfer runLines
  rw [← decodeLen_count]
  rfl

theorem startState_low : (startState s).mem.toNat < 4096 := by
  have low := LowMasks.toNat_and_low (n := 12) (s.bus.spRegs.memAddr &&& 0x1FFF) (by decide)
  exact lt_of_eq_of_lt low (Nat.mod_lt _ (by decide))

theorem startState_dram : (startState s).dram.toNat = s.bus.spRegs.dramAddr.toNat % 2 ^ 24 :=
  LowMasks.toNat_and_low (n := 24) s.bus.spRegs.dramAddr (by decide)

theorem lines_le : lineCount v * (lineLength v + lineSkip v) ≤ 2 ^ 21 := by
  have word := v.isLt
  have count : lineCount v ≤ 256 := by
    unfold lineCount
    omega
  have line : lineLength v + lineSkip v ≤ 8192 := by
    unfold lineLength lineSkip
    omega
  exact (Nat.mul_le_mul count line).trans (by decide)

theorem startState_room :
    (startState s).dram.toNat + lineCount v * (lineLength v + lineSkip v) < 2 ^ 32 := by
  have dram := startState_dram s
  have lines := lines_le v
  omega

theorem startState_bytes : (startState s).total.toNat + lineCount v * lineLength v < 2 ^ 32 := by
  have lines := lines_le v
  have fewer := Nat.mul_le_mul_left (lineCount v) (Nat.le_add_right (lineLength v) (lineSkip v))
  have zero : (startState s).total.toNat = 0 := rfl
  omega

theorem transfer_bus (nonzero : s.bus.rdramSize ≠ 0) :
    (transfer s toSp v).sys.bus = movedBus s toSp v :=
  runLines_bus (t := startState s) (lineCount v) nonzero (startState_low s) (startState_room s v)
    (startState_bytes s v)

theorem transfer_regs :
    (transfer s toSp v).mem.toNat =
        ((startState s).mem.toNat + lineCount v * lineLength v) % 4096 ∧
      (transfer s toSp v).dram.toNat =
        (startState s).dram.toNat + lineCount v * (lineLength v + lineSkip v) ∧
      (transfer s toSp v).total.toNat = lineCount v * lineLength v := by
  have regs := runLines_regs (t := startState s) toSp (onImem s) (lineCount v) (startState_low s)
    (startState_room s v) (startState_bytes s v)
  exact ⟨regs.1, regs.2.1, regs.2.2.trans (Nat.zero_add _)⟩

theorem transfer_rsp : (transfer s toSp v).sys.rsp.dmem = s.rsp.dmem ∧
    (transfer s toSp v).sys.rsp.imem = s.rsp.imem := by
  have lines := frame_dmaLines toSp (onImem s) (decodeLen v) (lineCount v) (startState s)
  constructor
  · refine lines.parts .rspDmem ?_
    cases toSp <;> cases onImem s <;> decide
  · refine lines.parts .rspImem ?_
    cases toSp <;> cases onImem s <;> decide

theorem doDma_memories (nonzero : s.bus.rdramSize ≠ 0) :
    (doDma s toSp v).bus.rdram = (movedBus s toSp v).rdram ∧
      (doDma s toSp v).bus.rdramSize = (movedBus s toSp v).rdramSize ∧
      (doDma s toSp v).bus.spDmem = (movedBus s toSp v).spDmem ∧
      (doDma s toSp v).bus.spImem = (movedBus s toSp v).spImem := by
  rw [doDma_eq, ← transfer_bus s toSp v nonzero]
  cases onImem s <;> exact ⟨rfl, rfl, rfl, rfl⟩

theorem doDma_rsp (nonzero : s.bus.rdramSize ≠ 0) :
    (doDma s toSp v).rsp.dmem =
        (if onImem s then s.rsp.dmem else (movedBus s toSp v).spDmem) ∧
      (doDma s toSp v).rsp.imem =
        (if onImem s then (movedBus s toSp v).spImem else s.rsp.imem) := by
  obtain ⟨dmem, imem⟩ := transfer_rsp s toSp v
  rw [doDma_eq, ← transfer_bus s toSp v nonzero]
  cases onImem s with
  | true => exact ⟨dmem, rfl⟩
  | false => exact ⟨rfl, imem⟩

theorem doDma_regs :
    (doDma s toSp v).bus.spRegs.memAddr =
        (if onImem s then 0x1000 else 0) ||| (transfer s toSp v).mem ∧
      (doDma s toSp v).bus.spRegs.dramAddr = (transfer s toSp v).dram &&& 0x00FFFFFF ∧
      (doDma s toSp v).bus.spRegs.lastDmaBytes = (transfer s toSp v).total := by
  rw [doDma_eq]
  exact ⟨rfl, rfl, rfl⟩

end Transfer

section Program

variable {s : Sys} (mem dram len : U32)

def program (s : Sys) (mem dram : U32) : Sys := write (write s 0x00 mem) 0x04 dram

theorem program_dram : (startState (program s mem dram)).dram.toNat = dram.toNat % 2 ^ 24 := by
  rw [startState_dram]
  have low := LowMasks.toNat_and_low (n := 24) dram (by decide)
  have masked : (program s mem dram).bus.spRegs.dramAddr.toNat = dram.toNat % 2 ^ 24 := low
  rw [masked, Nat.mod_mod]

def imemSelected : Bool := (mem &&& 0x1000) != 0

theorem program_onImem : onImem (program s mem dram) = imemSelected mem := by
  have bit : mem &&& 0x1FFF &&& 0x1FFF &&& 0x1000 = mem &&& 0x1000 := by
    rw [BitVec.and_assoc, BitVec.and_assoc]
    rfl
  exact congrArg (· != 0) bit

theorem program_mem : (startState (program s mem dram)).mem.toNat = mem.toNat % 4096 := by
  have low := LowMasks.toNat_and_low (n := 12) mem (by decide)
  have masked : (startState (program s mem dram)).mem = mem &&& 0xFFF := by
    show mem &&& 0x1FFF &&& 0x1FFF &&& 0xFFF = _
    rw [BitVec.and_assoc, BitVec.and_assoc]
    rfl
  rw [masked]
  exact low

def rspmem (r : Rsp) (imem : Bool) (off : ℕ) : U8 := if imem then r.imem off else r.dmem off

theorem stored_memories (large : 2 ^ 21 ≤ s.bus.rdramSize) (dmem : DmemAgree s)
    (imem : ImemAgree s) :
    let w := doDma (program s mem dram) false len
    w.bus.rdram = (movedBus (program s mem dram) false len).rdram ∧
      w.bus.rdramSize = s.bus.rdramSize ∧ w.bus.spDmem = s.bus.spDmem ∧
      w.bus.spImem = s.bus.spImem ∧ w.rsp.dmem = s.rsp.dmem ∧ w.rsp.imem = s.rsp.imem := by
  intro w
  have nonzero : s.bus.rdramSize ≠ 0 := by omega
  obtain ⟨rdram, size, data, code⟩ := doDma_memories (program s mem dram) false len nonzero
  obtain ⟨rspData, rspCode⟩ := doDma_rsp (program s mem dram) false len nonzero
  obtain ⟨keptData, keptCode, keptSize⟩ : Sides s.bus (movedBus (program s mem dram) false len) :=
    moveLines_sides (b := (setDmaBusy (program s mem dram)).bus)
  refine ⟨rdram, size.trans keptSize, data.trans keptData, code.trans keptCode, ?_, ?_⟩
  · rw [rspData, keptData, dmem]
    exact ite_self _
  · rw [rspCode, keptCode, imem]
    exact ite_self _

theorem restored_bus {w : Sys} (large : 2 ^ 21 ≤ s.bus.rdramSize)
    (rdram : w.bus.rdram = (movedBus (program s mem dram) false len).rdram)
    (size : w.bus.rdramSize = s.bus.rdramSize) (data : w.bus.spDmem = s.bus.spDmem)
    (code : w.bus.spImem = s.bus.spImem) :
    movedBus (program w mem dram) true len = (setDmaBusy (program w mem dram)).bus := by
  apply moveLines_back
  intro line hl i hi
  have same : (setDmaBusy (program w mem dram)).bus.rdram =
      (movedBus (program s mem dram) false len).rdram := rdram
  have sides : Sides (setDmaBusy (program s mem dram)).bus (setDmaBusy (program w mem dram)).bus :=
    ⟨data, code, size⟩
  rw [same, sides.2.2, spmem_sides sides]
  exact moveLines_at (b := (setDmaBusy (program s mem dram)).bus) large hl hi

theorem stored_lines (large : 2 ^ 21 ≤ s.bus.rdramSize) :
    let w := write (program s mem dram) 0x0C len
    ∀ line < lineCount len, ∀ i < lineLength len,
      w.bus.rdram (drOffset s.bus.rdramSize (dram.toNat % 2 ^ 24) len line i) =
        spmem s.bus (imemSelected mem) (spOffset (mem.toNat % 4096) len line i) := by
  intro w line hl i hi
  have nonzero : (program s mem dram).bus.rdramSize ≠ 0 := by
    show s.bus.rdramSize ≠ 0
    omega
  have rdram := (doDma_memories (program s mem dram) false len nonzero).1
  refine (congrFun rdram _).trans ?_
  rw [movedBus, program_dram, program_mem, program_onImem]
  exact moveLines_at (b := (setDmaBusy (program s mem dram)).bus) large hl hi

theorem loaded_lines {u : Sys} (nonzero : u.bus.rdramSize ≠ 0) {f : ℕ → U8}
    (held : ∀ line < lineCount len, ∀ i < lineLength len,
      u.bus.rdram (drOffset u.bus.rdramSize (dram.toNat % 2 ^ 24) len line i) =
        f (spOffset (mem.toNat % 4096) len line i)) (k : ℕ) :
    let q := doDma (program u mem dram) true len
    (OnSpLines (mem.toNat % 4096) len k → spmem q.bus (imemSelected mem) k = f k) ∧
    (¬ OnSpLines (mem.toNat % 4096) len k →
      spmem q.bus (imemSelected mem) k = spmem u.bus (imemSelected mem) k) ∧
    rspmem q.rsp (imemSelected mem) k = spmem q.bus (imemSelected mem) k := by
  intro q
  obtain ⟨-, -, data, code⟩ := doDma_memories (program u mem dram) true len nonzero
  obtain ⟨rspData, rspCode⟩ := doDma_rsp (program u mem dram) true len nonzero
  change q.bus.spDmem = _ at data
  change q.bus.spImem = _ at code
  change q.rsp.dmem = _ at rspData
  change q.rsp.imem = _ at rspCode
  clear_value q
  rw [← data, program_onImem] at rspData
  rw [← code, program_onImem] at rspCode
  have loaded : spmem q.bus (imemSelected mem) k =
      spmem (moveLines true (imemSelected mem) (mem.toNat % 4096) (dram.toNat % 2 ^ 24) len
        (lineCount len) (setDmaBusy (program u mem dram)).bus) (imemSelected mem) k := by
    have bytes : spmem q.bus (imemSelected mem) k =
        spmem (movedBus (program u mem dram) true len) (imemSelected mem) k := by
      unfold spmem
      rw [code, data]
    rw [bytes, movedBus, program_dram, program_mem, program_onImem]
  have busy : Sides u.bus (setDmaBusy (program u mem dram)).bus := ⟨rfl, rfl, rfl⟩
  have rdram : (setDmaBusy (program u mem dram)).bus.rdram = u.bus.rdram := rfl
  rw [← busy.2.2, ← rdram] at held
  rw [← spmem_sides busy]
  refine ⟨fun on_ => ?_, fun off => ?_, ?_⟩
  · rw [loaded]
    exact moveLines_fills held on_
  · rw [loaded]
    exact moveLines_keeps off
  · unfold rspmem spmem
    cases select : imemSelected mem with
    | true =>
      rw [select, if_pos rfl] at rspCode
      exact congrFun rspCode k
    | false =>
      rw [select, if_neg Bool.false_ne_true] at rspData
      exact congrFun rspData k

theorem round_trip_registers (s w : Sys) :
    let out := (doDma (program s mem dram) false len).bus.spRegs
    let back := (doDma (program w mem dram) true len).bus.spRegs
    out.lastDmaBytes.toNat = lineCount len * lineLength len ∧
      back.lastDmaBytes.toNat = lineCount len * lineLength len ∧
      back.memAddr = out.memAddr ∧ back.dramAddr = out.dramAddr := by
  intro out back
  obtain ⟨outMem, outDram, outTotal⟩ := doDma_regs (program s mem dram) false len
  obtain ⟨backMem, backDram, backTotal⟩ := doDma_regs (program w mem dram) true len
  obtain ⟨mem₁, dram₁, total₁⟩ := transfer_regs (program s mem dram) false len
  obtain ⟨mem₂, dram₂, total₂⟩ := transfer_regs (program w mem dram) true len
  have sameMem : (transfer (program w mem dram) true len).mem =
      (transfer (program s mem dram) false len).mem :=
    BitVec.eq_of_toNat_eq (mem₂.trans mem₁.symm)
  have sameDram : (transfer (program w mem dram) true len).dram =
      (transfer (program s mem dram) false len).dram :=
    BitVec.eq_of_toNat_eq (dram₂.trans dram₁.symm)
  refine ⟨(congrArg BitVec.toNat outTotal).trans total₁,
    (congrArg BitVec.toNat backTotal).trans total₂, ?_, ?_⟩
  · exact backMem.trans (Eq.trans (by rw [sameMem]; rfl) outMem.symm)
  · exact backDram.trans (Eq.trans (by rw [sameDram]) outDram.symm)

/-- A transfer of SP memory to RDRAM and back with the same registers leaves
both SP memories as they were, and RDRAM outside its lines. On the lines it
stores the bytes of the SP memory, and the transfer back loads them into
whatever the SP memory holds by then. -/
theorem sp_dma_round_trip (s : Sys) (mem dram len : U32) (large : 4 * 2 ^ 20 ≤ s.bus.rdramSize)
    (dmem : DmemAgree s) (imem : ImemAgree s) :
    let w := write (program s mem dram) 0x0C len
    let r := write (program w mem dram) 0x08 len
    r.bus.spDmem = s.bus.spDmem ∧ r.bus.spImem = s.bus.spImem ∧
    r.rsp.dmem = s.rsp.dmem ∧ r.rsp.imem = s.rsp.imem ∧
    (∀ line < lineCount len, ∀ i < lineLength len,
      w.bus.rdram (drOffset s.bus.rdramSize (dram.toNat % 2 ^ 24) len line i) =
        spmem s.bus (imemSelected mem) (spOffset (mem.toNat % 4096) len line i)) ∧
    (∀ u : Sys, u.bus.rdram = w.bus.rdram → u.bus.rdramSize = s.bus.rdramSize → ∀ k,
      let q := write (program u mem dram) 0x08 len
      (OnSpLines (mem.toNat % 4096) len k →
        spmem q.bus (imemSelected mem) k = spmem s.bus (imemSelected mem) k) ∧
      (¬ OnSpLines (mem.toNat % 4096) len k →
        spmem q.bus (imemSelected mem) k = spmem u.bus (imemSelected mem) k) ∧
      rspmem q.rsp (imemSelected mem) k = spmem q.bus (imemSelected mem) k) ∧
    (∀ k, ¬ OnLines s.bus.rdramSize dram len k →
      w.bus.rdram k = s.bus.rdram k ∧ r.bus.rdram k = s.bus.rdram k) ∧
    w.bus.spRegs.lastDmaBytes.toNat = lineCount len * lineLength len ∧
    r.bus.spRegs.lastDmaBytes.toNat = lineCount len * lineLength len ∧
    r.bus.spRegs.memAddr = w.bus.spRegs.memAddr ∧
    r.bus.spRegs.dramAddr = w.bus.spRegs.dramAddr := by
  intro w r
  have wide : 2 ^ 21 ≤ s.bus.rdramSize := by omega
  obtain ⟨rdram, size, data, code, rspData, rspCode⟩ :=
    stored_memories mem dram len wide dmem imem
  have nonzero : (program w mem dram).bus.rdramSize ≠ 0 := by
    have kept : (program w mem dram).bus.rdramSize = s.bus.rdramSize := size
    omega
  have back : movedBus (program w mem dram) true len = (setDmaBusy (program w mem dram)).bus :=
    restored_bus mem dram len wide rdram size data code
  obtain ⟨rdram', -, data', code'⟩ := doDma_memories (program w mem dram) true len nonzero
  obtain ⟨rspData', rspCode'⟩ := doDma_rsp (program w mem dram) true len nonzero
  rw [back] at rdram' data' code' rspData' rspCode'
  have wData : w.bus.spDmem = w.rsp.dmem := by
    rw [show w.bus.spDmem = s.bus.spDmem from data, show w.rsp.dmem = s.rsp.dmem from rspData]
    exact dmem
  have wCode : w.bus.spImem = w.rsp.imem := by
    rw [show w.bus.spImem = s.bus.spImem from code, show w.rsp.imem = s.rsp.imem from rspCode]
    exact imem
  have lines := stored_lines (s := s) mem dram len wide
  refine ⟨data'.trans data, code'.trans code, ?_, ?_, lines, ?_, ?_,
    round_trip_registers mem dram len s w⟩
  · refine rspData'.trans (Eq.trans ?_ rspData)
    show (if onImem (program w mem dram) then w.rsp.dmem else w.bus.spDmem) = w.rsp.dmem
    rw [wData, ite_self]
  · refine rspCode'.trans (Eq.trans ?_ rspCode)
    show (if onImem (program w mem dram) then w.bus.spImem else w.rsp.imem) = w.rsp.imem
    rw [wCode, ite_self]
  · intro u same sized
    have loads : write (program u mem dram) 0x08 len = doDma (program u mem dram) true len := rfl
    rw [loads]
    refine loaded_lines mem dram len (u := u) (by omega) fun line hl i hi => ?_
    rw [same, sized]
    exact lines line hl i hi
  · intro k apart
    have kept : w.bus.rdram k = s.bus.rdram k := by
      refine (congrFun rdram k).trans (moveLines_other ?_)
      intro line hl i hi here
      rw [program_dram] at here
      exact apart ⟨line, hl, i, hi, here⟩
    exact ⟨kept, (congrFun rdram' k).trans kept⟩

def countingSpDmem : Sys :=
  { bus := { spDmem := fun k => BitVec.ofNat 8 k }, rsp.dmem := fun k => BitVec.ofNat 8 k }

theorem sp_dma_round_trip_wrapping :
    (write (program (write (program countingSpDmem 0xFF8 0x5000) 0x0C 0x00801007) 0xFF8 0x5000)
      0x08 0x00801007).rsp.dmem 0xFFA = 0xFA :=
  congrFun
    (sp_dma_round_trip countingSpDmem 0xFF8 0x5000 0x00801007 (by decide) rfl rfl).2.2.1 0xFFA

end Program

end N64.SpRegs
