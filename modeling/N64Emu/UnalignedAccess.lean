import N64Emu.BusBytes
import N64Emu.CpuExecute
import N64Emu.LowMasks
import N64Emu.Translation
import N64Emu.UnalignedWords
import Mathlib.Data.List.Induction

/-!
# Unaligned access of the CPU and the RSP

The two instructions of a pair reach the words of the first and of the last
byte. The bytes they leave are those of the merges, so a pair is the unaligned
access exactly when the merges are.
-/

set_option autoImplicit false

namespace N64

open Words Insn ByteMerge Unaligned

def Cell.offset : Cell → ℕ
  | .rdram off => off
  | .dmem off => off
  | .imem off => off
  | .cart off => off
  | .pif off => off

def ramCell (rdramSize : ℕ) (addr : U32) : Option Cell :=
  let p := (Bus.physical addr).toNat
  if p < 0x03F00000 then if rdramSize ≠ 0 then some (.rdram (p % rdramSize)) else none
  else if 0x04000000 ≤ p ∧ p < 0x04001000 then some (.dmem (p - 0x04000000))
  else if 0x04001000 ≤ p ∧ p < 0x04002000 then some (.imem (p - 0x04001000))
  else none

/-- The word of `w` bytes that an address is in. -/
def wordOf (w : ℕ) (a : U64) : U64 := a &&& ~~~(BitVec.ofNat 64 (w - 1))

namespace Sys

def memory (s : Sys) : Cell → U8
  | .rdram off => s.bus.rdram off
  | .dmem off => s.bus.spDmem off
  | .imem off => s.bus.spImem off
  | .cart off => s.bus.cart off
  | .pif off => s.pif.pifRam off

def virtualByte (s : Sys) (isStore : Bool) (v : U64) : U8 :=
  match s.cpu.translateAddress v isStore with
  | .ok p => (Bus.read8 s p).1
  | .error _ => 0

def virtualCell (s : Sys) (v : U64) : Option Cell :=
  match s.cpu.translateAddress v true with
  | .ok p => ramCell s.bus.rdramSize p
  | .error _ => none

/-- The big-endian value of `w` bytes. -/
def virtualWord (s : Sys) (w : ℕ) (a : U64) : BitVec (8*w) :=
  bigEndian w fun i => s.virtualByte false (a + BitVec.ofNat 64 i)

/-- The words of the first and of the last byte are mapped and no registers. -/
def Readable (s : Sys) (w : ℕ) (a : U64) : Prop :=
  ∀ b ∈ [a, a + BitVec.ofNat 64 (w - 1)], ∃ p,
    s.cpu.translateAddress (wordOf w b) false = .ok p ∧ Bus.isMmioRegion (Bus.physical p) = false

/-- The words of the first and of the last byte are mapped to ordinary memory. -/
def Writable (s : Sys) (w : ℕ) (a : U64) : Prop :=
  ∀ b ∈ [a, a + BitVec.ofNat 64 (w - 1)], ∃ p cell,
    s.cpu.translateAddress (wordOf w b) true = .ok p ∧ ramCell s.bus.rdramSize p = some cell

/-- From `s` to `t` the bytes are stored at `a` on, and no other byte changes. -/
def StoresAt (s t : Sys) (w : ℕ) (a : U64) (bytes : ℕ → U8) : Prop :=
  (∀ i < w, ∀ cell, s.virtualCell (a + BitVec.ofNat 64 i) = some cell → t.memory cell = bytes i) ∧
    ∀ cell, (∀ i < w, s.virtualCell (a + BitVec.ofNat 64 i) ≠ some cell) →
      t.memory cell = s.memory cell

/-- The bytes from the word of `a` on. -/
def bytesFrom (s : Sys) (isStore : Bool) (w : ℕ) (a : U64) (i : ℕ) : U8 :=
  s.virtualByte isStore (wordOf w a + BitVec.ofNat 64 i)

end Sys

section Cells

variable {size : ℕ} {addr : U32} {cell : Cell}

theorem isMmioRegion_of_ramCell (ram : ramCell size addr = some cell) :
    Bus.isMmioRegion (Bus.physical addr) = false := by
  simp only [ramCell] at ram
  have below : (Bus.physical addr).toNat < 0x04002000 := by
    split_ifs at ram <;> omega
  have window : ¬(0x03F00000 ≤ (Bus.physical addr).toNat ∧
      (Bus.physical addr).toNat < 0x04000000) := by
    split_ifs at ram <;> omega
  simp only [Bus.isMmioRegion, Mmio.inRange, Mmio.SP_REGS_BASE, Mmio.SP_REGS2_BASE,
    Mmio.DP_CMD_BASE, Mmio.MI_BASE, Mmio.VI_BASE, Mmio.AI_BASE, Mmio.PI_BASE, Mmio.RI_BASE,
    Mmio.SI_BASE, Bool.or_eq_false_iff, Bool.and_eq_false_iff]
  simp
  omega

theorem memory_ramCell {s : Sys} (ram : ramCell s.bus.rdramSize addr = some cell) :
    (Bus.read8 s addr).1 = s.memory cell := by
  rw [Bus.read8_eq s addr (isMmioRegion_of_ramCell ram)]
  simp only [ramCell] at ram
  split_ifs at ram with rdram present dmem imem
  · cases ram
    exact Bus.read8Const_rdram s rfl rdram present
  · cases ram
    exact Bus.read8Const_dmem s rfl dmem
  · cases ram
    exact Bus.read8Const_imem s rfl imem

theorem memory_write8 {s : Sys} (b : U8) (ram : ramCell s.bus.rdramSize addr = some cell) :
    (Bus.write8 s addr b).memory = Function.update s.memory cell b := by
  have mmio := isMmioRegion_of_ramCell ram
  simp only [ramCell] at ram
  split_ifs at ram with rdram present dmem imem
  · cases ram
    rw [Bus.write8_rdram mmio rfl s b rdram present]
    funext other
    cases other <;> simp [Sys.memory, Sys.pokeRdram, Sys.emit, Function.update_apply]
  · cases ram
    rw [Bus.write8_dmem mmio rfl s b dmem]
    funext other
    cases other <;> simp [Sys.memory, Bus.storeDmem, Sys.pokeSpDmem, Sys.pokeRspDmem, Sys.emit,
      Function.update_apply]
  · cases ram
    rw [Bus.write8_imem mmio rfl s b imem]
    funext other
    cases other <;> simp [Sys.memory, Bus.storeImem, Sys.pokeSpImem, Sys.pokeRspImem, Sys.emit,
      Function.update_apply]

theorem fixed_write8 {s : Sys} (b : U8) (ram : ramCell s.bus.rdramSize addr = some cell) :
    (Bus.write8 s addr b).cpu = s.cpu ∧ (Bus.write8 s addr b).bus.rdramSize = s.bus.rdramSize := by
  have mmio := isMmioRegion_of_ramCell ram
  simp only [ramCell] at ram
  split_ifs at ram with rdram present dmem imem
  · rw [Bus.write8_rdram mmio rfl s b rdram present]
    exact ⟨rfl, rfl⟩
  · rw [Bus.write8_dmem mmio rfl s b dmem]
    exact ⟨rfl, rfl⟩
  · rw [Bus.write8_imem mmio rfl s b imem]
    exact ⟨rfl, rfl⟩

theorem sub_page {p base : ℕ} (above : base ≤ p) (aligned : base % 4096 = 0) :
    p % 4096 = (p - base) % 4096 := by
  omega

theorem ramCell_page (pages : 4096 ∣ size) (ram : ramCell size addr = some cell) :
    addr.toNat % 4096 = cell.offset % 4096 := by
  have low : (Bus.physical addr).toNat % 4096 = addr.toNat % 4096 := by
    rw [Bus.physical_toNat]
    exact Nat.mod_mod_of_dvd _ (by decide)
  rw [← low]
  simp only [ramCell] at ram
  split_ifs at ram with rdram present dmem imem
  · cases ram
    exact (Nat.mod_mod_of_dvd _ pages).symm
  · cases ram
    rw [Cell.offset, sub_page dmem.1 (by norm_num)]
  · cases ram
    rw [Cell.offset, sub_page imem.1 (by norm_num)]

end Cells

section Addresses

variable {w : ℕ} (wide : w = 4 ∨ w = 8) (a : U64)
include wide

theorem toNat_wordOf : (wordOf w a).toNat = a.toNat / w * w := by
  rcases wide with rfl | rfl
  · exact LowMasks.toNat_andNot_low (n := 2) a
  · exact LowMasks.toNat_andNot_low (n := 3) a

theorem toNat_offset : (a &&& BitVec.ofNat 64 (w - 1)).toNat = a.toNat % w := by
  rcases wide with rfl | rfl
  · exact LowMasks.toNat_and_low (n := 2) a (by decide)
  · exact LowMasks.toNat_and_low (n := 3) a (by decide)

theorem wordOf_add_offset : wordOf w a + BitVec.ofNat 64 (a.toNat % w) = a := by
  have word := toNat_wordOf wide a
  have small := a.isLt
  apply BitVec.eq_of_toNat_eq
  rw [BitVec.toNat_add, word, BitVec.toNat_ofNat]
  rcases wide with rfl | rfl <;> omega

theorem wordOf_add {k : ℕ} (inside : k < w) :
    wordOf w (wordOf w a + BitVec.ofNat 64 k) = wordOf w a := by
  have word := toNat_wordOf wide a
  have small := a.isLt
  apply BitVec.eq_of_toNat_eq
  rw [toNat_wordOf wide, BitVec.toNat_add, word, BitVec.toNat_ofNat]
  rcases wide with rfl | rfl <;> omega

theorem offset_add {k : ℕ} (inside : k < w) :
    (wordOf w a + BitVec.ofNat 64 k).toNat % w = k := by
  have word := toNat_wordOf wide a
  rw [BitVec.toNat_add, word, BitVec.toNat_ofNat]
  rcases wide with rfl | rfl <;> omega

theorem wordOf_last : wordOf w (a + BitVec.ofNat 64 (w - 1)) =
    wordOf w a + BitVec.ofNat 64 (secondWord w (a.toNat % w)) := by
  have word := toNat_wordOf wide a
  have small := a.isLt
  apply BitVec.eq_of_toNat_eq
  rw [toNat_wordOf wide, BitVec.toNat_add, BitVec.toNat_add, word, BitVec.toNat_ofNat,
    BitVec.toNat_ofNat, secondWord]
  rcases wide with rfl | rfl <;> split_ifs <;> omega

theorem offset_last : (a + BitVec.ofNat 64 (w - 1)).toNat % w = lastOffset w (a.toNat % w) := by
  rw [BitVec.toNat_add, BitVec.toNat_ofNat, lastOffset]
  rcases wide with rfl | rfl <;> split_ifs <;> omega

end Addresses

section Translated

variable {s : Sys} {w : ℕ} (wide : w = 4 ∨ w = 8) {b : U64} {isStore : Bool}
  {p : PhysicalAddress} (word : s.cpu.translateAddress (wordOf w b) isStore = .ok p)
include wide word

theorem aligned_of_word : p.toNat % w = 0 := by
  have page := s.cpu.translateAddress_page word
  rw [toNat_wordOf wide] at page
  rcases wide with rfl | rfl <;> omega

theorem translate_word {k : ℕ} (inside : k < w) :
    s.cpu.translateAddress (wordOf w b + BitVec.ofNat 64 k) isStore =
      .ok (p + BitVec.ofNat 32 k) := by
  have low : (BitVec.ofNat 64 (w - 1) : U64).toNat < 8 := by
    rcases wide with rfl | rfl <;> decide
  have base : (wordOf w b + BitVec.ofNat 64 k) &&& ~~~(BitVec.ofNat 64 (w - 1)) = wordOf w b :=
    wordOf_add wide b inside
  have offset : (((wordOf w b + BitVec.ofNat 64 k) &&& BitVec.ofNat 64 (w - 1)).setWidth 32 :
      U32) = BitVec.ofNat 32 k := by
    apply BitVec.eq_of_toNat_eq
    rw [BitVec.toNat_setWidth, toNat_offset wide, offset_add wide b inside, BitVec.toNat_ofNat]
  have byte := s.cpu.translateAddress_offset low (wordOf w b + BitVec.ofNat 64 k) isStore
    (p := p) (by rw [base, word])
  have aligned := aligned_of_word wide word
  have small := p.isLt
  rw [byte, offset]
  congr 1
  apply BitVec.eq_of_toNat_eq
  have value : (BitVec.ofNat 32 k).toNat = k := by
    rw [BitVec.toNat_ofNat]
    rcases wide with rfl | rfl <;> omega
  rw [BitVec.toNat_add, value]
  rcases wide with rfl | rfl
  · rw [LowMasks.toNat_or_low (n := 2) aligned (by omega), value]
    omega
  · rw [LowMasks.toNat_or_low (n := 3) aligned (by omega), value]
    omega

theorem virtualByte_word {k : ℕ} (inside : k < w) :
    s.virtualByte isStore (wordOf w b + BitVec.ofNat 64 k) = Bus.byte s p k := by
  rw [Sys.virtualByte, translate_word wide word inside]
  rfl

end Translated

/-- What the merges need of the typed accesses of the bus. -/
structure Typed (w : ℕ) (read : Sys → U32 → BitVec (8*w) × Sys)
    (write : Sys → U32 → BitVec (8*w) → Sys) : Prop where
  read_eq : ∀ s p, p.toNat % w = 0 → Bus.isMmioRegion (Bus.physical p) = false →
    read s p = (bigEndian w (Bus.byte s p), s)
  write_memory : ∀ s p v (cell : ℕ → Cell), p.toNat % w = 0 →
    (∀ i < w, ramCell s.bus.rdramSize (p + BitVec.ofNat 32 i) = some (cell i)) →
    (write s p v).memory = put s.memory cell (place v) w
  write_fixed : ∀ s p v (cell : ℕ → Cell), p.toNat % w = 0 →
    (∀ i < w, ramCell s.bus.rdramSize (p + BitVec.ofNat 32 i) = some (cell i)) →
    (write s p v).cpu = s.cpu ∧ (write s p v).bus.rdramSize = s.bus.rdramSize

theorem Sys.Same.memory {s t : Sys} (h : s.Same t) : s.memory = t.memory := by
  rw [h.eq_record]
  funext cell
  cases cell <;> rfl

section TypedAccess

variable {s : Sys} {p : U32} {cell : ℕ → Cell}

theorem writeBytes_ram (bs : List U8)
    (ram : ∀ i < bs.length, ramCell s.bus.rdramSize (p + BitVec.ofNat 32 i) = some (cell i)) :
    (Bus.writeBytes s p bs).memory = put s.memory cell (fun i => bs.getD i 0) bs.length ∧
      (Bus.writeBytes s p bs).cpu = s.cpu ∧
      (Bus.writeBytes s p bs).bus.rdramSize = s.bus.rdramSize := by
  induction bs using List.reverseRecOn with
  | nil => exact ⟨rfl, rfl, rfl⟩
  | append_singleton bs b ih =>
    rw [List.length_append, List.length_singleton] at ram ⊢
    obtain ⟨memory, cpu, size⟩ := ih fun i inside => ram i (by omega)
    have last := ram bs.length (by omega)
    rw [← size] at last
    have fixed := fixed_write8 b last
    rw [Bus.writeBytes_append, Bus.writeBytes, Bus.writeBytes]
    refine ⟨?_, ?_, ?_⟩
    · rw [memory_write8 b last, memory, put, List.getD_append_right _ _ _ _ le_rfl, Nat.sub_self]
      congr 1
      apply put_congr
      intro i inside
      exact (List.getD_append _ _ _ _ inside).symm
    · rw [fixed.1, cpu]
    · rw [fixed.2, size]

theorem mmio_of_ram {w : ℕ} (wide : w = 4 ∨ w = 8)
    (ram : ∀ i < w, ramCell s.bus.rdramSize (p + BitVec.ofNat 32 i) = some (cell i)) :
    Bus.isMmioRegion (Bus.physical p) = false := by
  have first := ram 0 (by omega)
  rw [BitVec.add_zero] at first
  exact isMmioRegion_of_ramCell first

theorem same_ram {w : ℕ} {v : BitVec (8*w)} {t : Sys} {bs : List U8} (length : bs.length = w)
    (bytes : ∀ i < w, bs.getD i 0 = place v i) (same : t.Same (Bus.writeBytes s p bs))
    (ram : ∀ i < w, ramCell s.bus.rdramSize (p + BitVec.ofNat 32 i) = some (cell i)) :
    t.memory = put s.memory cell (place v) w ∧ t.cpu = s.cpu ∧
      t.bus.rdramSize = s.bus.rdramSize := by
  subst length
  obtain ⟨memory, cpu, size⟩ := writeBytes_ram bs ram
  refine ⟨?_, ?_, ?_⟩
  · rw [same.memory, memory]
    exact put_congr bytes
  · rw [← cpu, same.symm.eq_record]
  · rw [← size, same.symm.eq_record]

theorem bigEndian_four (f : ℕ → U8) :
    (bigEndian 4 f : BitVec 32) = f 0 ++ f 1 ++ f 2 ++ f 3 := by
  have first : (0#0 ++ f 0 : BitVec 8) = f 0 := by
    apply BitVec.eq_of_getLsbD_eq
    intro i inside
    rw [BitVec.getLsbD_append, if_pos (by omega)]
  change (((0#0 ++ f 0 : BitVec 8) ++ f 1 ++ f 2 ++ f 3 : BitVec 32)) = _
  rw [first]

theorem bigEndian_eight (f : ℕ → U8) : (bigEndian 8 f : BitVec 64) =
    (f 0 ++ f 1 ++ f 2 ++ f 3) ++ (f 4 ++ f 5 ++ f 6 ++ f 7) := by
  change ((bigEndian 4 f : BitVec 32) ++ f 4 ++ f 5 ++ f 6 ++ f 7 : BitVec 64) = _
  rw [bigEndian_four]
  apply BitVec.eq_of_toNat_eq
  simp only [LowMasks.toNat_append]
  omega

theorem bytes_word (v : U32) {i : ℕ} (inside : i < 4) :
    (Bus.bigEndian32 v).getD i 0 = place (w := 4) v i := by
  interval_cases i <;> rfl

theorem bytes_double (v : U64) {i : ℕ} (inside : i < 8) :
    (Bus.bigEndian64 v).getD i 0 = place (w := 8) v i := by
  interval_cases i <;>
    simp [Bus.bigEndian64, Bus.bigEndian32, place, extractLsb'_shift_high,
      extractLsb'_setWidth_low]

theorem typed_word : Typed 4 Bus.read32 Bus.write32 where
  read_eq := fun s p aligned mmio => by
    rw [Bus.read32_eq s mmio (by omega)]
    exact Prod.ext (bigEndian_four (Bus.byte s p)).symm rfl
  write_memory := fun s p v cell aligned ram => by
    have same := Bus.write32_same s (mmio_of_ram (Or.inl rfl) ram) (by omega) v
    exact (same_ram rfl (fun _ => bytes_word v) same ram).1
  write_fixed := fun s p v cell aligned ram => by
    have same := Bus.write32_same s (mmio_of_ram (Or.inl rfl) ram) (by omega) v
    exact (same_ram rfl (fun _ => bytes_word v) same ram).2

theorem typed_double : Typed 8 Bus.read64 Bus.write64 where
  read_eq := fun s p aligned mmio => by
    rw [Bus.read64_eq s mmio (by omega)]
    exact Prod.ext (bigEndian_eight (Bus.byte s p)).symm rfl
  write_memory := fun s p v cell aligned ram => by
    have same := Bus.write64_same s (mmio_of_ram (Or.inr rfl) ram) (by omega) v
    exact (same_ram rfl (fun _ => bytes_double v) same ram).1
  write_fixed := fun s p v cell aligned ram => by
    have same := Bus.write64_same s (mmio_of_ram (Or.inr rfl) ram) (by omega) v
    exact (same_ram rfl (fun _ => bytes_double v) same ram).2

end TypedAccess

/-- Two instructions of a pair on one register, at the first and at the last byte. -/
structure PairAt (w : ℕ) (first : Sys → U32 → Sys) (s : Sys) (l r : U32) (a : U64) : Prop where
  sameReg : rt r = rt l
  firstByte : s.cpu.effective l = a
  lastByte : (first s l).cpu.effective r = a + BitVec.ofNat 64 (w - 1)

section Bytes

variable {s : Sys} {w : ℕ} (wide : w = 4 ∨ w = 8) {a : U64} {isStore : Bool}
include wide

theorem address_from (j : ℕ) :
    wordOf w a + BitVec.ofNat 64 (a.toNat % w + j) = a + BitVec.ofNat 64 j := by
  rw [BitVec.ofNat_add, ← BitVec.add_assoc, wordOf_add_offset wide]

theorem bytesFrom_offset (j : ℕ) :
    s.bytesFrom isStore w a (j + a.toNat % w) = s.virtualByte isStore (a + BitVec.ofNat 64 j) := by
  rw [Sys.bytesFrom, Nat.add_comm, address_from wide]

theorem virtualWord_eq : s.virtualWord w a =
    bigEndian w fun j => s.bytesFrom false w a (j + a.toNat % w) := by
  apply eq_of_place
  intro j inside
  rw [Sys.virtualWord, place_bigEndian inside, place_bigEndian inside, bytesFrom_offset wide]

theorem bytesFrom_first {p : PhysicalAddress}
    (word : s.cpu.translateAddress (wordOf w a) isStore = .ok p) {j : ℕ} (inside : j < w) :
    s.bytesFrom isStore w a j = Bus.byte s p j :=
  virtualByte_word wide word inside

theorem bytesFrom_second {p : PhysicalAddress}
    (word : s.cpu.translateAddress (wordOf w (a + BitVec.ofNat 64 (w - 1))) isStore = .ok p)
    {j : ℕ} (inside : j < w) :
    s.bytesFrom isStore w a (secondWord w (a.toNat % w) + j) = Bus.byte s p j := by
  rw [← virtualByte_word wide word inside, wordOf_last wide, Sys.bytesFrom, BitVec.ofNat_add,
    ← BitVec.add_assoc]

end Bytes

namespace Cpu

section Loads

variable {w : ℕ} {read : Sys → U32 → BitVec (8*w) × Sys}
  {write : Sys → U32 → BitVec (8*w) → Sys} (narrow : U64 → BitVec (8*w))
  (extend : BitVec (8*w) → U64)

def pairLoad (read : Sys → U32 → BitVec (8*w) × Sys)
    (merge : BitVec (8*w) → BitVec (8*w) → ℕ → BitVec (8*w)) (s : Sys) (insn : U32) : Sys :=
  mergeLoad read w s insn fun mem n c =>
    c.writeGpr (rt insn) (extend (merge (narrow (c.gpr (rt insn))) mem n))

theorem translateAddress_writeGpr (c : Cpu) (i : BitVec 5) (v : U64) :
    (c.writeGpr i v).translateAddress = c.translateAddress := by
  unfold writeGpr
  split <;> rfl

theorem gpr_writeGpr_self (c : Cpu) {i : BitVec 5} (nonzero : i ≠ 0) (v : U64) :
    (c.writeGpr i v).gpr i = v := by
  rw [writeGpr, if_pos nonzero]
  exact Function.update_self _ _ _

theorem writeGpr_ignored (c : Cpu) (v : U64) : c.writeGpr 0 v = c :=
  if_neg (not_not.mpr rfl)

theorem byte_same {s t : Sys} (same : t = { s with cpu := t.cpu, log := t.log }) {p : U32} {i : ℕ}
    (block : p.toNat % 16 + i < 16) (mmio : Bus.isMmioRegion (Bus.physical p) = false) :
    Bus.byte t p i = Bus.byte s p i := by
  rw [Bus.byte_eq t mmio i block, Bus.byte_eq s mmio i block, same]
  rfl

variable (typed : Typed w read write) (wide : w = 4 ∨ w = 8)
  (merge : BitVec (8*w) → BitVec (8*w) → ℕ → BitVec (8*w))
include typed wide

theorem pairLoad_eq (s : Sys) (insn : U32) {p : PhysicalAddress}
    (word : s.cpu.translateAddress (wordOf w (s.cpu.effective insn)) false = .ok p)
    (mmio : Bus.isMmioRegion (Bus.physical p) = false) :
    pairLoad narrow extend read merge s insn = (s.emit (.load p w)).onCpu fun c =>
      c.writeGpr (rt insn) (extend (merge (narrow (c.gpr (rt insn)))
        (bigEndian w (Bus.byte (s.emit (.load p w)) p)) ((s.cpu.effective insn).toNat % w))) := by
  have value := typed.read_eq (s.emit (.load p w)) p (aligned_of_word wide word) mmio
  have probe : s.cpu.translateOrRaise (wordOf w (s.cpu.effective insn)) (s.cpu.effective insn)
      false = .ok p := by
    rw [translateOrRaise, word]
  rw [pairLoad, mergeLoad]
  simp only [toNat_offset wide]
  rw [wordOf] at probe
  rw [probe, Sys.access, readInto, value]

theorem load_pair_iff (narrow_extend : ∀ x, narrow (extend x) = x) {s : Sys} {l r : U32} {a : U64}
    (pair : PairAt w (pairLoad narrow extend read leftLoad) s l r a) (readable : s.Readable w a) :
    (pairLoad narrow extend read rightLoad (pairLoad narrow extend read leftLoad s l) r).cpu.gpr
        (rt l) = extend (s.virtualWord w a) ↔
      if rt l = 0 then s.cpu.gpr (rt l) = extend (s.virtualWord w a)
      else LoadMeets w (a.toNat % w) (place (narrow (s.cpu.gpr (rt l))))
        (s.bytesFrom false w a) := by
  obtain ⟨p, word, mmio⟩ := readable a (by simp)
  obtain ⟨q, lastWord, lastMmio⟩ := readable (a + BitVec.ofNat 64 (w - 1)) (by simp)
  have injective : ∀ x y, extend x = extend y ↔ x = y := by
    intro x y
    constructor
    · intro same
      rw [← narrow_extend x, same, narrow_extend]
    · exact congrArg extend
  have aligned := aligned_of_word wide word
  have lastAligned := aligned_of_word wide lastWord
  have first := pairLoad_eq narrow extend typed wide leftLoad s l (pair.firstByte ▸ word) mmio
  rw [pair.firstByte] at first
  have second := pairLoad_eq narrow extend typed wide rightLoad
    (pairLoad narrow extend read leftLoad s l) r (p := q) (by
      rw [pair.lastByte, first, Sys.onCpu_cpu, translateAddress_writeGpr]
      exact lastWord) lastMmio
  have here : ∀ j < w, place (bigEndian w (Bus.byte (s.emit (.load p w)) p)) j =
      s.bytesFrom false w a j := by
    intro j inside
    rw [place_bigEndian inside, bytesFrom_first wide word inside]
    exact byte_same rfl (by rcases wide with rfl | rfl <;> omega) mmio
  have there : ∀ j < w, place (bigEndian w (Bus.byte
      ((pairLoad narrow extend read leftLoad s l).emit (.load q w)) q)) j =
      s.bytesFrom false w a (secondWord w (a.toNat % w) + j) := by
    intro j inside
    rw [place_bigEndian inside, bytesFrom_second wide lastWord inside, first]
    exact byte_same rfl (by rcases wide with rfl | rfl <;> omega) lastMmio
  have two : 1 < w := by omega
  have offset : a.toNat % w < w := Nat.mod_lt _ (by omega)
  have law := load_pair (narrow (s.cpu.gpr (rt l))) two offset here there
  have middle : ((pairLoad narrow extend read leftLoad s l).emit (.load q w)).cpu =
      s.cpu.writeGpr (rt l) (extend (leftLoad (narrow (s.cpu.gpr (rt l)))
        (bigEndian w (Bus.byte (s.emit (.load p w)) p)) (a.toNat % w))) := by
    rw [first]
    rfl
  rw [second, pair.lastByte, offset_last wide, pair.sameReg, Sys.onCpu_cpu, middle]
  by_cases zero : rt l = 0
  · rw [if_pos zero, zero, writeGpr_ignored, writeGpr_ignored]
  · rw [if_neg zero, gpr_writeGpr_self _ zero, injective, virtualWord_eq wide, ← law,
      gpr_writeGpr_self _ zero, narrow_extend]

end Loads

section Stores

variable {w : ℕ} {read : Sys → U32 → BitVec (8*w) × Sys}
  {write : Sys → U32 → BitVec (8*w) → Sys} (narrow : U64 → BitVec (8*w))

def pairStore (read : Sys → U32 → BitVec (8*w) × Sys) (write : Sys → U32 → BitVec (8*w) → Sys)
    (merge : BitVec (8*w) → BitVec (8*w) → ℕ → BitVec (8*w)) (s : Sys) (insn : U32) : Sys :=
  let reg := narrow (s.cpu.gpr (rt insn))
  mergeStore read write w s insn fun mem n => merge mem reg n

variable (typed : Typed w read write) (wide : w = 4 ∨ w = 8)
  (merge : BitVec (8*w) → BitVec (8*w) → ℕ → BitVec (8*w))
include typed wide

theorem pairStore_spec (s : Sys) (insn : U32) (cell : ℕ → Cell) {p : PhysicalAddress}
    (word : s.cpu.translateAddress (wordOf w (s.cpu.effective insn)) true = .ok p)
    (ram : ∀ i < w, ramCell s.bus.rdramSize (p + BitVec.ofNat 32 i) = some (cell i)) :
    ∃ mem, (∀ j < w, place mem j = s.memory (cell j)) ∧
      (pairStore narrow read write merge s insn).memory = put s.memory cell
        (place (merge mem (narrow (s.cpu.gpr (rt insn))) ((s.cpu.effective insn).toNat % w))) w ∧
      (pairStore narrow read write merge s insn).cpu = s.cpu.clearLlBit ∧
      (pairStore narrow read write merge s insn).bus.rdramSize = s.bus.rdramSize := by
  have mmio := mmio_of_ram wide ram
  have aligned := aligned_of_word wide word
  have value := typed.read_eq (s.emit (.load p w)) p aligned mmio
  have probe : s.cpu.translateOrRaise (wordOf w (s.cpu.effective insn)) (s.cpu.effective insn)
      true = .ok p := by
    rw [translateOrRaise, word]
  have result : pairStore narrow read write merge s insn =
      (write ((s.emit (.load p w)).emit (.store p w)) p
        (merge (bigEndian w (Bus.byte (s.emit (.load p w)) p)) (narrow (s.cpu.gpr (rt insn)))
          ((s.cpu.effective insn).toNat % w))).onCpu clearLlBit := by
    rw [pairStore, mergeStore]
    simp only [toNat_offset wide]
    rw [wordOf] at probe
    rw [probe, Sys.access, value]
  have memory := typed.write_memory ((s.emit (.load p w)).emit (.store p w)) p
    (merge (bigEndian w (Bus.byte (s.emit (.load p w)) p)) (narrow (s.cpu.gpr (rt insn)))
      ((s.cpu.effective insn).toNat % w)) cell aligned ram
  have fixed := typed.write_fixed ((s.emit (.load p w)).emit (.store p w)) p
    (merge (bigEndian w (Bus.byte (s.emit (.load p w)) p)) (narrow (s.cpu.gpr (rt insn)))
      ((s.cpu.effective insn).toNat % w)) cell aligned ram
  refine ⟨bigEndian w (Bus.byte (s.emit (.load p w)) p), ?_, ?_, ?_, ?_⟩
  · intro j inside
    rw [place_bigEndian inside]
    exact memory_ramCell (s := s.emit (.load p w)) (ram j inside)
  · rw [result]
    exact memory
  · rw [result, Sys.onCpu_cpu, fixed.1]
    rfl
  · rw [result]
    exact fixed.2

end Stores

end Cpu

section VirtualCells

variable {s : Sys} {w : ℕ} (wide : w = 4 ∨ w = 8) {a : U64}

theorem virtualCell_page (pages : 4096 ∣ s.bus.rdramSize) {v : U64} {cell : Cell}
    (ram : s.virtualCell v = some cell) : v.toNat % 4096 = cell.offset % 4096 := by
  rw [Sys.virtualCell] at ram
  cases found : s.cpu.translateAddress v true with
  | error fault =>
    rw [found] at ram
    cases ram
  | ok p =>
    rw [found] at ram
    rw [← ramCell_page pages ram]
    exact (s.cpu.translateAddress_page found).symm

theorem ramCell_add {size : ℕ} {p : U32} {cell : Cell} {k : ℕ} (block : p.toNat % 16 + k < 16)
    (ram : ramCell size p = some cell) :
    ∃ next, ramCell size (p + BitVec.ofNat 32 k) = some next := by
  have offset := Bus.physical_add p k block
  have low := Bus.physical_toNat p
  simp only [ramCell] at ram ⊢
  rw [offset]
  split_ifs at ram with rdram present dmem imem
  · rw [if_pos (by omega), if_pos present]
    exact ⟨_, rfl⟩
  · rw [if_neg (by omega), if_pos (by omega)]
    exact ⟨_, rfl⟩
  · rw [if_neg (by omega), if_neg (by omega), if_pos (by omega)]
    exact ⟨_, rfl⟩

include wide

theorem virtualCell_word {b : U64} {p : PhysicalAddress}
    (word : s.cpu.translateAddress (wordOf w b) true = .ok p) {k : ℕ} (inside : k < w) :
    s.virtualCell (wordOf w b + BitVec.ofNat 64 k) =
      ramCell s.bus.rdramSize (p + BitVec.ofNat 32 k) := by
  rw [Sys.virtualCell, translate_word wide word inside]

theorem virtualCell_apart (pages : 4096 ∣ s.bus.rdramSize) {cell : Cell} {i j : ℕ}
    (first : s.virtualCell (wordOf w a + BitVec.ofNat 64 i) = some cell)
    (second : s.virtualCell (wordOf w a + BitVec.ofNat 64 j) = some cell)
    (small : i < w + w) (large : j < w + w) : i = j := by
  have page := (virtualCell_page pages first).trans (virtualCell_page pages second).symm
  rw [BitVec.toNat_add, BitVec.toNat_add, BitVec.toNat_ofNat, BitVec.toNat_ofNat] at page
  rcases wide with rfl | rfl <;> omega

omit wide in
theorem virtualByte_cell {v : U64} {cell : Cell} (ram : s.virtualCell v = some cell) :
    s.virtualByte true v = s.memory cell := by
  rw [Sys.virtualCell] at ram
  rw [Sys.virtualByte]
  cases found : s.cpu.translateAddress v true with
  | error fault =>
    rw [found] at ram
    cases ram
  | ok p =>
    rw [found] at ram
    exact memory_ramCell ram

omit wide in
theorem storesAt_iff {t : Sys} {cell : ℕ → Cell} {bytes : ℕ → U8}
    (ram : ∀ i < w, s.virtualCell (a + BitVec.ofNat 64 i) = some (cell i)) :
    s.StoresAt t w a bytes ↔ Stored t.memory s.memory cell bytes w := by
  constructor
  · rintro ⟨stored, others⟩
    refine ⟨fun i inside => stored i inside _ (ram i inside), ?_⟩
    intro other apart
    apply others
    intro i inside same
    rw [ram i inside] at same
    exact apart i inside (Option.some.inj same)
  · rintro ⟨stored, others⟩
    refine ⟨?_, ?_⟩
    · intro i inside other same
      rw [ram i inside] at same
      rw [← Option.some.inj same]
      exact stored i inside
    · intro other apart
      apply others
      intro i inside same
      exact apart i inside (by rw [ram i inside, same])

theorem Sys.Writable.cells (writable : s.Writable w a) : ∃ (p q : PhysicalAddress)
    (cell : ℕ → Cell), s.cpu.translateAddress (wordOf w a) true = .ok p ∧
      s.cpu.translateAddress (wordOf w (a + BitVec.ofNat 64 (w - 1))) true = .ok q ∧
      (∀ i < w, ramCell s.bus.rdramSize (p + BitVec.ofNat 32 i) = some (cell i)) ∧
      (∀ i < w, ramCell s.bus.rdramSize (q + BitVec.ofNat 32 i) =
        some (cell (secondWord w (a.toNat % w) + i))) ∧
      ∀ i < secondWord w (a.toNat % w) + w,
        s.virtualCell (wordOf w a + BitVec.ofNat 64 i) = some (cell i) := by
  obtain ⟨p, c, word, ram⟩ := writable a (by simp)
  obtain ⟨q, d, lastWord, lastRam⟩ := writable (a + BitVec.ofNat 64 (w - 1)) (by simp)
  have aligned := aligned_of_word wide word
  have lastAligned := aligned_of_word wide lastWord
  let cell : ℕ → Cell := fun i => (s.virtualCell (wordOf w a + BitVec.ofNat 64 i)).getD (.rdram 0)
  have first : ∀ i < w, ramCell s.bus.rdramSize (p + BitVec.ofNat 32 i) = some (cell i) := by
    intro i inside
    obtain ⟨next, found⟩ := ramCell_add (k := i)
      (by rcases wide with rfl | rfl <;> omega) ram
    simp only [cell, virtualCell_word wide word inside, found, Option.getD_some]
  have second : ∀ i < w, ramCell s.bus.rdramSize (q + BitVec.ofNat 32 i) =
      some (cell (secondWord w (a.toNat % w) + i)) := by
    intro i inside
    obtain ⟨next, found⟩ := ramCell_add (k := i)
      (by rcases wide with rfl | rfl <;> omega) lastRam
    have place := virtualCell_word wide lastWord inside
    rw [wordOf_last wide, BitVec.add_assoc, ← BitVec.ofNat_add] at place
    simp only [cell, place, found, Option.getD_some]
  refine ⟨p, q, cell, word, lastWord, first, second, ?_⟩
  intro i inside
  by_cases here : i < w
  · rw [virtualCell_word wide word here, first i here]
  · obtain ⟨j, rfl⟩ : ∃ j, i = secondWord w (a.toNat % w) + j := by
      refine ⟨i - secondWord w (a.toNat % w), ?_⟩
      unfold secondWord at inside ⊢
      split_ifs at inside ⊢ <;> omega
    have place := virtualCell_word wide lastWord (show j < w by omega)
    rw [wordOf_last wide, BitVec.add_assoc, ← BitVec.ofNat_add] at place
    rw [place, second j (by omega)]

end VirtualCells

namespace Cpu

section StorePairs

variable {w : ℕ} {read : Sys → U32 → BitVec (8*w) × Sys}
  {write : Sys → U32 → BitVec (8*w) → Sys} (narrow : U64 → BitVec (8*w))
  (typed : Typed w read write) (wide : w = 4 ∨ w = 8)
include typed wide

/-- A store pair stores the bytes and nothing else exactly when they allow it. -/
theorem store_pair_iff {s : Sys} {l r : U32} {a : U64} (pages : 4096 ∣ s.bus.rdramSize)
    (pair : PairAt w (pairStore narrow read write leftStore) s l r a)
    (writable : s.Writable w a) :
    s.StoresAt (pairStore narrow read write rightStore (pairStore narrow read write leftStore s l)
        r) w a (place (narrow (s.cpu.gpr (rt l)))) ↔
      StoreMeets w (a.toNat % w) (place (narrow (s.cpu.gpr (rt l)))) (s.bytesFrom true w a) := by
  obtain ⟨p, q, cell, word, lastWord, first, second, cells⟩ := writable.cells wide
  have two : 1 < w := by omega
  have offset : a.toNat % w < w := Nat.mod_lt _ (by omega)
  obtain ⟨here, hereBytes, hereMemory, hereCpu, hereSize⟩ :=
    pairStore_spec narrow typed wide leftStore s l cell (pair.firstByte ▸ word) first
  obtain ⟨there, thereBytes, thereMemory, -, -⟩ :=
    pairStore_spec narrow typed wide rightStore (pairStore narrow read write leftStore s l) r
      (fun i => cell (secondWord w (a.toNat % w) + i)) (p := q)
        (by rw [pair.lastByte, hereCpu]; exact lastWord) (by rw [hereSize]; exact second)
  have register : (pairStore narrow read write leftStore s l).cpu.gpr (rt r) =
      s.cpu.gpr (rt l) := by
    rw [hereCpu, pair.sameReg]
    rfl
  rw [pair.firstByte] at hereMemory
  rw [register, pair.lastByte, offset_last wide, hereMemory] at thereMemory
  rw [hereMemory] at thereBytes
  have old : ∀ k < secondWord w (a.toNat % w) + w, s.bytesFrom true w a k = s.memory (cell k) :=
    fun k inside => virtualByte_cell (cells k inside)
  have bytes : ∀ i < w, s.virtualCell (a + BitVec.ofNat 64 i) = some (cell (a.toNat % w + i)) := by
    intro i inside
    rw [← address_from wide]
    apply cells
    unfold secondWord
    split_ifs <;> omega
  rw [storesAt_iff bytes, thereMemory]
  have apart : ∀ i < secondWord w (a.toNat % w) + w, ∀ j < secondWord w (a.toNat % w) + w,
      cell i = cell j → i = j := by
    intro i hi j hj same
    have limit : secondWord w (a.toNat % w) ≤ w := by
      unfold secondWord
      split_ifs <;> omega
    exact virtualCell_apart wide pages (cells i hi) (same ▸ cells j hj) (by omega) (by omega)
  exact store_pair here there _ _ s.memory cell two offset apart old hereBytes thereBytes

end StorePairs

end Cpu

end N64
