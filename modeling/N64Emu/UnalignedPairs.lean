import N64Emu.Rsp
import N64Emu.UnalignedAccess

/-!
# The unaligned pairs

The RSP's pairs on DMEM, with its 12-bit wrap, and the law of all six pairs.
-/

set_option autoImplicit false

namespace N64

open Words Insn ByteMerge Unaligned

namespace Rsp

/-- The bytes of DMEM from the word of `a` on. -/
def dmemFrom (r : Rsp) (a : U32) (i : ℕ) : U8 :=
  r.dmem (dmemOff ((a &&& ~~~3) + BitVec.ofNat 32 i))

/-- The big-endian word at `a`, with the wrap. -/
def dmemWord (r : Rsp) (a : U32) : U32 :=
  bigEndian 4 fun i => r.dmem (dmemOff (a + BitVec.ofNat 32 i))

/-- As for the CPU: `next` is the RSP after the first instruction. -/
structure PairAt (r next : Rsp) (l i : U32) (a : U32) : Prop where
  sameReg : rt i = rt l
  firstByte : effective r l = a
  lastByte : effective next i = a + 3

section Addresses

variable (a : U32)

theorem dmemOff_eq : dmemOff a = a.toNat % 4096 :=
  LowMasks.toNat_and_low (n := 12) a (by decide)

theorem toNat_word : (a &&& ~~~3).toNat = a.toNat / 4 * 4 :=
  LowMasks.toNat_andNot_low (n := 2) a

theorem toNat_byte : (a &&& 3).toNat = a.toNat % 4 :=
  LowMasks.toNat_and_low (n := 2) a (by decide)

theorem dmemOff_mask (i : ℕ) :
    dmemOff ((a &&& 0xFFF) + BitVec.ofNat 32 i) = dmemOff (a + BitVec.ofNat 32 i) := by
  have low : (a &&& 0xFFF).toNat = a.toNat % 4096 := dmemOff_eq a
  rw [dmemOff_eq, dmemOff_eq, BitVec.toNat_add, BitVec.toNat_add, low, BitVec.toNat_ofNat]
  omega

theorem dmemOff_from (i : ℕ) : dmemOff ((a &&& ~~~3) + BitVec.ofNat 32 (a.toNat % 4 + i)) =
    dmemOff (a + BitVec.ofNat 32 i) := by
  rw [dmemOff_eq, dmemOff_eq, BitVec.toNat_add, BitVec.toNat_add, toNat_word, BitVec.toNat_ofNat,
    BitVec.toNat_ofNat]
  omega

theorem dmemOff_last (i : ℕ) : dmemOff (((a + 3) &&& ~~~3) + BitVec.ofNat 32 i) =
    dmemOff ((a &&& ~~~3) + BitVec.ofNat 32 (secondWord 4 (a.toNat % 4) + i)) := by
  have three : (a + 3).toNat = (a.toNat + 3) % 2 ^ 32 := BitVec.toNat_add a 3
  rw [dmemOff_eq, dmemOff_eq, BitVec.toNat_add, BitVec.toNat_add, toNat_word, toNat_word,
    BitVec.toNat_ofNat, BitVec.toNat_ofNat, three, secondWord]
  split_ifs <;> omega

theorem byte_last : (a + 3).toNat % 4 = lastOffset 4 (a.toNat % 4) := by
  have three : (a + 3).toNat = (a.toNat + 3) % 2 ^ 32 := BitVec.toNat_add a 3
  rw [three, lastOffset]
  split_ifs <;> omega

end Addresses

variable {r : Rsp} {a : U32}

theorem loadWord_eq (addr : U32) : loadWord r addr = r.dmemWord addr := by
  have byte (i : ℕ) := dmemOff_mask addr i
  rw [loadWord, join32_eq_append, dmemWord, bigEndian_four, ← byte 0, ← byte 1, ← byte 2, ← byte 3]
  have wrap : dmemOff ((addr &&& 0xFFF) + BitVec.ofNat 32 0) = (addr &&& 0xFFF).toNat := by
    rw [byte 0, dmemOff, BitVec.add_zero]
  rw [wrap]
  rfl

theorem dmemWord_first {j : ℕ} (inside : j < 4) :
    place (w := 4) (r.dmemWord (a &&& ~~~3)) j = r.dmemFrom a j :=
  place_bigEndian inside

theorem dmemWord_last {j : ℕ} (inside : j < 4) :
    place (w := 4) (r.dmemWord ((a + 3) &&& ~~~3)) j =
      r.dmemFrom a (secondWord 4 (a.toNat % 4) + j) := by
  rw [dmemWord, place_bigEndian inside, dmemOff_last, dmemFrom]

theorem dmemWord_eq : r.dmemWord a =
    bigEndian 4 fun j => r.dmemFrom a (j + a.toNat % 4) := by
  apply eq_of_place (w := 4)
  intro j inside
  rw [dmemWord, place_bigEndian inside, place_bigEndian inside, dmemFrom, Nat.add_comm,
    dmemOff_from]

theorem execLwl_eq (insn : U32) (at_ : effective r insn = a) : execLwl r insn =
    writeGpr r (rt insn)
      (leftLoad (w := 4) (r.gpr (rt insn)) (r.dmemWord (a &&& ~~~3)) (a.toNat % 4)) := by
  rw [execLwl, at_]
  simp only [loadWord_eq, toNat_byte]
  rfl

theorem execLwr_eq (insn : U32) (at_ : effective r insn = a) : execLwr r insn =
    writeGpr r (rt insn)
      (rightLoad (w := 4) (r.gpr (rt insn)) (r.dmemWord (a &&& ~~~3)) (a.toNat % 4)) := by
  rw [execLwr, at_]
  simp only [loadWord_eq, toNat_byte]
  rfl

theorem dmem_writeGpr (i : BitVec 5) (v : U32) : (writeGpr r i v).dmem = r.dmem := by
  unfold writeGpr
  split <;> rfl

theorem gpr_writeGpr_self {i : BitVec 5} (nonzero : i ≠ 0) (v : U32) :
    (writeGpr r i v).gpr i = v := by
  rw [writeGpr, if_pos nonzero]
  exact Function.update_self _ _ _

theorem writeGpr_ignored (v : U32) : writeGpr r 0 v = r :=
  if_neg (not_not.mpr rfl)

theorem rsp_load_pair_iff {l i : U32} (pair : PairAt r (execLwl r l) l i a) :
    (execLwr (execLwl r l) i).gpr (rt l) = r.dmemWord a ↔
      if rt l = 0 then r.gpr (rt l) = r.dmemWord a
      else LoadMeets 4 (a.toNat % 4) (place (w := 4) (r.gpr (rt l))) (r.dmemFrom a) := by
  have first := execLwl_eq l pair.firstByte
  have second := execLwr_eq i pair.lastByte
  have same : (execLwl r l).dmemWord = r.dmemWord := by
    funext addr
    rw [first, dmemWord, dmem_writeGpr, dmemWord]
  have law := load_pair (w := 4) (r.gpr (rt l)) (by decide)
    (Nat.mod_lt a.toNat (by decide)) (fun j => dmemWord_first (r := r) (a := a))
    (fun j => dmemWord_last (r := r) (a := a))
  rw [second, pair.sameReg, same, byte_last, first]
  by_cases zero : rt l = 0
  · rw [if_pos zero, zero, writeGpr_ignored, writeGpr_ignored]
  · rw [if_neg zero, gpr_writeGpr_self zero, gpr_writeGpr_self zero, ← law, ← dmemWord_eq]

theorem rsp_storeWord (s : Sys) (addr : U32) (v : U32) : (storeWord s addr v).rsp =
    { s.rsp with
      dmem := put s.rsp.dmem (fun i => dmemOff (addr + BitVec.ofNat 32 i))
        (place (w := 4) v) 4 } := by
  have byte (i : ℕ) := dmemOff_mask addr i
  have wrap : (addr &&& 0xFFF).toNat = dmemOff (addr + BitVec.ofNat 32 0) :=
    (congrArg dmemOff (BitVec.add_zero addr)).symm
  have mirrored : ∀ t : Sys, (Loops.upTo (fun i s =>
      mirrorDmem s (((addr &&& 0xFFF) + BitVec.ofNat 32 i) &&& 0xFFF)) 4 t).rsp = t.rsp :=
    fun t => rfl
  rw [storeWord]
  simp only
  rw [mirrored, wrap, Bus.byteAt_eq, Bus.byteAt_eq, Bus.byteAt_eq, Bus.byteAt_eq]
  simp only [Sys.pokeRspDmem, put, ← byte]
  rfl

theorem execSwl_eq {s : Sys} (insn : U32) (at_ : effective s.rsp insn = a) : execSwl s insn =
    storeWord s (a &&& ~~~3) (leftStore (w := 4) (s.rsp.dmemWord (a &&& ~~~3))
      (s.rsp.gpr (rt insn)) (a.toNat % 4)) := by
  rw [execSwl, at_]
  simp only [loadWord_eq, toNat_byte]
  rfl

theorem execSwr_eq {s : Sys} (insn : U32) (at_ : effective s.rsp insn = a) : execSwr s insn =
    storeWord s (a &&& ~~~3) (rightStore (w := 4) (s.rsp.dmemWord (a &&& ~~~3))
      (s.rsp.gpr (rt insn)) (a.toNat % 4)) := by
  rw [execSwr, at_]
  simp only [loadWord_eq, toNat_byte]
  rfl

theorem dmemOff_apart {i j : ℕ} (small : i < 8) (large : j < 8)
    (same : dmemOff (a + BitVec.ofNat 32 i) = dmemOff (a + BitVec.ofNat 32 j)) : i = j := by
  rw [dmemOff_eq, dmemOff_eq, BitVec.toNat_add, BitVec.toNat_add, BitVec.toNat_ofNat,
    BitVec.toNat_ofNat] at same
  omega

theorem rsp_store_pair_iff {s : Sys} {l i : U32} (pair : PairAt s.rsp (execSwl s l).rsp l i a) :
    Stored (execSwr (execSwl s l) i).rsp.dmem s.rsp.dmem
        (fun j => dmemOff (a + BitVec.ofNat 32 j)) (place (w := 4) (s.rsp.gpr (rt l))) 4 ↔
      StoreMeets 4 (a.toNat % 4) (place (w := 4) (s.rsp.gpr (rt l))) (s.rsp.dmemFrom a) := by
  have first := execSwl_eq l pair.firstByte
  have second := execSwr_eq i pair.lastByte
  have stored : (execSwl s l).rsp.dmem = put s.rsp.dmem
      (fun k => dmemOff ((a &&& ~~~3) + BitVec.ofNat 32 k))
      (place (leftStore (w := 4) (s.rsp.dmemWord (a &&& ~~~3)) (s.rsp.gpr (rt l)) (a.toNat % 4)))
      4 := by
    rw [first, rsp_storeWord]
  have register : (execSwl s l).rsp.gpr (rt i) = s.rsp.gpr (rt l) := by
    rw [first, rsp_storeWord, pair.sameReg]
  have limit : secondWord 4 (a.toNat % 4) ≤ 4 := by
    unfold secondWord
    split_ifs <;> omega
  have law := store_pair (w := 4) (s.rsp.dmemWord (a &&& ~~~3))
    ((execSwl s l).rsp.dmemWord ((a + 3) &&& ~~~3)) (s.rsp.gpr (rt l)) (s.rsp.dmemFrom a)
    s.rsp.dmem (fun k => dmemOff ((a &&& ~~~3) + BitVec.ofNat 32 k)) (by decide)
      (Nat.mod_lt a.toNat (by decide))
    (fun i hi j hj => dmemOff_apart (by omega) (by omega)) (fun _ _ => rfl)
    (fun j => dmemWord_first (r := s.rsp) (a := a))
    (fun j inside => by
      rw [dmemWord_last (r := (execSwl s l).rsp) inside, ← stored]
      rfl)
  simp only [dmemOff_from] at law
  rw [second, rsp_storeWord, register, byte_last, ← law, stored]
  simp only [dmemOff_last]

end Rsp

namespace Cpu

theorem execLwl_pair : execLwl = pairLoad (w := 4) (·.setWidth 32) sext32 Bus.read32 leftLoad := rfl

theorem execLwr_pair : execLwr = pairLoad (w := 4) (·.setWidth 32) sext32 Bus.read32 rightLoad :=
  rfl

theorem execLdl_pair : execLdl = pairLoad (w := 8) (fun v => v) (fun v => v) Bus.read64 leftLoad :=
  rfl

theorem execLdr_pair : execLdr = pairLoad (w := 8) (fun v => v) (fun v => v) Bus.read64 rightLoad :=
  rfl

theorem execSwl_pair :
    execSwl = pairStore (w := 4) (·.setWidth 32) Bus.read32 Bus.write32 leftStore := rfl

theorem execSwr_pair :
    execSwr = pairStore (w := 4) (·.setWidth 32) Bus.read32 Bus.write32 rightStore := rfl

theorem execSdl_pair :
    execSdl = pairStore (w := 8) (fun v => v) Bus.read64 Bus.write64 leftStore := rfl

theorem execSdr_pair :
    execSdr = pairStore (w := 8) (fun v => v) Bus.read64 Bus.write64 rightStore := rfl

theorem setWidth_sext32 (v : U32) : (sext32 v).setWidth 32 = v := by
  ext i inside
  rw [BitVec.getElem_setWidth, sext32, BitVec.getLsbD_signExtend]
  simp [inside, show i < 64 by omega]

end Cpu

/-- Each pair is the unaligned access exactly when the bytes allow it. -/
theorem unaligned_pairs (s : Sys) (l r : U32) :
    (∀ a, PairAt 4 Cpu.execLwl s l r a → s.Readable 4 a →
      ((Cpu.execLwr (Cpu.execLwl s l) r).cpu.gpr (rt l) = sext32 (s.virtualWord 4 a) ↔
        if rt l = 0 then s.cpu.gpr (rt l) = sext32 (s.virtualWord 4 a)
        else LoadMeets 4 (a.toNat % 4) (place (w := 4) (s.cpu.rt32 l)) (s.bytesFrom false 4 a))) ∧
    (∀ a, PairAt 8 Cpu.execLdl s l r a → s.Readable 8 a →
      ((Cpu.execLdr (Cpu.execLdl s l) r).cpu.gpr (rt l) = s.virtualWord 8 a ↔
        if rt l = 0 then s.cpu.gpr (rt l) = s.virtualWord 8 a
        else LoadMeets 8 (a.toNat % 8) (place (w := 8) (s.cpu.gpr (rt l)))
          (s.bytesFrom false 8 a))) ∧
    (4096 ∣ s.bus.rdramSize → ∀ a, PairAt 4 Cpu.execSwl s l r a → s.Writable 4 a →
      (s.StoresAt (Cpu.execSwr (Cpu.execSwl s l) r) 4 a (place (w := 4) (s.cpu.rt32 l)) ↔
        StoreMeets 4 (a.toNat % 4) (place (w := 4) (s.cpu.rt32 l)) (s.bytesFrom true 4 a))) ∧
    (4096 ∣ s.bus.rdramSize → ∀ a, PairAt 8 Cpu.execSdl s l r a → s.Writable 8 a →
      (s.StoresAt (Cpu.execSdr (Cpu.execSdl s l) r) 8 a (place (w := 8) (s.cpu.gpr (rt l))) ↔
        StoreMeets 8 (a.toNat % 8) (place (w := 8) (s.cpu.gpr (rt l))) (s.bytesFrom true 8 a))) ∧
    (∀ a, Rsp.PairAt s.rsp (s.rsp.execLwl l) l r a →
      (((s.rsp.execLwl l).execLwr r).gpr (rt l) = s.rsp.dmemWord a ↔
        if rt l = 0 then s.rsp.gpr (rt l) = s.rsp.dmemWord a
        else LoadMeets 4 (a.toNat % 4) (place (w := 4) (s.rsp.gpr (rt l))) (s.rsp.dmemFrom a))) ∧
    (∀ a, Rsp.PairAt s.rsp (Rsp.execSwl s l).rsp l r a →
      (Stored (Rsp.execSwr (Rsp.execSwl s l) r).rsp.dmem s.rsp.dmem
          (fun j => Rsp.dmemOff (a + BitVec.ofNat 32 j)) (place (w := 4) (s.rsp.gpr (rt l))) 4 ↔
        StoreMeets 4 (a.toNat % 4) (place (w := 4) (s.rsp.gpr (rt l))) (s.rsp.dmemFrom a))) := by
  refine ⟨?_, ?_, ?_, ?_, ?_, ?_⟩
  · intro a pair readable
    rw [Cpu.execLwl_pair] at pair
    rw [Cpu.execLwl_pair, Cpu.execLwr_pair]
    exact Cpu.load_pair_iff _ _ typed_word (Or.inl rfl) Cpu.setWidth_sext32 pair readable
  · intro a pair readable
    rw [Cpu.execLdl_pair] at pair
    rw [Cpu.execLdl_pair, Cpu.execLdr_pair]
    exact Cpu.load_pair_iff _ _ typed_double (Or.inr rfl) (fun _ => rfl) pair readable
  · intro pages a pair writable
    rw [Cpu.execSwl_pair] at pair
    rw [Cpu.execSwl_pair, Cpu.execSwr_pair]
    exact Cpu.store_pair_iff _ typed_word (Or.inl rfl) pages pair writable
  · intro pages a pair writable
    rw [Cpu.execSdl_pair] at pair
    rw [Cpu.execSdl_pair, Cpu.execSdr_pair]
    exact Cpu.store_pair_iff _ typed_double (Or.inr rfl) pages pair writable
  · intro a pair
    exact Rsp.rsp_load_pair_iff pair
  · intro a pair
    exact Rsp.rsp_store_pair_iff pair

def pointing : Cpu := { gpr := fun i => if i = 2 then 0xFFFFFFFF80000000 else 0 }

def atFirstWord (rdram : Bytes) : Sys := { cpu := pointing, bus := { rdram := rdram } }

theorem atFirstWord_readable (rdram : Bytes) :
    (atFirstWord rdram).Readable 4 0xFFFFFFFF80000000 := by
  have first : pointing.translateAddress (wordOf 4 0xFFFFFFFF80000000) false = .ok 0 := by decide
  have last : pointing.translateAddress
      (wordOf 4 (0xFFFFFFFF80000000 + BitVec.ofNat 64 (4 - 1))) false = .ok 0 := by decide
  intro b member
  rcases List.mem_pair.mp member with rfl | rfl
  · exact ⟨0, first, by decide⟩
  · exact ⟨0, last, by decide⟩

theorem atFirstWord_pair (rdram : Bytes) :
    PairAt 4 Cpu.execLwl (atFirstWord rdram) 0x88410000 0x98410003 0xFFFFFFFF80000000 := by
  have first := Cpu.pairLoad_eq (·.setWidth 32) sext32 typed_word (Or.inl rfl) leftLoad
    (atFirstWord rdram) 0x88410000 (p := 0) (by
      have word : pointing.translateAddress (wordOf 4 (pointing.effective 0x88410000)) false =
          .ok 0 := by decide
      exact word) (by decide)
  refine ⟨by decide, ?_, ?_⟩
  · have base : pointing.effective 0x88410000 = 0xFFFFFFFF80000000 := by decide
    exact base
  · rw [Cpu.execLwl_pair, first]
    rfl

/-- Register 2 points to the first word of RDRAM, register 3 holds two bytes. -/
def straddling (bytes : List U8) : Sys :=
  { cpu := { gpr := fun i => if i = 2 then 0xFFFFFFFF80000000 else if i = 3 then 0x556600 else 0 }
    bus := { rdram := fun i => bytes.getD i 0 } }

/-- A word loaded and a word stored across two words of RDRAM. -/
theorem unaligned_pairs_straddling :
    let loaded := straddling [0xAA, 0x11, 0x22, 0x33, 0x11, 0x22, 0x33, 0x11]
    let stored := straddling [0x00, 0xAA, 0x55, 0x66, 0xBB, 0x55, 0x66, 0x00]
    (Cpu.execLwr (Cpu.execLwl loaded 0x88410001) 0x98410004).cpu.gpr 1 =
        sext32 (loaded.virtualWord 4 0xFFFFFFFF80000001) ∧
      loaded.virtualWord 4 0xFFFFFFFF80000001 = 0x11223311#32 ∧
      stored.StoresAt (Cpu.execSwr (Cpu.execSwl stored 0xA8430001) 0xB8430004) 4
        0xFFFFFFFF80000001 (place (w := 4) (0x00556600 : U32)) := by
  intro loaded stored
  have reads : loaded.Readable 4 0xFFFFFFFF80000001 := by
    intro b member
    rcases List.mem_pair.mp member with rfl | rfl
    · exact ⟨0, by decide +kernel, by decide⟩
    · exact ⟨4, by decide +kernel, by decide⟩
  have writes : stored.Writable 4 0xFFFFFFFF80000001 := by
    intro b member
    rcases List.mem_pair.mp member with rfl | rfl
    · exact ⟨0, .rdram 0, by decide +kernel, by decide⟩
    · exact ⟨4, .rdram 4, by decide +kernel, by decide⟩
  have load := (unaligned_pairs loaded 0x88410001 0x98410004).1 0xFFFFFFFF80000001
    ⟨by decide +kernel, by decide +kernel, by decide +kernel⟩ reads
  have store := (unaligned_pairs stored 0xA8430001 0xB8430004).2.2.1 (by decide +kernel)
    0xFFFFFFFF80000001 ⟨by decide +kernel, by decide +kernel, by decide +kernel⟩ writes
  exact ⟨load.mpr (by decide +kernel), by decide +kernel, store.mpr (by decide +kernel)⟩

/-- The bytes 11 22 33 44 are loaded as 44 00 00 11. -/
theorem aligned_pair_differs :
    let s := atFirstWord fun i => BitVec.ofNat 8 (0x11*(i + 1))
    s.virtualWord 4 0xFFFFFFFF80000000 = 0x11223344#32 ∧
      (Cpu.execLwr (Cpu.execLwl s 0x88410000) 0x98410003).cpu.gpr 1 = 0x44000011 ∧
      PairAt 4 Cpu.execLwl s 0x88410000 0x98410003 0xFFFFFFFF80000000 ∧
      s.Readable 4 0xFFFFFFFF80000000 := by
  refine ⟨by decide +kernel, by decide +kernel, atFirstWord_pair _, atFirstWord_readable _⟩

end N64
