import N64Emu.BusWrite

/-!
# Wide accesses are byte accesses

Outside the register windows a naturally aligned wide access never leaves its
sixteen-byte block, and no region border or window edge cuts such a block. The
host-word paths and the byte paths therefore agree on the whole machine, up to
the notifications they record.
-/

set_option autoImplicit false

namespace N64

open Words Mmio

namespace Sys

def erase (s : Sys) : Sys := { s with log := [] }

def Same (s t : Sys) : Prop := s.erase = t.erase

theorem Same.refl (s : Sys) : s.Same s := rfl

theorem Same.symm {s t : Sys} (h : s.Same t) : t.Same s := Eq.symm h

theorem Same.trans {s t u : Sys} (h : s.Same t) (k : t.Same u) : s.Same u := Eq.trans h k

theorem Same.eq_record {s t : Sys} (h : s.Same t) : t = { s with log := t.log } := by
  unfold Same erase at h
  cases s
  cases t
  simp_all

theorem Same.map {s t : Sys} (h : s.Same t) (f : Sys → Sys)
    (blind : ∀ u log, (f { u with log := log }).Same (f u)) : (f s).Same (f t) := by
  rw [h.eq_record]
  exact (blind s t.log).symm

@[simp]
theorem emit_bus (s : Sys) (e : Event) : (s.emit e).bus = s.bus := rfl

theorem notifyMemoryWrite_one (s : Sys) (p : PhysicalAddress) :
    s.notifyMemoryWrite p 1#32 = s.emit (.notify p 1#32) := rfl

theorem same_notify (s : Sys) (p : PhysicalAddress) (n : U32) :
    (s.notifyMemoryWrite p n).Same s := by
  unfold notifyMemoryWrite
  split <;> rfl

/-- `f` neither reads the record nor lets it reach anything else. -/
def Blind (f : Sys → Sys) : Prop := ∀ s t, Same s t → Same (f s) (f t)

theorem blind_of_record {f : Sys → Sys} (h : ∀ u log, (f { u with log := log }).Same (f u)) :
    Blind f :=
  fun _ _ same => same.map f h

theorem Blind.comp {f g : Sys → Sys} (hf : Blind f) (hg : Blind g) : Blind fun s => g (f s) :=
  fun s t same => hg _ _ (hf s t same)

theorem blind_processJoybus : Blind processJoybus := blind_of_record fun _ _ => rfl

theorem blind_mirrorPif : Blind mirrorPif := blind_of_record fun _ _ => rfl

end Sys

namespace Bus

/-- `write8` at `addr`, `addr + 1`, … of the listed bytes. -/
def writeBytes (s : Sys) (addr : U32) : List U8 → Sys
  | [] => s
  | b :: bs => writeBytes (write8 s addr b) (addr + 1) bs

theorem writeBytes_append (s : Sys) (addr : U32) (bs cs : List U8) :
    writeBytes s addr (bs ++ cs) =
      writeBytes (writeBytes s addr bs) (addr + BitVec.ofNat 32 bs.length) cs := by
  induction bs generalizing s addr with
  | nil => simp [writeBytes]
  | cons b bs ih =>
    rw [List.cons_append, writeBytes, writeBytes, ih, List.length_cons, Nat.add_comm,
      BitVec.ofNat_add, ← BitVec.add_assoc]
    rfl

theorem physical_toNat (a : U32) : (physical a).toNat = a.toNat % 2 ^ 29 := by
  rw [physical, BitVec.toNat_and]
  exact Nat.and_two_pow_sub_one_eq_mod a.toNat 29

theorem block_add (addr : U32) (i : ℕ) (block : addr.toNat % 16 + i < 16) :
    (addr + BitVec.ofNat 32 i).toNat = addr.toNat + i := by
  have := addr.isLt
  simp only [BitVec.toNat_add, BitVec.toNat_ofNat]
  omega

theorem physical_add (addr : U32) (i : ℕ) (block : addr.toNat % 16 + i < 16) :
    (physical (addr + BitVec.ofNat 32 i)).toNat = (physical addr).toNat + i := by
  rw [physical_toNat, physical_toNat, block_add addr i block]
  omega

theorem physical_idem (addr : U32) : physical (physical addr) = physical addr := by
  simp [physical, BitVec.and_assoc]

theorem isMmioRegion_block (p q : U32) (block : p.toNat / 16 = q.toNat / 16) :
    isMmioRegion p = isMmioRegion q := by
  simp only [isMmioRegion, inRange, SP_REGS_BASE, SP_REGS2_BASE, DP_CMD_BASE, MI_BASE, VI_BASE,
    AI_BASE, PI_BASE, RI_BASE, SI_BASE]
  have cut : ∀ b k : ℕ, (decide (16 * b ≤ p.toNat) && decide (p.toNat < 16 * b + 16 * k)) =
      (decide (16 * b ≤ q.toNat) && decide (q.toNat < 16 * b + 16 * k)) := fun b k => by
    rw [← Bool.decide_and, ← Bool.decide_and, decide_eq_decide]
    omega
  have := cut 0x404000 2
  have := cut 0x408000 1
  have := cut 0x410000 2
  have := cut 0x430000 1
  have := cut 0x440000 4
  have := cut 0x450000 2
  have := cut 0x460000 4
  have := cut 0x470000 2
  have := cut 0x480000 2
  simp_all

theorem isMmioRegion_add {addr : U32} (i : ℕ) (block : addr.toNat % 16 + i < 16)
    (mmio : isMmioRegion (physical addr) = false) :
    isMmioRegion (physical (addr + BitVec.ofNat 32 i)) = false := by
  rw [← mmio]
  apply isMmioRegion_block
  rw [physical_add addr i block]
  have := physical_toNat addr
  omega

theorem read8_eq (s : Sys) (addr : U32) (mmio : isMmioRegion (physical addr) = false) :
    read8 s addr = (read8Const s addr, s) := by
  simp [read8, read8Const, mmio, physical_idem]

section Regions

variable (s : Sys) {addr : U32} {p : ℕ} (at_ : (physical addr).toNat = p)
include at_

theorem read8Const_rdram (region : p < 0x03F00000) (present : s.bus.rdramSize ≠ 0) :
    read8Const s addr = s.bus.rdram (p % s.bus.rdramSize) := by
  simp [read8Const, at_, region, present]

theorem read8Const_dmem (region : 0x04000000 ≤ p ∧ p < 0x04001000) :
    read8Const s addr = s.bus.spDmem (p - 0x04000000) := by
  simp [read8Const, at_, region, show ¬p < 0x03F00000 by omega]

theorem read8Const_imem (region : 0x04001000 ≤ p ∧ p < 0x04002000) :
    read8Const s addr = s.bus.spImem (p - 0x04001000) := by
  simp [read8Const, at_, region, show ¬p < 0x03F00000 by omega, show ¬p < 0x04001000 by omega]

theorem read8Const_cart (region : 0x10000000 ≤ p ∧ p < 0x1FC00000)
    (inside : p - 0x10000000 < s.bus.cartSize) :
    read8Const s addr = s.bus.cart (p - 0x10000000) := by
  simp [read8Const, at_, region, inside, show ¬p < 0x03F00000 by omega,
    show ¬p < 0x04001000 by omega, show ¬p < 0x04002000 by omega]

end Regions

theorem mod_add_of_lt {p n i : ℕ} (h : p % n + i < n) : (p + i) % n = p % n + i := by
  rw [Nat.add_mod, Nat.mod_eq_of_lt (show i < n by omega), Nat.mod_eq_of_lt h]

theorem read16Const_eq (s : Sys) (addr : U32) (block : addr.toNat % 16 + 1 < 16) :
    read16Const s addr = join16 (read8Const s addr) (read8Const s (addr + 1)) := by
  have next : (physical (addr + 1)).toNat = (physical addr).toNat + 1 := physical_add addr 1 block
  have low := physical_toNat addr
  simp only [read16Const]
  split
  · next fast =>
    obtain ⟨region, present, inside⟩ := fast
    rw [bswap16_load16, read8Const_rdram s rfl region present,
      read8Const_rdram s next (by omega) present, mod_add_of_lt inside]
  · rfl

/-- The four bytes of a word as one of the byte stores holds them. -/
theorem join32_eq_load {s : Sys} {addr : U32} {m : Bytes} {off : ℕ}
    (bytes : ∀ i, i < 4 → read8Const s (addr + BitVec.ofNat 32 i) = m (off + i)) :
    bswap32 (load32 m off) =
      join32 (read8Const s addr) (read8Const s (addr + 1)) (read8Const s (addr + 2))
        (read8Const s (addr + 3)) := by
  have b0 : read8Const s addr = m off := by simpa using bytes 0 (by omega)
  have b1 : read8Const s (addr + 1) = m (off + 1) := bytes 1 (by omega)
  have b2 : read8Const s (addr + 2) = m (off + 2) := bytes 2 (by omega)
  have b3 : read8Const s (addr + 3) = m (off + 3) := bytes 3 (by omega)
  rw [bswap32_load32, b0, b1, b2, b3]

theorem read32Const_eq (s : Sys) (addr : U32) (block : addr.toNat % 16 + 3 < 16) :
    read32Const s addr =
      join32 (read8Const s addr) (read8Const s (addr + 1)) (read8Const s (addr + 2))
        (read8Const s (addr + 3)) := by
  have next : ∀ i, i < 4 →
      (physical (addr + BitVec.ofNat 32 i)).toNat = (physical addr).toNat + i := fun i hi =>
    physical_add addr i (by omega)
  have low := physical_toNat addr
  simp only [read32Const]
  split_ifs with rdram cart dmem imem
  · apply join32_eq_load
    intro i hi
    rw [read8Const_rdram s (next i hi) (by omega) rdram.2.1, mod_add_of_lt (by omega)]
  · apply join32_eq_load
    intro i hi
    rw [read8Const_cart s (next i hi) (by omega) (by omega), Nat.sub_add_comm cart.1]
  · apply join32_eq_load
    intro i hi
    rw [read8Const_dmem s (next i hi) (by omega), Nat.sub_add_comm dmem.1]
  · apply join32_eq_load
    intro i hi
    rw [read8Const_imem s (next i hi) (by omega), Nat.sub_add_comm imem.1]
  · rfl

theorem read8Const_physical (s : Sys) {a b : U32} (h : physical a = physical b) :
    read8Const s a = read8Const s b := by
  simp only [read8Const, h]

theorem read8Const_add (s : Sys) {addr : U32} (i : ℕ) (block : addr.toNat % 16 + i < 16) :
    read8Const s (physical addr + BitVec.ofNat 32 i) =
      read8Const s (addr + BitVec.ofNat 32 i) := by
  have low := physical_toNat addr
  apply read8Const_physical
  apply BitVec.eq_of_toNat_eq
  rw [physical_add addr i block, physical_add (physical addr) i (by omega), physical_idem]

theorem word_div_16 (p : U32) : (p &&& ~~~3).toNat / 16 = p.toNat / 16 := by
  have same : (p &&& ~~~3) >>> 4 = p >>> 4 := by
    ext i hi
    interval_cases i <;> simp
  simpa [BitVec.toNat_ushiftRight, Nat.shiftRight_eq_div_pow] using congrArg BitVec.toNat same

/-- The byte `read8` returns `i` places after `addr`. -/
def byte (s : Sys) (addr : U32) (i : ℕ) : U8 := (read8 s (addr + BitVec.ofNat 32 i)).1

theorem byte_add_four (s : Sys) (addr : U32) (i : ℕ) :
    byte s (addr + 4#32) i = byte s addr (4 + i) := by
  rw [byte, byte, BitVec.ofNat_add, ← BitVec.add_assoc]

section Outside

variable (s : Sys) {addr : U32} (mmio : isMmioRegion (physical addr) = false)
include mmio

theorem byte_eq (i : ℕ) (block : addr.toNat % 16 + i < 16) :
    byte s addr i = read8Const s (physical addr + BitVec.ofNat 32 i) := by
  rw [byte, read8_eq s _ (isMmioRegion_add i block mmio), read8Const_add s i block]

theorem byte_zero (block : addr.toNat % 16 + 0 < 16) :
    byte s addr 0 = read8Const s (physical addr) := by
  simpa using byte_eq s mmio 0 block

theorem read16_eq (block : addr.toNat % 16 + 1 < 16) :
    read16 s addr = (byte s addr 0 ++ byte s addr 1, s) := by
  have low := physical_toNat addr
  have word : isMmioRegion (physical addr &&& ~~~3) = false := by
    rw [← mmio, isMmioRegion_block _ _ (word_div_16 (physical addr))]
  rw [← join16_eq_append, byte_zero s mmio (by omega), byte_eq s mmio 1 block]
  simp only [read16, mmio, word, Bool.or_self, Bool.false_eq_true, if_false,
    read16Const_eq s (physical addr) (by omega)]
  rfl

theorem read32_eq (block : addr.toNat % 16 + 3 < 16) :
    read32 s addr =
      (byte s addr 0 ++ byte s addr 1 ++ byte s addr 2 ++ byte s addr 3, s) := by
  have low := physical_toNat addr
  rw [← join32_eq_append, byte_zero s mmio (by omega), byte_eq s mmio 1 (by omega),
    byte_eq s mmio 2 (by omega), byte_eq s mmio 3 block]
  simp only [read32, mmio, Bool.false_eq_true, if_false,
    read32Const_eq s (physical addr) (by omega)]
  rfl

theorem read64_eq (block : addr.toNat % 16 + 7 < 16) :
    read64 s addr =
      ((byte s addr 0 ++ byte s addr 1 ++ byte s addr 2 ++ byte s addr 3) ++
        (byte s addr 4 ++ byte s addr 5 ++ byte s addr 6 ++ byte s addr 7), s) := by
  have low := physical_toNat addr
  have next := isMmioRegion_add 4 (show addr.toNat % 16 + 4 < 16 by omega) mmio
  have base := block_add addr 4 (by omega)
  have tail : read32 s (addr + 4) =
      (byte s addr 4 ++ byte s addr 5 ++ byte s addr 6 ++ byte s addr 7, s) := by
    have word := read32_eq s next (by omega)
    rw [byte_add_four, byte_add_four, byte_add_four, byte_add_four] at word
    exact word
  simp only [read64]
  split
  · next fast =>
    have bytes : ∀ i, i < 8 →
        byte s addr i = s.bus.rdram ((physical addr).toNat % s.bus.rdramSize + i) := fun i hi => by
      rw [byte_eq s mmio i (by omega), read8Const_add s i (by omega),
        read8Const_rdram s (physical_add addr i (by omega)) (by omega) fast.2.1,
        mod_add_of_lt (by omega)]
    rw [bswap64_load64, join64_eq_append, join32_eq_append, join32_eq_append, bytes 0 (by omega),
      bytes 1 (by omega), bytes 2 (by omega), bytes 3 (by omega), bytes 4 (by omega),
      bytes 5 (by omega), bytes 6 (by omega), bytes 7 (by omega)]
    rfl
  · rw [read32_eq s mmio (by omega)]
    simp only [tail, join64_eq_append]

end Outside

def bigEndian16 (v : U16) : List U8 := [v.extractLsb' 8 8, v.extractLsb' 0 8]

def bigEndian32 (v : U32) : List U8 :=
  [v.extractLsb' 24 8, v.extractLsb' 16 8, v.extractLsb' 8 8, v.extractLsb' 0 8]

def bigEndian64 (v : U64) : List U8 :=
  bigEndian32 ((v >>> 32).setWidth 32) ++ bigEndian32 (v.setWidth 32)

theorem byteAt_eq (v : U32) (n : ℕ) : byteAt v n = v.extractLsb' n 8 := by
  ext i hi
  interval_cases i <;> simp [byteAt]

theorem bigEndian16_eq (v : U16) : bigEndian16 v = [(v >>> 8).setWidth 8, v.setWidth 8] := by
  simp only [bigEndian16, List.cons.injEq, and_true]
  constructor <;> ext i hi <;> simp

section Write8

variable {addr : U32} (mmio : isMmioRegion (physical addr) = false) {p : ℕ}
  (at_ : (physical addr).toNat = p)
include mmio at_

theorem write8_rdram (s : Sys) (v : U8) (region : p < 0x03F00000) (present : s.bus.rdramSize ≠ 0) :
    write8 s addr v =
      (s.emit (.notify (physical addr) 1)).pokeRdram (p % s.bus.rdramSize) v := by
  simp [write8, mmio, at_, region, present, Sys.notifyMemoryWrite_one]

theorem write8_dmem (s : Sys) (v : U8) (region : 0x04000000 ≤ p ∧ p < 0x04001000) :
    write8 s addr v = storeDmem (s.emit (.notify (physical addr) 1)) (p - 0x04000000) v := by
  simp [write8, mmio, at_, region, Sys.notifyMemoryWrite_one, show ¬p < 0x03F00000 by omega]

theorem write8_imem (s : Sys) (v : U8) (region : 0x04001000 ≤ p ∧ p < 0x04002000) :
    write8 s addr v = storeImem (s.emit (.notify (physical addr) 1)) (p - 0x04001000) v := by
  simp [write8, mmio, at_, region, Sys.notifyMemoryWrite_one, show ¬p < 0x03F00000 by omega,
    show ¬p < 0x04001000 by omega]

theorem write8_pif (s : Sys) (v : U8) (region : 0x1FC007C0 ≤ p ∧ p ≤ 0x1FC007FF) :
    write8 s addr v = storePifRam (s.emit (.notify (physical addr) 1)) (p - 0x1FC007C0) v := by
  simp [write8, mmio, at_, region, Sys.notifyMemoryWrite_one, show ¬p < 0x03F00000 by omega,
    show ¬p < 0x04001000 by omega, show ¬p < 0x04002000 by omega]

theorem write8_other (s : Sys) (v : U8) (rdram : ¬(p < 0x03F00000 ∧ s.bus.rdramSize ≠ 0))
    (dmem : ¬(0x04000000 ≤ p ∧ p < 0x04001000)) (imem : ¬(0x04001000 ≤ p ∧ p < 0x04002000))
    (pif : ¬(0x1FC007C0 ≤ p ∧ p ≤ 0x1FC007FF)) :
    write8 s addr v = s.emit (.notify (physical addr) 1) := by
  by_cases low : p < 0x03F00000
  · have absent : s.bus.rdramSize = 0 := by
      by_contra present
      exact rdram ⟨low, present⟩
    simp [write8, mmio, at_, low, absent, Sys.notifyMemoryWrite_one]
  · simp [write8, mmio, at_, low, dmem, imem, pif, Sys.notifyMemoryWrite_one]

end Write8

section Blind

variable {addr : U32}

theorem storePifRam_blind (off : ℕ) (v : U8) : Sys.Blind (storePifRam · off v) := by
  apply Sys.blind_of_record
  intro u log
  unfold storePifRam
  split
  · exact Sys.blind_processJoybus.comp Sys.blind_mirrorPif _ _ rfl
  · rfl

theorem write8_blind (v : U8) (mmio : isMmioRegion (physical addr) = false) :
    Sys.Blind (write8 · addr v) := by
  intro s t same
  have size : t.bus.rdramSize = s.bus.rdramSize := by rw [same.eq_record]
  by_cases rdram : (physical addr).toNat < 0x03F00000 ∧ s.bus.rdramSize ≠ 0
  · simp only [write8_rdram mmio rfl s v rdram.1 rdram.2,
      write8_rdram mmio rfl t v rdram.1 (size ▸ rdram.2), size]
    exact same.map (·.pokeRdram _ v) fun _ _ => rfl
  by_cases dmem : 0x04000000 ≤ (physical addr).toNat ∧ (physical addr).toNat < 0x04001000
  · simp only [write8_dmem mmio rfl _ v dmem]
    exact same.map (storeDmem · _ v) fun _ _ => rfl
  by_cases imem : 0x04001000 ≤ (physical addr).toNat ∧ (physical addr).toNat < 0x04002000
  · simp only [write8_imem mmio rfl _ v imem]
    exact same.map (storeImem · _ v) fun _ _ => rfl
  by_cases pif : 0x1FC007C0 ≤ (physical addr).toNat ∧ (physical addr).toNat ≤ 0x1FC007FF
  · simp only [write8_pif mmio rfl _ v pif]
    exact storePifRam_blind _ v _ _ same
  · simp only [write8_other mmio rfl s v rdram dmem imem pif,
      write8_other mmio rfl t v (size ▸ rdram) dmem imem pif]
    exact same

theorem writeBytes_blind {n : ℕ}
    (mmio : ∀ i, i < n → isMmioRegion (physical (addr + BitVec.ofNat 32 i)) = false)
    (bs : List U8) (short : bs.length ≤ n) : Sys.Blind (writeBytes · addr bs) := by
  induction bs generalizing addr n with
  | nil => exact fun _ _ same => same
  | cons b bs ih =>
    rw [List.length_cons] at short
    have head : isMmioRegion (physical addr) = false := by simpa using mmio 0 (by omega)
    have tail : ∀ i, i < n - 1 → isMmioRegion (physical (addr + 1 + BitVec.ofNat 32 i)) = false :=
      fun i hi => by
        have := mmio (1 + i) (by omega)
        rwa [BitVec.ofNat_add, ← BitVec.add_assoc] at this
    intro s t same
    exact ih tail (by omega) _ _ (write8_blind b head s t same)

end Blind

/-- Host-word bytes stored one by one leave what the byte writes leave, when
each byte write is one of those stores. -/
theorem storeBytes_same (poke : Sys → ℕ → U8 → Sys) {n : ℕ} (s : Sys) (addr : U32) (off : ℕ)
    (keeps : ∀ t o b, (poke t o b).bus.rdramSize = t.bus.rdramSize)
    (each : ∀ t i b, i < n → t.bus.rdramSize = s.bus.rdramSize →
      (write8 t (addr + BitVec.ofNat 32 i) b).Same (poke t (off + i) b))
    (mmio : ∀ i, i < n → isMmioRegion (physical (addr + BitVec.ofNat 32 i)) = false)
    (bs : List U8) (short : bs.length ≤ n) :
    (Sys.storeBytes poke s off bs).Same (writeBytes s addr bs) := by
  induction bs generalizing s addr off n with
  | nil => exact Sys.Same.refl s
  | cons b bs ih =>
    rw [List.length_cons] at short
    have next : ∀ i, addr + 1 + BitVec.ofNat 32 i = addr + BitVec.ofNat 32 (1 + i) := fun i => by
      rw [BitVec.ofNat_add, ← BitVec.add_assoc]
      rfl
    have tail : ∀ i, i < n - 1 → isMmioRegion (physical (addr + 1 + BitVec.ofNat 32 i)) = false :=
      fun i hi => by
        rw [next]
        exact mmio (1 + i) (by omega)
    have first : (write8 s addr b).Same (poke s off b) := by
      simpa using each s 0 b (by omega) rfl
    have rest := ih (poke s off b) (addr + 1) (off + 1)
      (fun t i c hi size => by
        rw [next, Nat.add_assoc]
        exact each t (1 + i) c (by omega) (size.trans (keeps s off b)))
      tail (by omega)
    exact rest.trans (writeBytes_blind tail bs (by omega) _ _ first.symm)

section Wide

variable (s : Sys) {addr : U32} {n : ℕ} (block : addr.toNat % 16 + n ≤ 16)
  (mmio : isMmioRegion (physical addr) = false) (bs : List U8) (short : bs.length ≤ n)
include block mmio short

theorem rdram_bytes (region : (physical addr).toNat < 0x03F00000) (present : s.bus.rdramSize ≠ 0)
    (inside : (physical addr).toNat % s.bus.rdramSize + n ≤ s.bus.rdramSize) :
    (Sys.storeBytes Sys.pokeRdram s ((physical addr).toNat % s.bus.rdramSize) bs).Same
      (writeBytes s addr bs) := by
  have low := physical_toNat addr
  refine storeBytes_same Sys.pokeRdram s addr _ (fun _ _ _ => rfl) ?_
    (fun i hi => isMmioRegion_add i (by omega) mmio) bs short
  intro t i b hi size
  rw [write8_rdram (isMmioRegion_add i (by omega) mmio) (physical_add addr i (by omega)) t b
    (by omega) (size ▸ present), size, mod_add_of_lt (by omega)]
  rfl

theorem dmem_bytes
    (region : 0x04000000 ≤ (physical addr).toNat ∧ (physical addr).toNat < 0x04001000) :
    (Sys.storeBytes storeDmem s ((physical addr).toNat - 0x04000000) bs).Same
      (writeBytes s addr bs) := by
  have low := physical_toNat addr
  refine storeBytes_same storeDmem s addr _ (fun _ _ _ => rfl) ?_
    (fun i hi => isMmioRegion_add i (by omega) mmio) bs short
  intro t i b hi _
  rw [write8_dmem (isMmioRegion_add i (by omega) mmio) (physical_add addr i (by omega)) t b
    (by omega), Nat.sub_add_comm region.1]
  rfl

theorem imem_bytes
    (region : 0x04001000 ≤ (physical addr).toNat ∧ (physical addr).toNat < 0x04002000) :
    (Sys.storeBytes storeImem s ((physical addr).toNat - 0x04001000) bs).Same
      (writeBytes s addr bs) := by
  have low := physical_toNat addr
  refine storeBytes_same storeImem s addr _ (fun _ _ _ => rfl) ?_
    (fun i hi => isMmioRegion_add i (by omega) mmio) bs short
  intro t i b hi _
  rw [write8_imem (isMmioRegion_add i (by omega) mmio) (physical_add addr i (by omega)) t b
    (by omega), Nat.sub_add_comm region.1]
  rfl

/-- The notification of a wide write is all that separates it from its bytes. -/
theorem notified_bytes {w : Sys} (p : PhysicalAddress) (size : U32)
    (wide : w.Same (writeBytes (s.notifyMemoryWrite p size) addr bs)) :
    w.Same (writeBytes s addr bs) :=
  wide.trans (writeBytes_blind (fun i hi => isMmioRegion_add i (by omega) mmio) bs short _ _
    (Sys.same_notify s p size))

end Wide

section WideWrites

variable (s : Sys) {addr : U32} (mmio : isMmioRegion (physical addr) = false)
include mmio

theorem write16_same (block : addr.toNat % 16 + 2 ≤ 16) (v : U16) :
    (write16 s addr v).Same (writeBytes s addr (bigEndian16 v)) := by
  apply notified_bytes s block mmio (bigEndian16 v) le_rfl (physical addr) 2
  simp only [write16, mmio, Bool.false_eq_true, if_false, hostBytes16_bswap]
  split_ifs with rdram dmem
  · exact rdram_bytes _ block mmio (bigEndian16 v) le_rfl rdram.1 rdram.2.1 rdram.2.2
  · exact dmem_bytes _ block mmio (bigEndian16 v) le_rfl ⟨dmem.1, dmem.2.1⟩
  · rw [bigEndian16_eq]
    rfl

theorem write32_same (block : addr.toNat % 16 + 4 ≤ 16) (v : U32) :
    (write32 s addr v).Same (writeBytes s addr (bigEndian32 v)) := by
  apply notified_bytes s block mmio (bigEndian32 v) le_rfl (physical addr) 4
  simp only [write32, mmio, Bool.false_eq_true, if_false, hostBytes32_bswap]
  split_ifs with rdram dmem imem
  · exact rdram_bytes _ block mmio (bigEndian32 v) le_rfl rdram.1 rdram.2.1 rdram.2.2
  · exact dmem_bytes _ block mmio (bigEndian32 v) le_rfl ⟨dmem.1, dmem.2.1⟩
  · exact imem_bytes _ block mmio (bigEndian32 v) le_rfl ⟨imem.1, imem.2.1⟩
  · simp only [byteAt_eq, bigEndian32, writeBytes, BitVec.add_assoc]
    rfl

theorem write64_same (block : addr.toNat % 16 + 8 ≤ 16) (v : U64) :
    (write64 s addr v).Same (writeBytes s addr (bigEndian64 v)) := by
  apply notified_bytes s block mmio (bigEndian64 v) le_rfl (physical addr) 8
  have base := block_add addr 4 (by omega)
  simp only [write64]
  split_ifs with rdram
  · rw [hostBytes64_bswap, hostBytes32_bswap, hostBytes32_bswap]
    exact rdram_bytes _ block mmio (bigEndian64 v) le_rfl rdram.1 rdram.2.1 rdram.2.2
  · rw [bigEndian64, writeBytes_append]
    have next := isMmioRegion_add 4 (show addr.toNat % 16 + 4 < 16 by omega) mmio
    have low : addr.toNat % 16 + 4 ≤ 16 := by omega
    have high : (addr + BitVec.ofNat 32 4).toNat % 16 + 4 ≤ 16 := by omega
    have tail : Sys.Blind (writeBytes · (addr + BitVec.ofNat 32 4) (bigEndian32 (v.setWidth 32))) :=
      writeBytes_blind (fun i (hi : i < 4) => isMmioRegion_add i (by omega) next) _ le_rfl
    exact (write32_same _ next high _).trans (tail _ _ (write32_same _ mmio low _))

end WideWrites

/-- A naturally aligned wide access is the byte accesses it covers: a read
returns their big-endian concatenation and leaves the machine alone, a write
leaves the machine of the byte writes in increasing address order. -/
theorem wide_access_eq_bytes (s : Sys) (addr : U32) (mmio : isMmioRegion (physical addr) = false) :
    (2 ∣ addr.toNat →
      read16 s addr = (byte s addr 0 ++ byte s addr 1, s) ∧
      ∀ v, (write16 s addr v).Same (writeBytes s addr (bigEndian16 v))) ∧
    (4 ∣ addr.toNat →
      read32 s addr = (byte s addr 0 ++ byte s addr 1 ++ byte s addr 2 ++ byte s addr 3, s) ∧
      ∀ v, (write32 s addr v).Same (writeBytes s addr (bigEndian32 v))) ∧
    (8 ∣ addr.toNat →
      read64 s addr =
        ((byte s addr 0 ++ byte s addr 1 ++ byte s addr 2 ++ byte s addr 3) ++
          (byte s addr 4 ++ byte s addr 5 ++ byte s addr 6 ++ byte s addr 7), s) ∧
      ∀ v, (write64 s addr v).Same (writeBytes s addr (bigEndian64 v))) := by
  refine ⟨fun aligned => ?_, fun aligned => ?_, fun aligned => ?_⟩
  · exact ⟨read16_eq s mmio (by omega), write16_same s mmio (by omega)⟩
  · exact ⟨read32_eq s mmio (by omega), write32_same s mmio (by omega)⟩
  · exact ⟨read64_eq s mmio (by omega), write64_same s mmio (by omega)⟩

theorem wide_access_eq_bytes_dmem :
    (write32 {} 0x04000010 0x11223344).Same
      (writeBytes {} 0x04000010 [0x11, 0x22, 0x33, 0x44]) :=
  ((wide_access_eq_bytes {} 0x04000010 (by decide)).2.1 (by decide)).2 0x11223344

end Bus

end N64
