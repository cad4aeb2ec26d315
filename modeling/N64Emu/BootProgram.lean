import N64Emu.BootCoherence
import N64Emu.BusBytes
import N64Emu.CpuActs
import N64Emu.DpList
import N64Emu.LoaderAgreement
import N64Emu.PiDma
import N64Emu.TlbIntervals

/-!
# The program a loaded machine runs

A load resets the machine, lets the PI copy the program of the image to RDRAM
and starts the CPU at the entry point. So RDRAM holds the program and nothing
else, and what the CPU fetches from the entry point on is the image.
-/

set_option autoImplicit false

namespace N64

open Words Loops Cart

namespace Boot

/-- RDRAM, the cartridge and their sizes. -/
structure Memory where
  rdramSize : ℕ
  rdram : Bytes
  cartSize : ℕ
  cart : Bytes

def memory (s : Sys) : Memory where
  rdramSize := s.bus.rdramSize
  rdram := s.bus.rdram
  cartSize := s.bus.cartSize
  cart := s.bus.cart

/-- The bytes of the program: what follows the boot code, a megabyte of it
unless the configuration asks for a size. -/
def programSize (cfg : BootConfig) (imageSize : ℕ) : ℕ :=
  min (if cfg.loadSize = 0 then 1024 * 1024 else cfg.loadSize) (imageSize - 0x1000)

section Stages

variable {s : Sys}

end Stages

section Copy

variable {s : Sys} {dest : U32} {n : ℕ}

/-- RDRAM after the PI has copied `n` bytes of the program to `dest`. -/
structure Copied (m : Memory) (dest : U32) (n : ℕ) (rdram : Bytes) : Prop where
  stored : ∀ i < n, rdram ((Pi.programmedDram dest + i) % m.rdramSize) = m.cart (0x1000 + i)
  others : ∀ k, (∀ i < n, (Pi.programmedDram dest + i) % m.rdramSize ≠ k) → rdram k = m.rdram k

/-- The CPU is about to execute the word at the entry point, in kernel mode and
with its interrupts off. -/
structure AtEntry (entry : U32) (c : Cpu) : Prop where
  pc : c.pc = entry.setWidth 64
  nextPc : c.nextPc = entry.setWidth 64 + 4
  settled : c.branchPending = false
  running : c.halted = false
  status : c.status = 0x34000000

/-- What a high-level boot leaves. -/
structure Booted (cfg : BootConfig) (hdr : CartHeader) (m : Memory) (t : Sys) : Prop where
  aside : memory t = { m with rdram := t.bus.rdram }
  program : Copied m (loadPhysFromEntry hdr.entrypoint) (programSize cfg m.cartSize) t.bus.rdram
  cpu : AtEntry hdr.entrypoint t.cpu

end Copy

section Fetch

variable {t : Sys} {entry : U32} {n size : ℕ}

/-- An entry point from which `n` bytes fit into RDRAM, seen unmapped. -/
structure Placed (entry : U32) (n size : ℕ) : Prop where
  aligned : entry.toNat % 4 = 0
  segment : 0x80000000 ≤ entry.toNat ∧ entry.toNat < 0xC0000000
  room : entry.toNat % 2 ^ 29 + n ≤ size

theorem AtEntry.mode {c : Cpu} (h : AtEntry entry c) : c.mode = 0 := by
  rw [Cpu.mode, h.status]
  decide

theorem read32_rdram {p : U32} (small : p.toNat + 4 ≤ t.bus.rdramSize)
    (low : t.bus.rdramSize ≤ 2 ^ 24) (aligned : p.toNat % 4 = 0) :
    (Bus.read32 t p).1 = join32 (t.bus.rdram p.toNat) (t.bus.rdram (p.toNat + 1))
      (t.bus.rdram (p.toNat + 2)) (t.bus.rdram (p.toNat + 3)) := by
  have physical : (Bus.physical p).toNat = p.toNat := by
    rw [Bus.physical_toNat, Nat.mod_eq_of_lt (by omega)]
  have memory : Bus.isMmioRegion (Bus.physical p) = false :=
    Rdp.isMmioRegion_below (by omega)
  have byte (i : ℕ) (lt : i < 4) : Bus.byte t p i = t.bus.rdram (p.toNat + i) := by
    have at_ : (Bus.physical (p + BitVec.ofNat 32 i)).toNat = p.toNat + i := by
      rw [Bus.physical_add p i (by omega), physical]
    rw [Bus.byte_eq t memory i (by omega), Bus.read8Const_add t i (by omega),
      Bus.read8Const_rdram t at_ (by omega) (by omega), Nat.mod_eq_of_lt (by omega)]
  rw [Bus.read32_eq t memory (by omega), byte 0 (by omega), byte 1 (by omega), byte 2 (by omega),
    byte 3 (by omega), ← join32_eq_append]
  rfl

theorem Placed.translate (h : Placed entry n size) (low : size ≤ 2 ^ 24) {c : Cpu}
    (start : AtEntry entry c) {i : ℕ} (inside : 4 * i + 4 ≤ n) :
    ∃ p : U32, c.translateAddress (c.pc + BitVec.ofNat 64 (4 * i)) false = .ok p ∧
      p.toNat = entry.toNat % 2 ^ 29 + 4 * i := by
  have room := h.room
  have segment := h.segment
  have bound := entry.isLt
  have value : ((c.pc + BitVec.ofNat 64 (4 * i)).setWidth 32).toNat = entry.toNat + 4 * i := by
    rw [start.pc, BitVec.toNat_setWidth, BitVec.toNat_add, BitVec.toNat_setWidth,
      BitVec.toNat_ofNat]
    omega
  refine ⟨(c.pc + BitVec.ofNat 64 (4 * i)).setWidth 32 &&& 0x1FFFFFFF, ?_, ?_⟩
  · simp only [Cpu.translateAddress, start.mode, value]
    rw [if_neg (by omega)]
    split_ifs with direct uncached
    · exact absurd rfl ‹¬ (0 = 0)›
    · rfl
    · exact absurd rfl ‹¬ (0 = 0)›
    · rfl
    · omega
  · rw [Cpu.toNat_and_bus, value]
    omega

def Memory.image (m : Memory) : List U8 := (List.range m.cartSize).map m.cart

/-- The word `i` of the program in an image. -/
def programWord (image : List U8) (i : ℕ) : U32 := beU32 image (0x1000 + 4 * i)

theorem programWord_image (m : Memory) {i : ℕ} (inside : 0x1000 + 4 * i + 4 ≤ m.cartSize) :
    programWord m.image i = join32 (m.cart (0x1000 + 4 * i)) (m.cart (0x1000 + 4 * i + 1))
      (m.cart (0x1000 + 4 * i + 2)) (m.cart (0x1000 + 4 * i + 3)) := by
  have length : m.image.length = m.cartSize := by simp [Memory.image]
  have byte {k : ℕ} (lt : k < m.cartSize) : m.image.getD k 0 = m.cart k := by
    simp [Memory.image, lt]
  rw [programWord, beU32, length, if_neg (by omega), byte (by omega), byte (by omega),
    byte (by omega), byte (by omega)]

theorem programmedDram_entry (h : Placed entry n size) (nonzero : 0 < n) (low : size ≤ 2 ^ 24) :
    Pi.programmedDram (loadPhysFromEntry entry) = entry.toNat % 2 ^ 29 := by
  have room := h.room
  have aligned := h.aligned
  rw [Pi.programmedDram, loadPhysFromEntry, Cpu.toNat_and_bus]
  omega

/-- With the program counter at a word of the program, the step fetches the word. -/
theorem Booted.fetches {cfg : BootConfig} {hdr : CartHeader} {m : Memory}
    (h : Booted cfg hdr m t) (low : m.rdramSize ≤ 2 ^ 24)
    (placed : Placed hdr.entrypoint (programSize cfg m.cartSize) m.rdramSize) {i : ℕ}
    (inside : 4 * i + 4 ≤ programSize cfg m.cartSize) :
    Cpu.Fetches (t.onCpu (·.setPc (t.cpu.pc + BitVec.ofNat 64 (4 * i))))
      (programWord m.image i) := by
  have room := placed.room
  have aligned := placed.aligned
  have rdramSize : t.bus.rdramSize = m.rdramSize := congrArg Memory.rdramSize h.aside
  have available : programSize cfg m.cartSize ≤ m.cartSize - 0x1000 := Nat.min_le_right _ _
  obtain ⟨p, translated, value⟩ := placed.translate low h.cpu inside
  have dest := programmedDram_entry placed (by omega) low
  have byte (j : ℕ) (lt : j < 4) : t.bus.rdram (p.toNat + j) = m.cart (0x1000 + (4 * i + j)) := by
    rw [← h.program.stored (4 * i + j) (by omega), dest, Nat.mod_eq_of_lt (by omega), value,
      Nat.add_assoc]
  have fetched := read32_rdram (t := t.onCpu (·.setPc (t.cpu.pc + BitVec.ofNat 64 (4 * i))))
    (p := p) (show p.toNat + 4 ≤ t.bus.rdramSize by omega)
    (show t.bus.rdramSize ≤ 2 ^ 24 by omega) (by omega)
  refine ⟨p, ?_, translated, ?_⟩
  · have low (x : U64) : (x &&& 3).toNat = x.toNat % 2 ^ 2 :=
      LowMasks.toNat_and_low (n := 2) x (by decide)
    have zero : (0 : U64).toNat = 0 := rfl
    show (t.cpu.pc + BitVec.ofNat 64 (4 * i)) &&& 3 = 0
    apply BitVec.eq_of_toNat_eq
    rw [low, h.cpu.pc, BitVec.toNat_add, BitVec.toNat_setWidth, BitVec.toNat_ofNat, zero]
    omega
  · have b0 := byte 0 (by omega)
    have b1 := byte 1 (by omega)
    have b2 := byte 2 (by omega)
    have b3 := byte 3 (by omega)
    rw [fetched, programWord_image m (by omega)]
    show join32 (t.bus.rdram p.toNat) (t.bus.rdram (p.toNat + 1)) (t.bus.rdram (p.toNat + 2))
      (t.bus.rdram (p.toNat + 3)) = _
    rw [b1, b2, b3]
    exact congrArg (fun b => join32 b _ _ _) b0

end Fetch

end Boot

namespace Emulator

open Boot

section Loads

variable {files : Files} {cfg : BootConfig} {e : Emulator}

theorem AtEntry.calm {entry : U32} {c : Cpu} (h : AtEntry entry c) : ¬ c.TakesInterrupt := by
  rintro ⟨-, enabled, -⟩
  rw [h.status] at enabled
  exact enabled (by decide)

end Loads

end Emulator

end N64
