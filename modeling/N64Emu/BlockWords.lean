import N64Emu.BlockCache
import N64Emu.BusBytes
import N64Emu.StepEffect
import N64Emu.Translation

/-!
# The words of a compiled block

`compile` walks from the address over its own translations and reads, without
the alignment test of `fetch` and past the registers. Where the walk gets to,
the two reads agree unless a register there is not zero.
-/

set_option autoImplicit false

namespace N64

open Words Insn

namespace BlockCache

/-- The word `compile` reads at an address that translates. -/
def constWord (s : Sys) (v : U64) : Option U32 :=
  match s.cpu.translateAddress v false with
  | .ok p => some (Bus.read32Const s p)
  | .error _ => none

/-- The walk of at most `n` words from an address gets to the `i`-th word: it
goes on behind a plain word up to the end of the page, and to the delay slot
of a branch. -/
def Reaches (s : Sys) : ℕ → U64 → ℕ → Prop
  | 0, _, _ => False
  | _ + 1, _, 0 => True
  | n + 1, v, i + 1 => ∃ insn, constWord s v = some insn ∧
      if isBranchOrJump insn then i = 0
      else isTerminalNoDelay insn = false ∧ (v + 4) &&& 0xFFF ≠ 0 ∧ Reaches s n (v + 4) i

variable {s : Sys}

theorem address_next (v : U64) (i : ℕ) :
    v + BitVec.ofNat 64 (4*(i + 1)) = v + 4 + BitVec.ofNat 64 (4*i) := by
  rw [Nat.mul_add, Nat.add_comm, BitVec.ofNat_add, ← BitVec.add_assoc]
  rfl

def wordsBehind (s : Sys) (n : ℕ) (v : U64) (insn : U32) : List U32 :=
  if isBranchOrJump insn then (constWord s (v + 4)).toList
  else if isTerminalNoDelay insn ∨ (v + 4) &&& 0xFFF = 0 then []
  else (fetchWords s n (v + 4)).1.map (·.2)

theorem fetchWords_succ (n : ℕ) (v : U64) : (fetchWords s (n + 1) v).1.map (·.2) =
    match constWord s v with
    | none => []
    | some insn => insn :: wordsBehind s n v insn := by
  rw [fetchWords, constWord]
  cases s.cpu.translateAddress v false with
  | error fault => rfl
  | ok p =>
    simp only [wordsBehind, constWord]
    by_cases branch : isBranchOrJump (Bus.read32Const s p) = true
    · rw [if_pos branch, if_pos branch]
      cases s.cpu.translateAddress (v + 4) false <;> rfl
    · rw [if_neg branch, if_neg branch]
      by_cases terminal : isTerminalNoDelay (Bus.read32Const s p) = true
      · rw [if_pos terminal, if_pos (Or.inl terminal)]
        rfl
      · rw [if_neg terminal]
        by_cases page : (v + 4) &&& 0xFFF = 0
        · rw [if_pos page, if_pos (Or.inr page)]
          rfl
        · rw [if_neg page, if_neg (not_or.mpr ⟨terminal, page⟩)]
          rfl

theorem fetchWords_iff (n : ℕ) (v : U64) (i : ℕ) (insn : U32) :
    ((fetchWords s n v).1.map (·.2))[i]? = some insn ↔
      Reaches s n v i ∧ constWord s (v + BitVec.ofNat 64 (4*i)) = some insn := by
  induction n generalizing v i with
  | zero => simp [fetchWords, Reaches]
  | succ n ih =>
    rw [fetchWords_succ]
    cases i with
    | zero =>
      rw [show v + BitVec.ofNat 64 (4*0) = v from BitVec.add_zero v]
      cases constWord s v <;> simp [Reaches]
    | succ i =>
      rw [address_next, Reaches]
      cases word : constWord s v with
      | none => simp
      | some first =>
        rw [List.getElem?_cons_succ, wordsBehind]
        simp only [Option.some.injEq, exists_eq_left']
        by_cases branch : isBranchOrJump first = true
        · rw [if_pos branch, if_pos branch]
          cases i with
          | zero =>
            rw [show v + 4 + BitVec.ofNat 64 (4*0) = v + 4 from BitVec.add_zero _]
            cases constWord s (v + 4) <;> simp
          | succ i => cases constWord s (v + 4) <;> simp
        · rw [if_neg branch, if_neg branch]
          by_cases stops : isTerminalNoDelay first ∨ (v + 4) &&& 0xFFF = 0
          · rw [if_pos stops, List.getElem?_nil]
            constructor
            · intro word
              cases word
            · rintro ⟨⟨plain, inPage, -⟩, -⟩
              rcases stops with terminal | page
              · rw [plain] at terminal
                cases terminal
              · exact absurd page inPage
          · rw [if_neg stops, ih]
            obtain ⟨terminal, page⟩ := not_or.mp stops
            have plain : isTerminalNoDelay first = false := by simpa using terminal
            constructor
            · rintro ⟨rest, word⟩
              exact ⟨⟨plain, page, rest⟩, word⟩
            · rintro ⟨⟨-, -, rest⟩, word⟩
              exact ⟨rest, word⟩

theorem compiled_words (c : BlockCache) {vaddr : U64} {blk : BasicBlock}
    (compiled : (c.compile s vaddr).1 = some blk) :
    blk.startPc = vaddr ∧ blk.insns = (fetchWords s kMaxBlockInsns vaddr).1.map (·.2) ∧
      blk.insns ≠ [] := by
  rw [compile] at compiled
  cases translated : s.cpu.translateAddress vaddr false with
  | error fault =>
    rw [translated] at compiled
    cases compiled
  | ok p =>
    rw [translated] at compiled
    dsimp only at compiled
    by_cases empty : (buildBlock s vaddr p).insns.isEmpty = true
    · rw [if_pos empty] at compiled
      cases compiled
    · rw [if_neg empty] at compiled
      cases compiled
      exact ⟨rfl, rfl, fun nothing => empty (by rw [nothing]; rfl)⟩

end BlockCache

namespace Bus

theorem mmio_window {p : PhysicalAddress} (mmio : isMmioRegion p = true) :
    0x04040000 ≤ p.toNat ∧ p.toNat < 0x05000000 ∧ p.toNat % 0x10000 < 0x40 := by
  simp only [isMmioRegion, Mmio.inRange, Mmio.SP_REGS_BASE, Mmio.SP_REGS2_BASE,
    Mmio.DP_CMD_BASE, Mmio.MI_BASE, Mmio.VI_BASE, Mmio.AI_BASE, Mmio.PI_BASE, Mmio.RI_BASE,
    Mmio.SI_BASE, Bool.or_eq_true, Bool.and_eq_true] at mmio
  simp at mmio
  omega

theorem read8Const_mmio (s : Sys) {addr : U32} {i : ℕ} (small : i < 4)
    (block : addr.toNat % 16 + i < 16) (mmio : isMmioRegion (physical addr) = true) :
    read8Const s (addr + BitVec.ofNat 32 i) = 0 := by
  obtain ⟨above, below, offset⟩ := mmio_window mmio
  have place := physical_add addr i block
  have open_ : read8Const s (addr + BitVec.ofNat 32 i) =
      readOpenBus (physical (addr + BitVec.ofNat 32 i)) := by
    simp only [read8Const]
    rw [if_neg (by omega), if_neg (by omega), if_neg (by omega), if_neg (by omega),
      if_neg (by omega), if_neg (by omega)]
  rw [open_]
  apply BitVec.eq_of_toNat_eq
  rw [readOpenBus, BitVec.toNat_setWidth, BitVec.toNat_and, BitVec.toNat_ushiftRight, place,
    Nat.shiftRight_eq_div_pow]
  have mask := Nat.and_two_pow_sub_one_eq_mod (((physical addr).toNat + i) / 2 ^ 8) 8
  change (((physical addr).toNat + i) / 2 ^ 8 &&& (2 ^ 8 - 1)) % 2 ^ 8 = 0
  rw [mask]
  omega

theorem read32Const_mmio (s : Sys) {addr : U32} (aligned : addr.toNat % 4 = 0)
    (mmio : isMmioRegion (physical addr) = true) : read32Const s addr = 0 := by
  have byte (i : ℕ) (small : i < 4) := read8Const_mmio s small (by omega) mmio
  have zero := byte 0 (by decide)
  rw [BitVec.add_zero] at zero
  rw [read32Const_eq s addr (by omega), zero]
  have one : read8Const s (addr + 1) = 0 := byte 1 (by decide)
  have two : read8Const s (addr + 2) = 0 := byte 2 (by decide)
  have three : read8Const s (addr + 3) = 0 := byte 3 (by decide)
  rw [one, two, three]
  rfl

theorem read32Const_physical (s : Sys) {addr : U32} (aligned : addr.toNat % 4 = 0) :
    read32Const s (physical addr) = read32Const s addr := by
  have low := physical_toNat addr
  have byte (i : ℕ) (small : i < 4) : read8Const s (physical addr + BitVec.ofNat 32 i) =
      read8Const s (addr + BitVec.ofNat 32 i) := read8Const_add s i (by omega)
  rw [read32Const_eq s _ (by omega), read32Const_eq s addr (by omega)]
  have zero := byte 0 (by decide)
  rw [BitVec.add_zero, BitVec.add_zero] at zero
  have one : read8Const s (physical addr + 1) = read8Const s (addr + 1) := byte 1 (by decide)
  have two : read8Const s (physical addr + 2) = read8Const s (addr + 2) := byte 2 (by decide)
  have three : read8Const s (physical addr + 3) = read8Const s (addr + 3) := byte 3 (by decide)
  rw [zero, one, two, three]

end Bus

namespace Cpu

/-- A fetch at the address raises no exception and returns the word. -/
def FetchReturns (s : Sys) (v : U64) (insn : U32) : Prop :=
  (fetch s v).2.cpu.exceptionCount = s.cpu.exceptionCount ∧ (fetch s v).1 = insn

variable {s : Sys}

theorem fetchReturns_unaligned {v : U64} (unaligned : v &&& 3 ≠ 0) (insn : U32) :
    ¬FetchReturns s v insn := by
  rintro ⟨counted, -⟩
  rw [fetch, if_pos unaligned] at counted
  simp [Sys.onCpu] at counted

theorem translateAddress_aligned {v : U64} {p : PhysicalAddress} (aligned : v &&& 3 = 0)
    (translated : s.cpu.translateAddress v false = .ok p) : p.toNat % 4 = 0 := by
  have page := s.cpu.translateAddress_page translated
  have offset : (v &&& 3).toNat = v.toNat % 4 := Nat.and_two_pow_sub_one_eq_mod v.toNat 2
  rw [aligned] at offset
  change 0 = v.toNat % 4 at offset
  omega

/-- The two reads of an aligned word agree outside the registers, and where a
register is zero. -/
theorem fetchReturns_iff {v : U64} {p : PhysicalAddress} (aligned : v &&& 3 = 0)
    (translated : s.cpu.translateAddress v false = .ok p) :
    FetchReturns s v (Bus.read32Const s p) ↔
      (Bus.isMmioRegion (Bus.physical p) = true →
        (Bus.readMmio32 s (Bus.physical p &&& ~~~3)).1 = 0) := by
  have low := translateAddress_aligned aligned translated
  have fetched : fetch s v = Bus.read32 s p := by
    rw [fetch, if_neg (by rw [aligned]; simp), translateOrRaise, translated]
  have cpu : (Bus.read32 s p).2.cpu = s.cpu := frame_cpu (frame_read32 s p)
  rw [FetchReturns, fetched, cpu]
  by_cases mmio : Bus.isMmioRegion (Bus.physical p) = true
  · rw [Bus.read32Const_mmio s low mmio]
    simp [Bus.read32, mmio]
  · simp [Bus.read32, mmio, Bus.read32Const_physical s low]

theorem add_aligned {v : U64} (aligned : v &&& 3 = 0) (i : ℕ) :
    (v + BitVec.ofNat 64 (4*i)) &&& 3 = 0 := by
  have offset (x : U64) : (x &&& 3).toNat = x.toNat % 4 :=
    Nat.and_two_pow_sub_one_eq_mod x.toNat 2
  have base := offset v
  rw [aligned] at base
  change 0 = v.toNat % 4 at base
  apply BitVec.eq_of_toNat_eq
  rw [offset, BitVec.toNat_add, BitVec.toNat_ofNat]
  change _ = 0
  omega

/-- The words of a block are what fetches return exactly when the address is
aligned and the registers among them are zero. -/
theorem compile_faithful_iff (c : BlockCache) (s : Sys) (vaddr : U64) (blk : BasicBlock)
    (compiled : (c.compile s vaddr).1 = some blk) :
    (∀ i (inside : i < blk.insns.length),
        FetchReturns s (blk.startPc + BitVec.ofNat 64 (4*i)) blk.insns[i]) ↔
      vaddr &&& 3 = 0 ∧ ∀ i p, BlockCache.Reaches s BlockCache.kMaxBlockInsns vaddr i →
        s.cpu.translateAddress (vaddr + BitVec.ofNat 64 (4*i)) false = .ok p →
        Bus.isMmioRegion (Bus.physical p) = true →
        (Bus.readMmio32 s (Bus.physical p &&& ~~~3)).1 = 0 := by
  obtain ⟨start, words, nonempty⟩ := BlockCache.compiled_words c compiled
  have word (i : ℕ) (insn : U32) : blk.insns[i]? = some insn ↔
      BlockCache.Reaches s BlockCache.kMaxBlockInsns vaddr i ∧
        BlockCache.constWord s (vaddr + BitVec.ofNat 64 (4*i)) = some insn := by
    rw [words]
    exact BlockCache.fetchWords_iff _ _ _ _
  rw [start]
  constructor
  · intro returns
    have first := returns 0 (List.length_pos_of_ne_nil nonempty)
    rw [BitVec.add_zero] at first
    have aligned : vaddr &&& 3 = 0 := by
      by_contra unaligned
      exact fetchReturns_unaligned unaligned _ first
    refine ⟨aligned, ?_⟩
    intro i p reaches translated
    have const : BlockCache.constWord s (vaddr + BitVec.ofNat 64 (4*i)) =
        some (Bus.read32Const s p) := by
      rw [BlockCache.constWord, translated]
    have found := (word i (Bus.read32Const s p)).mpr ⟨reaches, const⟩
    obtain ⟨inside, value⟩ := List.getElem?_eq_some_iff.mp found
    have here := returns i inside
    rw [value] at here
    exact (fetchReturns_iff (add_aligned aligned i) translated).mp here
  · rintro ⟨aligned, registers⟩ i inside
    obtain ⟨reaches, const⟩ := (word i blk.insns[i]).mp (List.getElem?_eq_getElem inside)
    rw [BlockCache.constWord] at const
    cases translated : s.cpu.translateAddress (vaddr + BitVec.ofNat 64 (4*i)) false with
    | error fault =>
      rw [translated] at const
      cases const
    | ok p =>
      rw [translated] at const
      rw [← Option.some.inj const, fetchReturns_iff (add_aligned aligned i) translated]
      exact registers i p reaches translated

/-- ADDIU $1, $0, 5 and BEQ $0, $0 end a page, with ADDIU $2, $0, 7 in the slot. -/
def branchAcross : List U32 := [0x24010005, 0x10000003, 0x24020007]

def acrossPages : Sys where
  bus := { rdram := fun i =>
    (branchAcross.getD (i / 4 - 0x3FE) 0).extractLsb' (8*(3 - i % 4)) 8 }

theorem acrossPages_reaches {n i : ℕ}
    (reaches : BlockCache.Reaches acrossPages n 0xFFFFFFFF80000FF8 i) : i < 3 := by
  have plain : BlockCache.constWord acrossPages 0xFFFFFFFF80000FF8 = some 0x24010005 := by
    decide +kernel
  have branch : BlockCache.constWord acrossPages (0xFFFFFFFF80000FF8 + 4) = some 0x10000003 := by
    decide +kernel
  rcases i with _ | _ | i
  · decide
  · decide
  rcases n with _ | _ | n
  · exact reaches.elim
  · obtain ⟨first, word, rest⟩ := reaches
    cases plain.symm.trans word
    exact rest.2.2.elim
  · obtain ⟨first, word, rest⟩ := reaches
    cases plain.symm.trans word
    obtain ⟨second, word, rest⟩ := rest.2.2
    cases branch.symm.trans word
    have last : i = 0 := rest
    omega

theorem compile_faithful_across :
    FetchReturns acrossPages 0xFFFFFFFF80000FF8 0x24010005 ∧
      FetchReturns acrossPages 0xFFFFFFFF80000FFC 0x10000003 ∧
      FetchReturns acrossPages 0xFFFFFFFF80001000 0x24020007 := by
  have compiled : (({} : BlockCache).compile acrossPages 0xFFFFFFFF80000FF8).1 =
      some { startPc := 0xFFFFFFFF80000FF8, paddr := 0xFF8, insns := branchAcross
             endsWithBranch := true, paddrs := [0xFF8, 0xFFC, 0x1000] } := by decide +kernel
  have memory : ∀ j < 3, (acrossPages.cpu.translateAddress
      (0xFFFFFFFF80000FF8 + BitVec.ofNat 64 (4*j)) false).toOption.all
        fun q => !Bus.isMmioRegion (Bus.physical q) := by decide
  have law := (compile_faithful_iff {} acrossPages 0xFFFFFFFF80000FF8 _ compiled).mpr
    ⟨by decide, fun i p reaches translated mmio => by
      have apart := memory i (acrossPages_reaches reaches)
      rw [translated] at apart
      simp [Except.toOption, mmio] at apart⟩
  exact ⟨law 0 (by decide), law 1 (by decide), law 2 (by decide)⟩

def emptyBlock (pc : U64) (paddr : PhysicalAddress) : BasicBlock :=
  { startPc := pc
    paddr := paddr
    insns := List.replicate 32 0
    paddrs := (List.range 32).map fun i => paddr + BitVec.ofNat 32 (4*i) }

/-- A block at an address that is not aligned, where a fetch raises, and one
that starts at the status register of the RSP, where a fetch returns 1. -/
theorem unaligned_block_differs :
    (∃ blk insn, (({} : BlockCache).compile {} 0xFFFFFFFF80000001).1 = some blk ∧
      blk.insns[0]? = some insn ∧ ¬FetchReturns {} blk.startPc insn) ∧
    ∃ blk insn, (({} : BlockCache).compile {} 0xFFFFFFFFA4040010).1 = some blk ∧
      blk.insns[0]? = some insn ∧ ¬FetchReturns {} blk.startPc insn := by
  refine ⟨⟨emptyBlock 0xFFFFFFFF80000001 1, 0, ?_, rfl, ?_⟩,
    ⟨emptyBlock 0xFFFFFFFFA4040010 0x04040010, 0, ?_, rfl, ?_⟩⟩
  · decide +kernel
  · exact fetchReturns_unaligned (by decide) 0
  · decide +kernel
  · rintro ⟨-, value⟩
    revert value
    decide +kernel

end Cpu

end N64
