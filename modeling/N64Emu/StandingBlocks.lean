import N64Emu.BlockWords
import N64Emu.CacheInvalidation
import N64Emu.CachedTranslations

/-!
# Blocks that stand

What the block cache holds is told by the steps alone, without the cache: a
block built at some step stands until a step announces a write over it or a
change of the mapping. The cache never holds a block that does not stand.
-/

set_option autoImplicit false

namespace N64

open Words Insn

/-- What makes the cache give a block up. -/
def Event.drops (b : BasicBlock) : Event → Bool
  | .flush => true
  | .notify p n =>
    n = 0 || 256 * 1024 ≤ n.toNat ||
      b.overlaps (Bus.physical p).toNat ((Bus.physical p).toNat + n.toNat)
  | _ => false

namespace BlockCache

/-- The block compiled for the program counter, outside a delay slot. -/
def blockAt (s : Sys) : Option BasicBlock :=
  if s.cpu.branchPending then none
  else
    match s.cpu.translateAddress s.cpu.pc false with
    | .ok p => some (buildBlock s s.cpu.pc p)
    | .error _ => none

/-- The address of the `x`-th word of a block. -/
def wordPc (b : BasicBlock) (x : ℕ) : U64 := b.startPc + BitVec.ofNat 64 (4*x)

/-- Where that word is read. -/
def wordPlace (s : Sys) (b : BasicBlock) (x : ℕ) : Option PhysicalAddress :=
  (s.cpu.translateAddress (wordPc b x) false).toOption

section Words

variable {s : Sys} {b : BasicBlock} {p : PhysicalAddress} {x : ℕ}

theorem wordPc_succ (b : BasicBlock) (x : ℕ) : wordPc b (x + 1) = wordPc b x + 4 := by
  rw [wordPc, wordPc, Nat.mul_add, BitVec.ofNat_add, BitVec.add_assoc]
  rfl

theorem wordPlace_eq : wordPlace s b x = some p ↔
    s.cpu.translateAddress (wordPc b x) false = .ok p := by
  rw [wordPlace]
  cases s.cpu.translateAddress (wordPc b x) false <;> simp [Except.toOption]

theorem constWord_eq {v : U64} {insn : U32} : constWord s v = some insn ↔
    ∃ p, s.cpu.translateAddress v false = .ok p ∧ Bus.read32Const s p = insn := by
  rw [constWord]
  cases s.cpu.translateAddress v false <;> simp

theorem blockAt_eq (built : blockAt s = some b) : s.cpu.branchPending = false ∧
    b.startPc = s.cpu.pc ∧ ∃ p, s.cpu.translateAddress s.cpu.pc false = .ok p ∧
      b = buildBlock s s.cpu.pc p := by
  rw [blockAt] at built
  cases slot : s.cpu.branchPending with
  | true =>
    rw [slot] at built
    cases built
  | false =>
    rw [slot, if_neg Bool.false_ne_true] at built
    cases place : s.cpu.translateAddress s.cpu.pc false with
    | error fault =>
      rw [place] at built
      cases built
    | ok p =>
      rw [place] at built
      cases built
      exact ⟨rfl, rfl, p, rfl, rfl⟩

theorem blockAt_words (built : blockAt s = some b) (inside : x < b.insns.length) :
    constWord s (wordPc b x) = some b.insns[x] := by
  obtain ⟨-, -, p, -, rfl⟩ := blockAt_eq built
  exact ((fetchWords_iff kMaxBlockInsns s.cpu.pc x _).mp (List.getElem?_eq_getElem inside)).2

theorem buildBlock_nonempty (translated : s.cpu.translateAddress s.cpu.pc false = .ok p) :
    (buildBlock s s.cpu.pc p).insns ≠ [] := by
  have first : constWord s s.cpu.pc = some (Bus.read32Const s p) := by
    rw [constWord, translated]
  intro nothing
  have words := fetchWords_succ (s := s) 31 s.cpu.pc
  rw [first] at words
  rw [buildBlock, show kMaxBlockInsns = 31 + 1 from rfl] at nothing
  dsimp only at nothing
  rw [nothing] at words
  cases words

end Words

end BlockCache

namespace Cpu

open BlockCache

variable (fp : HostFpu) (s : Sys)

/-- The system after `k` steps, each of which fetches its word. -/
def after (k : ℕ) : Sys := (CpuAct.step.performFresh fp)^[k] s

/-- What the step behind the first `k` notes for the cache. -/
def noted (k : ℕ) : List Event := (step fp { after fp s k with log := [] }).log

/-- Nothing from step `j` up to step `k` drops the block. -/
def Standing (j k : ℕ) (b : BasicBlock) : Prop :=
  ∀ i < k, j ≤ i → ∀ e ∈ noted fp s i, e.drops b = false

instance (j k : ℕ) (b : BasicBlock) : Decidable (Standing fp s j k b) :=
  inferInstanceAs (Decidable (∀ i < k, _))

/-- Step `k` comes, outside a delay slot, to the start of a block that was
built at step `j` and stands. -/
structure Found (j k : ℕ) (b : BasicBlock) : Prop where
  le : j ≤ k
  built : blockAt (after fp s j) = some b
  stands : Standing fp s j k b
  start : (after fp s k).cpu.pc = b.startPc
  settled : (after fp s k).cpu.branchPending = false

/-- The steps from `k` on have come to the `y`-th word of a block without an
exception. -/
def AtWord (k : ℕ) (b : BasicBlock) (y : ℕ) : Prop :=
  (after fp s (k + y)).cpu.pc = wordPc b y ∧
    (after fp s (k + y)).cpu.exceptionCount = (after fp s k).cpu.exceptionCount

instance (k : ℕ) (b : BasicBlock) (y : ℕ) : Decidable (AtWord fp s k b y) :=
  inferInstanceAs (Decidable (_ ∧ _))

/-- The steps at which a run of `n` steps looks for a block: it goes on behind
a step where there is no block or none that fits the rest of the run, and
behind a block where its words end or are left. -/
inductive Begins (n : ℕ) : ℕ → Prop
  | start : Begins n 0
  | step {k : ℕ} (begins : Begins n k) (absent : blockAt (after fp s k) = none) : Begins n (k + 1)
  | long {j k : ℕ} {b : BasicBlock} (built : Begins n j) (begins : Begins n k)
      (found : Found fp s j k b) (long : n < k + b.insns.length) : Begins n (k + 1)
  | block {j k i : ℕ} {b : BasicBlock} (built : Begins n j) (begins : Begins n k)
      (found : Found fp s j k b) (fits : k + b.insns.length ≤ n) (words : i ≤ b.insns.length)
      (along : ∀ y < i, AtWord fp s k b y) (left : i = b.insns.length ∨ ¬ AtWord fp s k b i) :
      Begins n (k + i)

/-- What a program must keep to for its cached words to stay what fetches of
its steps return. -/
structure Cacheable (n : ℕ) : Prop where
  /-- Blocks begin at word addresses. -/
  aligned : ∀ k < n, Begins fp s n k → ∀ b ∈ blockAt (after fp s k), b.startPc &&& 3 = 0
  /-- A step that changes a word of a standing block makes the cache give it up. -/
  announced : ∀ k < n, ∀ j ≤ k, Begins fp s n j → ∀ b ∈ blockAt (after fp s j),
    Standing fp s j k b → ∀ x < b.insns.length, ∀ p ∈ wordPlace (after fp s j) b x,
      Bus.read32Const (after fp s (k + 1)) p ≠ Bus.read32Const (after fp s k) p →
        ∃ e ∈ noted fp s k, e.drops b = true
  /-- The mode may fetch from the segment of a block that is found. -/
  opened : ∀ k < n, ∀ j ≤ k, Begins fp s n j → Begins fp s n k → ∀ b, Found fp s j k b →
    ∀ x < b.insns.length, Opens (after fp s k).cpu.mode ((wordPc b x).setWidth 32)
  /-- The words of a running block still read as at its start when they are reached. -/
  ahead : ∀ k < n, ∀ j ≤ k, Begins fp s n j → Begins fp s n k → ∀ b, Found fp s j k b →
    ∀ x < b.insns.length, k + x < n → (∀ y ≤ x, AtWord fp s k b y) →
      ¬ (after fp s (k + x)).cpu.TakesInterrupt →
        constWord (after fp s (k + x)) (wordPc b x) = constWord (after fp s k) (wordPc b x)
  /-- Registers that are executed read zero, without an effect. -/
  registers : ∀ k < n, ∀ j ≤ k, Begins fp s n j → Begins fp s n k → ∀ b, Found fp s j k b →
    ∀ x < b.insns.length, k + x < n → (∀ y ≤ x, AtWord fp s k b y) →
      ¬ (after fp s (k + x)).cpu.TakesInterrupt → ∀ p ∈ wordPlace (after fp s (k + x)) b x,
        Bus.isMmioRegion (Bus.physical p) = true →
          Bus.readMmio32 (after fp s (k + x)) (Bus.physical p &&& ~~~3) = (0, after fp s (k + x))

section Steps

variable {fp s} {j k : ℕ} {b : BasicBlock}

theorem after_succ (k : ℕ) :
    after fp s (k + 1) = CpuAct.step.performFresh fp (after fp s k) :=
  Function.iterate_succ_apply' _ k s

theorem Standing.succ (h : Standing fp s j k b)
    (quiet : ∀ e ∈ noted fp s k, e.drops b = false) : Standing fp s j (k + 1) b := by
  intro i below from_ e noted
  rcases Nat.lt_succ_iff_lt_or_eq.mp below with before | rfl
  · exact h i before from_ e noted
  · exact quiet e noted

theorem Standing.before {i : ℕ} (h : Standing fp s j k b) (le : i ≤ k) : Standing fp s j i b :=
  fun l below => h l (below.trans_le le)

theorem step_space (k : ℕ) : SameSpace (after fp s k).cpu (after fp s (k + 1)).cpu ∨
    Event.flush ∈ noted fp s k := by
  have next : (after fp s (k + 1)).cpu = (step fp { after fp s k with log := [] }).cpu := by
    rw [after_succ]
    rfl
  rw [next, noted]
  have same : SameSpace (after fp s k).cpu { after fp s k with log := [] }.cpu := ⟨rfl, rfl⟩
  by_cases returns : CpuAct.step.Returns { after fp s k with log := [] }
  · left
    obtain ⟨returned, -⟩ := act_returns fp returns
    change (step fp { after fp s k with log := [] }).cpu = _ at returned
    rw [returned]
    exact same.trans (returning_space _).1
  · have remaps : Remaps { after fp s k with log := [] }
        (step fp { after fp s k with log := [] }) := act_remaps fp .step returns
    cases remaps with
    | kept space mode => exact Or.inl (same.trans space)
    | flushed flush => exact Or.inr flush

theorem Standing.space (h : Standing fp s j k b) (le : j ≤ k) :
    SameSpace (after fp s j).cpu (after fp s k).cpu := by
  induction k, le using Nat.le_induction with
  | base => exact ⟨rfl, rfl⟩
  | succ k le ih =>
    refine (ih (h.before (Nat.le_succ k))).trans ((step_space k).resolve_right fun flush => ?_)
    have kept := h k (Nat.lt_succ_self k) le _ flush
    cases kept

theorem Cacheable.memory {n : ℕ} (cacheable : Cacheable fp s n) (built : Begins fp s n j)
    (block : blockAt (after fp s j) = some b) (stands : Standing fp s j k b) (le : j ≤ k)
    (within : k ≤ n) {x : ℕ} (inside : x < b.insns.length) {p : PhysicalAddress}
    (place : wordPlace (after fp s j) b x = some p) :
    Bus.read32Const (after fp s k) p = Bus.read32Const (after fp s j) p := by
  induction k, le using Nat.le_induction with
  | base => rfl
  | succ k le ih =>
    have before := stands.before (Nat.le_succ k)
    rw [← ih before (by omega)]
    by_contra changed
    obtain ⟨e, noted, drops⟩ :=
      cacheable.announced k within j le built b block before x inside p place changed
    rw [stands k (Nat.lt_succ_self k) le e noted] at drops
    cases drops

theorem Cacheable.fresh {n : ℕ} (cacheable : Cacheable fp s n) (within : k < n)
    (built : Begins fp s n j) (begins : Begins fp s n k) (found : Found fp s j k b) {x : ℕ}
    (inside : x < b.insns.length) :
    constWord (after fp s k) (wordPc b x) = some b.insns[x] := by
  obtain ⟨p, translated, word⟩ := constWord_eq.mp (blockAt_words found.built inside)
  have opens := cacheable.opened k within j found.le built begins b found x inside
  refine constWord_eq.mpr
    ⟨p, (found.stands.space found.le).translates translated opens, ?_⟩
  rw [cacheable.memory built found.built found.stands found.le within.le inside
    (wordPlace_eq.mpr translated), word]

theorem Cacheable.fetches {n : ℕ} (cacheable : Cacheable fp s n) (built : Begins fp s n j)
    (begins : Begins fp s n k) (found : Found fp s j k b) {x : ℕ} (inside : x < b.insns.length)
    (within : k + x < n) (along : ∀ y ≤ x, AtWord fp s k b y)
    (untaken : ¬ (after fp s (k + x)).cpu.TakesInterrupt) :
    fetch (after fp s (k + x)) (after fp s (k + x)).cpu.pc =
      (b.insns[x], after fp s (k + x)) := by
  have early : k < n := by omega
  have fresh := cacheable.fresh early built begins found inside
  rw [← cacheable.ahead k early j found.le built begins b found x inside within along untaken]
    at fresh
  obtain ⟨p, translated, word⟩ := constWord_eq.mp fresh
  have start : b.startPc &&& 3 = 0 :=
    cacheable.aligned j (found.le.trans_lt early) built b found.built
  have aligned : wordPc b x &&& 3 = 0 := add_aligned start x
  have low := translateAddress_aligned aligned translated
  rw [(along x le_rfl).1, fetch_translated aligned translated, Bus.read32]
  by_cases mmio : Bus.isMmioRegion (Bus.physical p) = true
  · have silent := cacheable.registers k early j found.le built begins b found x inside within
      along untaken p (wordPlace_eq.mpr translated) mmio
    rw [if_pos mmio, silent, ← word, Bus.read32Const_mmio _ low mmio]
  · rw [if_neg mmio, Bus.read32Const_physical _ low, word]

end Steps

end Cpu

namespace BlockCache

variable {c d : BlockCache}

theorem Consistent.onEvent (h : Consistent c) (e : Event) : Consistent (c.onEvent e) := by
  cases e with
  | notify p n =>
    dsimp only [BlockCache.onEvent]
    split
    · exact Consistent.perform (.invalidate (Bus.physical p) n) c h
    · exact h
  | flush => exact h.clear
  | load p n => exact h
  | store p n => exact h
  | wrote cell => exact h

theorem Consistent.onEvents (h : Consistent c) (es : List Event) :
    Consistent (es.foldl BlockCache.onEvent c) := by
  induction es generalizing c with
  | nil => exact h
  | cons e es ih => exact ih (h.onEvent e)

theorem onEvent_drops (h : Consistent c) {e : Event} {i : ℕ} (inside : i < kDirectTableSize)
    (drops : e.drops ((c.onEvent e).table i).block = true) :
    ((c.onEvent e).table i).valid = false := by
  by_contra live
  have valid : ((c.onEvent e).table i).valid = true := by simpa using live
  cases e with
  | flush => exact live (emptied_clear c i inside)
  | notify p n =>
    have before : (c.table i).valid = true :=
      (content_eq (shrinks_onEvent c (.notify p n) i valid)).1.symm.trans valid
    have filled : c.count ≠ 0 := by
      rw [h.count]
      exact Finset.card_ne_zero_of_mem ((mem_validSlots inside).mpr before)
    dsimp only [BlockCache.onEvent] at live valid drops
    rw [if_pos filled] at live valid drops
    simp only [Event.drops, Bool.or_eq_true, decide_eq_true_eq] at drops
    by_cases zero : n = 0
    · rw [invalidate, if_pos zero] at live
      exact live (emptied_clear c i inside)
    · by_cases small : n.toNat < kDirectTableSize * 4
      · obtain ⟨-, missed⟩ := invalidate_spec h (Bus.physical p) zero small
        have table : kDirectTableSize * 4 = 256 * 1024 := rfl
        have apart : ¬ (n = 0 ∨ 256 * 1024 ≤ n.toNat) := not_or.mpr ⟨zero, by omega⟩
        exact missed i inside ⟨valid, drops.resolve_left apart⟩
      · rw [invalidate, if_neg zero, if_pos (Nat.le_of_not_lt small)] at live
        exact live (emptied_clear c i inside)
  | load p n => cases drops
  | store p n => cases drops
  | wrote cell => cases drops

theorem onEvents_drops (h : Consistent c) {es : List Event} {e : Event} (member : e ∈ es) {i : ℕ}
    (inside : i < kDirectTableSize) (valid : ((es.foldl onEvent c).table i).valid = true) :
    e.drops ((es.foldl onEvent c).table i).block = false := by
  induction es generalizing c with
  | nil => cases member
  | cons first es ih =>
    rcases List.mem_cons.mp member with rfl | later
    · have same := shrinks_onEvents es (c.onEvent e) i valid
      obtain ⟨live, -, block⟩ := content_eq same
      by_contra drops
      rw [List.foldl_cons, block, Bool.not_eq_false] at drops
      have gone := onEvent_drops h inside drops
      rw [← live] at gone
      rw [List.foldl_cons, gone] at valid
      cases valid
    · exact ih (h.onEvent first) later valid

end BlockCache

namespace Cpu

open BlockCache

/-- The cache holds only blocks that a pass of the run has built and that stand. -/
structure Remembers (fp : HostFpu) (s : Sys) (n k : ℕ) (c : BlockCache) : Prop where
  consistent : c.Consistent
  slots : ∀ i < kDirectTableSize, (c.table i).valid = true →
    (c.table i).tagPc = (c.table i).block.startPc ∧ ∃ j ≤ k, Begins fp s n j ∧
      blockAt (after fp s j) = some (c.table i).block ∧ Standing fp s j k (c.table i).block

section Remembers

variable {fp : HostFpu} {s : Sys} {n k : ℕ} {c : BlockCache}

theorem remembers_empty (consistent : c.Consistent) (empty : c.count = 0) :
    Remembers fp s n k c := by
  refine ⟨consistent, fun i inside valid => ?_⟩
  have nothing : c.validSlots = ∅ := Finset.card_eq_zero.mp (consistent.count.symm.trans empty)
  have member := (mem_validSlots inside).mpr valid
  rw [nothing] at member
  cases member

theorem Remembers.step (h : Remembers fp s n k c) :
    Remembers fp s n (k + 1) ((noted fp s k).foldl BlockCache.onEvent c) := by
  refine ⟨h.consistent.onEvents _, fun i inside valid => ?_⟩
  obtain ⟨live, tag, block⟩ := content_eq (shrinks_onEvents (noted fp s k) c i valid)
  have quiet : ∀ e ∈ noted fp s k, e.drops _ = false :=
    fun e member => onEvents_drops h.consistent member inside valid
  rw [block] at quiet
  obtain ⟨start, j, le, built, held, stands⟩ := h.slots i inside (live.symm.trans valid)
  rw [block, tag]
  exact ⟨start, j, le.trans (Nat.le_succ k), built, held, stands.succ quiet⟩

theorem Remembers.lookup (h : Remembers fp s n k c) {b : BasicBlock}
    (found : c.lookup (after fp s k).cpu.pc = some b)
    (settled : (after fp s k).cpu.branchPending = false) :
    ∃ j, Begins fp s n j ∧ Found fp s j k b := by
  rw [BlockCache.lookup] at found
  by_cases hit : (c.table (slotIndex (after fp s k).cpu.pc)).valid = true ∧
      (c.table (slotIndex (after fp s k).cpu.pc)).tagPc = (after fp s k).cpu.pc
  · rw [if_pos hit] at found
    obtain ⟨start, j, le, built, held, stands⟩ := h.slots _ (slotIndex_lt _) hit.1
    rw [Option.some.inj found] at start held stands
    exact ⟨j, built, le, held, stands, hit.2.symm.trans start, settled⟩
  · rw [if_neg hit] at found
    cases found

theorem Remembers.insert (h : Remembers fp s n k c) (begins : Begins fp s n k) {b : BasicBlock}
    (built : blockAt (after fp s k) = some b) (aligned : b.startPc &&& 3 = 0) :
    Found fp s k k b ∧ Remembers fp s n k (c.insert (after fp s k).cpu.pc b) := by
  have stands : Standing fp s k k b := fun i below from_ => absurd below (Nat.not_lt.mpr from_)
  obtain ⟨settled, start, p, translated, whole⟩ := blockAt_eq built
  refine ⟨⟨le_rfl, built, stands, start.symm, settled⟩, ?_, fun i inside valid => ?_⟩
  · rw [start] at aligned
    apply h.consistent.insert aligned
    · rw [whole]
      exact buildBlock_nonempty translated
    · rw [whole, buildBlock, List.length_map]
      exact length_fetchWords _ kMaxBlockInsns _
  · have content := content_insert c (after fp s k).cpu.pc b i
    by_cases here : i = slotIndex (after fp s k).cpu.pc
    · rw [if_pos here] at content
      obtain ⟨-, tag, block⟩ := content_eq (b := ⟨_, b, true, none⟩) content
      rw [tag, block]
      exact ⟨start.symm, k, le_rfl, begins, built, stands⟩
    · rw [if_neg here] at content
      obtain ⟨live, tag, block⟩ := content_eq content
      rw [tag, block]
      exact h.slots i inside (live.symm.trans valid)

end Remembers

end Cpu

end N64
