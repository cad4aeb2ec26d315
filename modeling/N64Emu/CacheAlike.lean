import N64Emu.CpuRun

/-!
# Caches that behave alike

An invalid slot keeps the block it held, and nothing reads that block again
before the slot is filled. Two caches are alike when they differ only there;
alike machines run alike.
-/

set_option autoImplicit false

namespace N64

open Words Loops

/-- Equal slots, but for the block of one that is neither valid nor listed. -/
structure Slot.Alike (listed : Prop) (a b : Slot) : Prop where
  tagPc : a.tagPc = b.tagPc
  valid : a.valid = b.valid
  aliasedPosition : a.aliasedPosition = b.aliasedPosition
  block : a.valid = true ∨ listed → a.block = b.block

theorem Slot.Alike.refl (listed : Prop) (a : Slot) : Slot.Alike listed a a :=
  ⟨rfl, rfl, rfl, fun _ => rfl⟩

namespace BlockCache

structure Alike (c d : BlockCache) : Prop where
  count : c.count = d.count
  listed : c.physicallyAliasedSlots = d.physicallyAliasedSlots
  inTable : ∀ i ∈ c.physicallyAliasedSlots, i < kDirectTableSize
  slot : ∀ i, i < kDirectTableSize →
    Slot.Alike (i ∈ c.physicallyAliasedSlots) (c.table i) (d.table i)

theorem slotIndex_lt (vaddr : U64) : slotIndex vaddr < kDirectTableSize :=
  Nat.mod_lt _ (by decide)

namespace Alike

variable {c d : BlockCache}

theorem setSlot (h : Alike c d) (i : ℕ) {x y : Slot}
    (same : Slot.Alike (i ∈ c.physicallyAliasedSlots) x y) :
    Alike (c.setSlot i x) (d.setSlot i y) where
  count := h.count
  listed := h.listed
  inTable := h.inTable
  slot := by
    intro j hj
    by_cases here : j = i
    · subst here
      simpa [BlockCache.setSlot] using same
    · simpa [BlockCache.setSlot, Function.update_of_ne here] using h.slot j hj

theorem setAliased (h : Alike c d) {i : ℕ} (hi : i < kDirectTableSize) (position : Option ℕ) :
    Alike (c.setAliased i position) (d.setAliased i position) := by
  have old := h.slot i hi
  exact h.setSlot i ⟨old.tagPc, old.valid, rfl, old.block⟩

theorem relist (h : Alike c d) (slots : List ℕ) (part : slots ⊆ c.physicallyAliasedSlots) :
    Alike { c with physicallyAliasedSlots := slots }
      { d with physicallyAliasedSlots := slots } where
  count := h.count
  listed := rfl
  inTable := fun i hi => h.inTable i (part hi)
  slot := by
    intro i hi
    have old := h.slot i hi
    exact ⟨old.tagPc, old.valid, old.aliasedPosition,
      fun live => old.block (live.imp_right fun here => part here)⟩

theorem recount (h : Alike c d) (count : ℕ) :
    Alike { c with count := count } { d with count := count } :=
  ⟨rfl, h.listed, h.inTable, h.slot⟩

theorem markPhysicallyAliased (h : Alike c d) {i : ℕ} (hi : i < kDirectTableSize)
    (valid : (c.table i).valid = true) :
    Alike (c.markPhysicallyAliased i) (d.markPhysicallyAliased i) := by
  unfold BlockCache.markPhysicallyAliased
  rw [← (h.slot i hi).aliasedPosition, ← h.listed]
  cases (c.table i).aliasedPosition with
  | some position => exact h
  | none =>
    have placed := h.setAliased hi (some c.physicallyAliasedSlots.length)
    exact
      { count := placed.count
        listed := rfl
        inTable := by
          intro j hj
          rcases List.mem_append.mp hj with old | new
          · exact h.inTable j old
          · rw [List.mem_singleton.mp new]
            exact hi
        slot := by
          intro j hj
          have old := placed.slot j hj
          refine ⟨old.tagPc, old.valid, old.aliasedPosition, fun live => ?_⟩
          by_cases here : j = i
          · subst here
            exact old.block
              (Or.inl (by simpa [BlockCache.setAliased, BlockCache.setSlot] using valid))
          · apply old.block
            rcases live with alive | mem
            · exact Or.inl alive
            · rcases List.mem_append.mp mem with old | new
              · exact Or.inr old
              · exact absurd (List.mem_singleton.mp new) here }

theorem last_lt (h : Alike c d) : c.physicallyAliasedSlots.getLastD 0 < kDirectTableSize := by
  by_cases empty : c.physicallyAliasedSlots = []
  · rw [empty]
    decide
  · apply h.inTable
    rw [List.getLastD_eq_getLast?, List.getLast?_eq_some_getLast empty]
    exact List.getLast_mem empty

theorem set_dropLast_subset (slots : List ℕ) (position : ℕ) :
    (slots.set position (slots.getLastD 0)).dropLast ⊆ slots := by
  intro i hi
  rcases List.mem_or_eq_of_mem_set (List.dropLast_subset _ hi) with old | rfl
  · exact old
  · by_cases empty : slots = []
    · simp [empty] at hi
    · rw [List.getLastD_eq_getLast?, List.getLast?_eq_some_getLast empty]
      exact List.getLast_mem empty

theorem unmarkPhysicallyAliased (h : Alike c d) {i : ℕ} (hi : i < kDirectTableSize) :
    Alike (c.unmarkPhysicallyAliased i) (d.unmarkPhysicallyAliased i) := by
  unfold BlockCache.unmarkPhysicallyAliased
  rw [← (h.slot i hi).aliasedPosition]
  cases (c.table i).aliasedPosition with
  | none => exact h
  | some position =>
    have moved := (h.setAliased h.last_lt (some position)).setAliased hi none
    simp only [← h.listed]
    exact moved.relist _ (set_dropLast_subset _ position)

theorem invalidateSlot (h : Alike c d) {i : ℕ} (hi : i < kDirectTableSize) :
    Alike (c.invalidateSlot i) (d.invalidateSlot i) := by
  unfold BlockCache.invalidateSlot
  rw [← (h.slot i hi).valid]
  by_cases invalid : !(c.table i).valid
  · rw [if_pos invalid, if_pos invalid]
    exact h
  · rw [if_neg invalid, if_neg invalid]
    have left := h.unmarkPhysicallyAliased hi
    have old := left.slot i hi
    have emptied : Alike
        ((c.unmarkPhysicallyAliased i).setSlot i
          { (c.unmarkPhysicallyAliased i).table i with valid := false, tagPc := ~~~0 })
        ((d.unmarkPhysicallyAliased i).setSlot i
          { (d.unmarkPhysicallyAliased i).table i with valid := false, tagPc := ~~~0 }) := by
      refine left.setSlot i ⟨rfl, rfl, old.aliasedPosition, fun live => ?_⟩
      rcases live with alive | mem
      · cases alive
      · exact old.block (Or.inr mem)
    simp only [← left.count]
    exact emptied.recount _

theorem invalidateWord (h : Alike c d) (paddr pEnd word : ℕ) :
    Alike (BlockCache.invalidateWord paddr pEnd word c)
      (BlockCache.invalidateWord paddr pEnd word d) := by
  have inside : word % kDirectTableSize < kDirectTableSize := Nat.mod_lt _ (by decide)
  have old := h.slot _ inside
  have test : ((c.table (word % kDirectTableSize)).valid &&
      (c.table (word % kDirectTableSize)).block.overlaps paddr pEnd) =
      ((d.table (word % kDirectTableSize)).valid &&
        (d.table (word % kDirectTableSize)).block.overlaps paddr pEnd) := by
    rw [← old.valid]
    cases alive : (c.table (word % kDirectTableSize)).valid with
    | false => rfl
    | true => rw [old.block (Or.inl alive)]
  simp only [BlockCache.invalidateWord, ← test]
  split
  · exact h.invalidateSlot inside
  · exact h

theorem invalidateAliased (h : Alike c d) (paddr pEnd : ℕ) {cursor : ℕ}
    (here : cursor < c.physicallyAliasedSlots.length) :
    Alike (BlockCache.invalidateAliased paddr pEnd (c, cursor)).1
        (BlockCache.invalidateAliased paddr pEnd (d, cursor)).1 ∧
      (BlockCache.invalidateAliased paddr pEnd (c, cursor)).2 =
        (BlockCache.invalidateAliased paddr pEnd (d, cursor)).2 := by
  have mem : c.physicallyAliasedSlots.getD cursor 0 ∈ c.physicallyAliasedSlots := by
    rw [List.getD_eq_getElem?_getD, List.getElem?_eq_getElem here]
    exact List.getElem_mem here
  have inside := h.inTable _ mem
  simp only [BlockCache.invalidateAliased, ← h.listed, ← (h.slot _ inside).block (Or.inr mem)]
  split
  · exact ⟨h.invalidateSlot inside, rfl⟩
  · exact ⟨h, rfl⟩

theorem clear (c d : BlockCache) : Alike c.clear d.clear where
  count := rfl
  listed := rfl
  inTable := by
    intro i hi
    cases hi
  slot := by
    intro i hi
    simp only [BlockCache.clear, if_pos hi]
    refine ⟨rfl, rfl, rfl, fun live => ?_⟩
    rcases live with alive | mem
    · cases alive
    · cases mem

theorem invalidate (h : Alike c d) (paddr : PhysicalAddress) (size : U32) :
    Alike (c.invalidate paddr size) (d.invalidate paddr size) := by
  simp only [BlockCache.invalidate]
  split_ifs
  · exact clear c d
  · exact clear c d
  · have direct := upTo_sim Alike ((paddr.toNat + size.toNat - 1) / 4 + 1 -
      (paddr.toNat / 4 - kMaxBlockInsns)) h fun i _ a b k =>
        k.invalidateWord paddr.toNat (paddr.toNat + size.toNat)
          (paddr.toNat / 4 - kMaxBlockInsns + i)
    rw [← direct.listed]
    apply And.left (b := _ = _)
    refine whileDo_sim (fun (a b : BlockCache × ℕ) => Alike a.1 b.1 ∧ a.2 = b.2) ?_ ?_ _
      ⟨direct, rfl⟩
    · intro a b k
      simp only [k.1.listed, k.2]
    · rintro ⟨a, i⟩ ⟨b, j⟩ here ⟨alike, rfl⟩
      exact alike.invalidateAliased _ _ (by simpa using here)

theorem lookup (h : Alike c d) (vaddr : U64) : c.lookup vaddr = d.lookup vaddr := by
  have old := h.slot _ (slotIndex_lt vaddr)
  simp only [BlockCache.lookup, ← old.valid, ← old.tagPc]
  split_ifs with hit
  · rw [old.block (Or.inl hit.1)]
  · rfl

theorem insert (h : Alike c d) (vaddr : U64) (blk : BasicBlock) :
    Alike (c.insert vaddr blk) (d.insert vaddr blk) := by
  have inside := slotIndex_lt vaddr
  have free := h.unmarkPhysicallyAliased inside
  have old := free.slot _ inside
  have filled : Alike
      ((c.unmarkPhysicallyAliased (slotIndex vaddr)).setSlot (slotIndex vaddr)
        { (c.unmarkPhysicallyAliased (slotIndex vaddr)).table (slotIndex vaddr) with
          tagPc := vaddr, block := blk, valid := true })
      ((d.unmarkPhysicallyAliased (slotIndex vaddr)).setSlot (slotIndex vaddr)
        { (d.unmarkPhysicallyAliased (slotIndex vaddr)).table (slotIndex vaddr) with
          tagPc := vaddr, block := blk, valid := true }) :=
    free.setSlot _ ⟨rfl, rfl, old.aliasedPosition, fun _ => rfl⟩
  simp only [BlockCache.insert, ← old.valid, ← free.count]
  by_cases direct : directMapped vaddr blk.paddr = true
  · rw [if_pos direct, if_pos direct]
    exact filled.recount _
  · rw [if_neg direct, if_neg direct]
    exact (filled.recount _).markPhysicallyAliased inside (by simp [BlockCache.setSlot])

theorem compile (h : Alike c d) (s : Sys) (vaddr : U64) :
    (c.compile s vaddr).1 = (d.compile s vaddr).1 ∧
      Alike (c.compile s vaddr).2 (d.compile s vaddr).2 := by
  simp only [BlockCache.compile]
  cases s.cpu.translateAddress vaddr false with
  | error fault => exact ⟨rfl, h⟩
  | ok firstPaddr =>
    dsimp only
    by_cases empty : (buildBlock s vaddr firstPaddr).insns.isEmpty = true
    · rw [if_pos empty, if_pos empty]
      exact ⟨rfl, h⟩
    · rw [if_neg empty, if_neg empty]
      exact ⟨rfl, h.insert vaddr _⟩

theorem onEvent (h : Alike c d) (e : Event) : Alike (c.onEvent e) (d.onEvent e) := by
  cases e with
  | notify p n =>
    simp only [BlockCache.onEvent, ← h.count]
    split
    · exact h.invalidate _ n
    · exact h
  | flush => exact clear c d
  | load p n => exact h
  | store p n => exact h
  | wrote cell => exact h

theorem onEvents (h : Alike c d) (es : List Event) :
    Alike (es.foldl BlockCache.onEvent c) (es.foldl BlockCache.onEvent d) := by
  induction es generalizing c d with
  | nil => exact h
  | cons e es ih => exact ih (h.onEvent e)

end Alike

end BlockCache

namespace Machine

/-- The same system with caches that behave alike. -/
structure Alike (m n : Machine) : Prop where
  sys : m.sys = n.sys
  enabled : m.enabled = n.enabled
  cache : m.cache.Alike n.cache

namespace Alike

variable {m n : Machine}

theorem commit (h : Alike m n) (s : Sys) : Alike (m.commit s) (n.commit s) :=
  ⟨rfl, h.enabled, h.cache.onEvents s.log⟩

theorem perform (h : Alike m n) (f : Sys → Sys) : Alike (m.perform f) (n.perform f) := by
  simp only [Machine.perform, h.sys]
  exact h.commit _

theorem blockInsns (fp : HostFpu) (words : List U32) (expectedPc : U64) (h : Alike m n) :
    (Cpu.blockInsns fp words expectedPc m).1 = (Cpu.blockInsns fp words expectedPc n).1 ∧
      Alike (Cpu.blockInsns fp words expectedPc m).2 (Cpu.blockInsns fp words expectedPc n).2 := by
  induction words generalizing expectedPc m n with
  | nil => exact ⟨rfl, h⟩
  | cons insn rest ih =>
    simp only [Cpu.blockInsns, ← h.sys]
    have stepped := h.commit (Cpu.blockInsn fp { m.sys with log := [] } insn).2
    split_ifs
    · exact ⟨rfl, h⟩
    · have later := ih (expectedPc + 4) stepped
      exact ⟨by rw [later.1], later.2⟩
    · exact ⟨rfl, stepped⟩

theorem findBlock (h : Alike m n) : (Cpu.findBlock m).1 = (Cpu.findBlock n).1 ∧
    Alike (Cpu.findBlock m).2 (Cpu.findBlock n).2 := by
  simp only [Cpu.findBlock, ← h.sys, ← h.cache.lookup]
  cases m.cache.lookup m.sys.cpu.pc with
  | some blk => exact ⟨rfl, h⟩
  | none =>
    have compiled := h.cache.compile m.sys m.sys.cpu.pc
    exact ⟨compiled.1, ⟨rfl, h.enabled, compiled.2⟩⟩

theorem executeBlock (fp : HostFpu) (blk : BasicBlock) (h : Alike m n) :
    (Cpu.executeBlock fp m blk).1 = (Cpu.executeBlock fp n blk).1 ∧
      Alike (Cpu.executeBlock fp m blk).2 (Cpu.executeBlock fp n blk).2 :=
  h.blockInsns fp blk.insns blk.startPc

theorem runPass (fp : HostFpu) (limit taken : ℕ) (h : Alike m n) :
    (Cpu.runPass fp limit taken m).1 = (Cpu.runPass fp limit taken n).1 ∧
      Alike (Cpu.runPass fp limit taken m).2 (Cpu.runPass fp limit taken n).2 := by
  have plain (a b : Machine) (k : Alike a b) :
      (1, a.perform (Cpu.step fp)).1 = (1, b.perform (Cpu.step fp)).1 ∧
        Alike (1, a.perform (Cpu.step fp)).2 (1, b.perform (Cpu.step fp)).2 :=
    ⟨rfl, k.perform _⟩
  unfold Cpu.runPass
  rw [← h.sys, ← h.enabled]
  obtain ⟨found, alike⟩ := h.findBlock
  by_cases cached : m.enabled ∧ !m.sys.cpu.branchPending
  · rw [if_pos cached, if_pos cached]
    generalize Cpu.findBlock m = a at found alike ⊢
    generalize Cpu.findBlock n = b at found alike ⊢
    obtain ⟨blk, m'⟩ := a
    obtain ⟨blk', n'⟩ := b
    obtain rfl : blk = blk' := found
    cases blk with
    | none => exact plain m' n' alike
    | some blk =>
      have ran := Alike.executeBlock fp blk alike
      by_cases fits : !blk.insns.isEmpty ∧ taken + blk.insns.length ≤ limit
      · simp only [if_pos fits]
        by_cases stuck : (Cpu.executeBlock fp m' blk).1 = 0
        · rw [if_pos stuck, if_pos (ran.1 ▸ stuck)]
          exact plain _ _ ran.2
        · rw [if_neg stuck, if_neg (ran.1 ▸ stuck)]
          exact ran
      · simp only [if_neg fits]
        exact ⟨trivial, Alike.perform alike _⟩
  · rw [if_neg cached, if_neg cached]
    exact plain m n h

theorem runLoop (fp : HostFpu) (limit fuel taken : ℕ) (h : Alike m n) :
    (Cpu.runLoop fp limit fuel taken m).1 = (Cpu.runLoop fp limit fuel taken n).1 ∧
      Alike (Cpu.runLoop fp limit fuel taken m).2 (Cpu.runLoop fp limit fuel taken n).2 := by
  induction fuel generalizing taken m n with
  | zero => exact ⟨rfl, h⟩
  | succ fuel ih =>
    have passed := h.runPass fp limit taken
    simp only [Cpu.runLoop, ← h.sys, ← passed.1]
    split_ifs
    · exact ih _ passed.2
    · exact ⟨rfl, h⟩

theorem run (fp : HostFpu) (limit : ℕ) (h : Alike m n) :
    (Cpu.run fp limit m).1 = (Cpu.run fp limit n).1 ∧
      Alike (Cpu.run fp limit m).2 (Cpu.run fp limit n).2 :=
  h.runLoop fp limit limit 0

end Alike

end Machine

end N64
