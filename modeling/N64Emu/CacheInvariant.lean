import N64Emu.CacheAlike
import N64Emu.ReverseList
import Mathlib.Data.Finset.Card

/-!
# The representation of the block cache

The count, the list of aliased slots with its reverse index, and what a valid
slot holds. Each operation on one slot keeps all of it.
-/

set_option autoImplicit false

namespace N64

open Words Loops Insn ReverseList

def Slot.content (slot : Slot) : Bool × U64 × BasicBlock := (slot.valid, slot.tagPc, slot.block)

def Slot.emptied (slot : Slot) : Slot := { slot with valid := false, tagPc := ~~~0 }

def Slot.filled (slot : Slot) (vaddr : U64) (blk : BasicBlock) : Slot :=
  { slot with tagPc := vaddr, block := blk, valid := true }

/-- The table index of a valid slot follows from its physical address. -/
def Slot.direct (slot : Slot) : Bool := BlockCache.directMapped slot.tagPc slot.block.paddr

namespace BlockCache

/-- A slot that holds the block of an aligned address. -/
structure Holds (i : ℕ) (slot : Slot) : Prop where
  index : slotIndex slot.tagPc = i
  aligned : slot.tagPc &&& 3 = 0
  nonempty : slot.block.insns ≠ []
  short : slot.block.insns.length ≤ kMaxBlockInsns + 1

def validSlots (c : BlockCache) : Finset ℕ :=
  (Finset.range kDirectTableSize).filter fun i => (c.table i).valid = true

/-- The list and the positions in the slots are inverse. -/
structure Linked (c : BlockCache) : Prop where
  inverse : Inverse c.physicallyAliasedSlots fun i => (c.table i).aliasedPosition
  inTable : ∀ i ∈ c.physicallyAliasedSlots, i < kDirectTableSize

structure Consistent (c : BlockCache) : Prop where
  linked : Linked c
  count : c.count = c.validSlots.card
  listed : ∀ i < kDirectTableSize, i ∈ c.physicallyAliasedSlots ↔
    (c.table i).valid = true ∧ (c.table i).direct = false
  holds : ∀ i < kDirectTableSize, (c.table i).valid = true → Holds i (c.table i)

variable {c : BlockCache}

def refill (c : BlockCache) (i : ℕ) (slot : Slot) (n : ℕ) : BlockCache :=
  { table := Function.update c.table i slot
    physicallyAliasedSlots := c.physicallyAliasedSlots
    count := n }

section Slots

theorem table_refill (i : ℕ) (slot : Slot) (n j : ℕ) :
    (c.refill i slot n).table j = if j = i then slot else c.table j :=
  Function.update_apply _ _ _ _

theorem content_eq {a b : Slot} (same : a.content = b.content) :
    a.valid = b.valid ∧ a.tagPc = b.tagPc ∧ a.block = b.block := by
  simp only [Slot.content, Prod.mk.injEq] at same
  exact same

theorem Holds.of_content {i : ℕ} {a b : Slot} (h : Holds i b) (same : a.content = b.content) :
    Holds i a := by
  obtain ⟨-, tagPc, block⟩ := content_eq same
  refine ⟨?_, ?_, ?_, ?_⟩
  · rw [tagPc]
    exact h.index
  · rw [tagPc]
    exact h.aligned
  · rw [block]
    exact h.nonempty
  · rw [block]
    exact h.short

theorem direct_content {a b : Slot} (same : a.content = b.content) : a.direct = b.direct := by
  obtain ⟨-, tagPc, block⟩ := content_eq same
  rw [Slot.direct, Slot.direct, tagPc, block]

theorem position_setAliased (i : ℕ) (position : Option ℕ) :
    (fun j => ((c.setAliased i position).table j).aliasedPosition) =
      Function.update (fun j => (c.table j).aliasedPosition) i position := by
  funext j
  by_cases here : j = i
  · subst here
    simp [setAliased, setSlot]
  · simp [setAliased, setSlot, here]

theorem content_setAliased (i : ℕ) (position : Option ℕ) (j : ℕ) :
    ((c.setAliased i position).table j).content = (c.table j).content := by
  by_cases here : j = i
  · subst here
    simp [setAliased, setSlot, Slot.content]
  · simp [setAliased, setSlot, here]

theorem content_unmark (i j : ℕ) :
    ((c.unmarkPhysicallyAliased i).table j).content = (c.table j).content := by
  unfold unmarkPhysicallyAliased
  cases (c.table i).aliasedPosition with
  | none => rfl
  | some position =>
    exact (content_setAliased i none j).trans (content_setAliased _ (some position) j)

theorem content_mark (i j : ℕ) :
    ((c.markPhysicallyAliased i).table j).content = (c.table j).content := by
  unfold markPhysicallyAliased
  cases (c.table i).aliasedPosition with
  | none => exact content_setAliased i _ j
  | some position => rfl

theorem count_unmark (i : ℕ) : (c.unmarkPhysicallyAliased i).count = c.count := by
  unfold unmarkPhysicallyAliased
  cases (c.table i).aliasedPosition <;> rfl

theorem count_mark (i : ℕ) : (c.markPhysicallyAliased i).count = c.count := by
  unfold markPhysicallyAliased
  cases (c.table i).aliasedPosition <;> rfl

end Slots

namespace Linked

variable (h : Linked c) (i : ℕ)
include h

theorem unmark : Linked (c.unmarkPhysicallyAliased i) ∧
    (∀ j, j ∈ (c.unmarkPhysicallyAliased i).physicallyAliasedSlots ↔
      j ∈ c.physicallyAliasedSlots ∧ j ≠ i) ∧
    ((c.unmarkPhysicallyAliased i).table i).aliasedPosition = none := by
  cases found : (c.table i).aliasedPosition with
  | none =>
    have same : c.unmarkPhysicallyAliased i = c := by
      unfold unmarkPhysicallyAliased
      rw [found]
    have absent : i ∉ c.physicallyAliasedSlots := by
      rw [h.inverse.mem_iff]
      exact not_not.mpr found
    rw [same]
    refine ⟨h, ?_, found⟩
    intro j
    constructor
    · intro member
      exact ⟨member, fun here => absent (here ▸ member)⟩
    · exact And.left
  | some position =>
    have slots : (c.unmarkPhysicallyAliased i).physicallyAliasedSlots =
        (c.physicallyAliasedSlots.set position
          (c.physicallyAliasedSlots.getLastD 0)).dropLast := by
      unfold unmarkPhysicallyAliased
      rw [found]
    have positions : (fun j => ((c.unmarkPhysicallyAliased i).table j).aliasedPosition) =
        Function.update (Function.update (fun j => (c.table j).aliasedPosition)
          (c.physicallyAliasedSlots.getLastD 0) (some position)) i none := by
      unfold unmarkPhysicallyAliased
      rw [found]
      dsimp only
      rw [position_setAliased, position_setAliased]
    have members := h.inverse.mem_remove found 0
    refine ⟨⟨?_, ?_⟩, ?_, ?_⟩
    · rw [slots, positions]
      exact h.inverse.remove found 0
    · intro j member
      rw [slots] at member
      exact h.inTable j ((members j).mp member).1
    · intro j
      rw [slots]
      exact members j
    · have here := congrFun positions i
      rw [Function.update_self] at here
      exact here

theorem mark (inside : i < kDirectTableSize) (free : (c.table i).aliasedPosition = none) :
    Linked (c.markPhysicallyAliased i) ∧
      ∀ j, j ∈ (c.markPhysicallyAliased i).physicallyAliasedSlots ↔
        j ∈ c.physicallyAliasedSlots ∨ j = i := by
  have marked : c.markPhysicallyAliased i =
      { c.setAliased i (some c.physicallyAliasedSlots.length) with
        physicallyAliasedSlots := c.physicallyAliasedSlots ++ [i] } := by
    unfold markPhysicallyAliased
    rw [free]
  have members : ∀ j, j ∈ c.physicallyAliasedSlots ++ [i] ↔
      j ∈ c.physicallyAliasedSlots ∨ j = i := by
    intro j
    rw [List.mem_append, List.mem_singleton]
  rw [marked]
  refine ⟨⟨?_, ?_⟩, members⟩
  · dsimp only
    rw [position_setAliased]
    exact h.inverse.push free
  · intro j member
    rcases (members j).mp member with old | rfl
    · exact h.inTable j old
    · exact inside

theorem refill (slot : Slot) (same : slot.aliasedPosition = (c.table i).aliasedPosition) (n : ℕ) :
    Linked (c.refill i slot n) := by
  have positions : (fun j => ((c.refill i slot n).table j).aliasedPosition) =
      fun j => (c.table j).aliasedPosition := by
    funext j
    rw [table_refill]
    split_ifs with here
    · rw [same, here]
    · rfl
  refine ⟨?_, h.inTable⟩
  rw [positions]
  exact h.inverse

end Linked

section Counts

variable {d : BlockCache} {i : ℕ}

theorem validSlots_erase (others : ∀ j ≠ i, (d.table j).valid = (c.table j).valid)
    (gone : (d.table i).valid = false) : d.validSlots = c.validSlots.erase i := by
  ext j
  rw [validSlots, validSlots, Finset.mem_erase, Finset.mem_filter, Finset.mem_filter]
  by_cases here : j = i
  · subst here
    simp [gone]
  · rw [others j here]
    simp [here]

theorem validSlots_insert (inside : i < kDirectTableSize)
    (others : ∀ j ≠ i, (d.table j).valid = (c.table j).valid)
    (filled : (d.table i).valid = true) : d.validSlots = Insert.insert i c.validSlots := by
  ext j
  rw [validSlots, validSlots, Finset.mem_insert, Finset.mem_filter, Finset.mem_filter]
  by_cases here : j = i
  · subst here
    simp [filled, inside]
  · rw [others j here]
    simp [here]

theorem mem_validSlots (inside : i < kDirectTableSize) :
    i ∈ c.validSlots ↔ (c.table i).valid = true := by
  rw [validSlots, Finset.mem_filter, Finset.mem_range]
  exact and_iff_right inside

end Counts

/-- Slot `i` is filled and not listed yet. -/
def refilled (c : BlockCache) (i : ℕ) (vaddr : U64) (blk : BasicBlock) : BlockCache :=
  (c.unmarkPhysicallyAliased i).refill i
    (((c.unmarkPhysicallyAliased i).table i).filled vaddr blk)
    (if (c.table i).valid = true then c.count else c.count + 1)

theorem content_refilled {vaddr : U64} {blk : BasicBlock} {i : ℕ} (j : ℕ) :
    ((refilled c i vaddr blk).table j).content =
      if j = i then (true, vaddr, blk) else (c.table j).content := by
  rw [refilled, table_refill]
  split_ifs
  · rfl
  · exact content_unmark i j

/-- Consistent but for the entry of slot `i` in the list, which is missing. -/
structure ConsistentBut (i : ℕ) (c : BlockCache) : Prop where
  linked : Linked c
  count : c.count = c.validSlots.card
  listed : ∀ j < kDirectTableSize, j ≠ i →
    (j ∈ c.physicallyAliasedSlots ↔ (c.table j).valid = true ∧ (c.table j).direct = false)
  absent : i ∉ c.physicallyAliasedSlots
  unmarked : (c.table i).aliasedPosition = none
  holds : ∀ j < kDirectTableSize, (c.table j).valid = true → Holds j (c.table j)

theorem ConsistentBut.direct {i : ℕ} (h : ConsistentBut i c)
    (direct : (c.table i).direct = true) : Consistent c where
  linked := h.linked
  count := h.count
  listed := by
    intro j within
    by_cases same : j = i
    · subst same
      simp [h.absent, direct]
    · exact h.listed j within same
  holds := h.holds

theorem ConsistentBut.mark {i : ℕ} (h : ConsistentBut i c) (inside : i < kDirectTableSize)
    (valid : (c.table i).valid = true) (aliased : (c.table i).direct = false) :
    Consistent (c.markPhysicallyAliased i) := by
  obtain ⟨marked, added⟩ := h.linked.mark i inside h.unmarked
  have contents (j : ℕ) := content_mark (c := c) i j
  have slots : (c.markPhysicallyAliased i).validSlots = c.validSlots := by
    ext j
    rw [validSlots, validSlots, Finset.mem_filter, Finset.mem_filter, (content_eq (contents j)).1]
  refine ⟨marked, ?_, ?_, ?_⟩
  · rw [count_mark, slots, h.count]
  · intro j within
    rw [added, (content_eq (contents j)).1, direct_content (contents j)]
    by_cases same : j = i
    · subst same
      simp [valid, aliased]
    · rw [h.listed j within same]
      simp [same]
  · intro j within alive
    have stays := (content_eq (contents j)).1
    exact (h.holds j within (stays ▸ alive)).of_content (contents j)

namespace Consistent

variable (h : Consistent c)
include h

theorem invalidateSlot {i : ℕ} (inside : i < kDirectTableSize)
    (valid : (c.table i).valid = true) :
    Consistent (c.invalidateSlot i) ∧
      (∀ j ≠ i, ((c.invalidateSlot i).table j).content = (c.table j).content) ∧
      ((c.invalidateSlot i).table i).valid = false ∧
      (c.invalidateSlot i).physicallyAliasedSlots =
        (c.unmarkPhysicallyAliased i).physicallyAliasedSlots := by
  obtain ⟨linked, members, free⟩ := h.linked.unmark i
  have result : c.invalidateSlot i = (c.unmarkPhysicallyAliased i).refill i
      ((c.unmarkPhysicallyAliased i).table i).emptied
        ((c.unmarkPhysicallyAliased i).count - 1) := by
    unfold BlockCache.invalidateSlot
    rw [if_neg (by simp [valid])]
    rfl
  have others : ∀ j ≠ i, ((c.invalidateSlot i).table j).content = (c.table j).content := by
    intro j apart
    rw [← content_unmark (c := c) i j, result, table_refill, if_neg apart]
  have gone : ((c.invalidateSlot i).table i).valid = false := by
    rw [result, table_refill, if_pos rfl]
    rfl
  have slots : (c.invalidateSlot i).physicallyAliasedSlots =
      (c.unmarkPhysicallyAliased i).physicallyAliasedSlots := by
    rw [result]
    rfl
  refine ⟨⟨?_, ?_, ?_, ?_⟩, others, gone, slots⟩
  · rw [result]
    apply linked.refill
    rfl
  · have member := (mem_validSlots inside).mpr valid
    rw [validSlots_erase (fun j apart => (content_eq (others j apart)).1) gone,
      Finset.card_erase_of_mem member, ← h.count, ← count_unmark (c := c) i, result]
    rfl
  · intro j within
    rw [slots, members]
    by_cases here : j = i
    · subst here
      simp [gone]
    · have same := content_eq (others j here)
      rw [same.1, direct_content (others j here), h.listed j within]
      exact and_iff_left here
  · intro j within live
    by_cases here : j = i
    · rw [here, gone] at live
      cases live
    · have stays := (content_eq (others j here)).1
      exact (h.holds j within (stays ▸ live)).of_content (others j here)

theorem card_filled {d : BlockCache} {i : ℕ} (inside : i < kDirectTableSize)
    (others : ∀ j ≠ i, (d.table j).content = (c.table j).content)
    (filled : (d.table i).valid = true) :
    d.validSlots.card = if (c.table i).valid = true then c.count else c.count + 1 := by
  rw [validSlots_insert inside (fun j apart => (content_eq (others j apart)).1) filled, h.count]
  by_cases before : (c.table i).valid = true
  · rw [if_pos before, Finset.insert_eq_of_mem ((mem_validSlots inside).mpr before)]
  · rw [if_neg before, Finset.card_insert_of_notMem]
    rw [mem_validSlots inside]
    exact before

theorem refilled_but {vaddr : U64} {blk : BasicBlock} (aligned : vaddr &&& 3 = 0)
    (nonempty : blk.insns ≠ []) (short : blk.insns.length ≤ kMaxBlockInsns + 1) :
    ConsistentBut (slotIndex vaddr) (refilled c (slotIndex vaddr) vaddr blk) := by
  have inside := slotIndex_lt vaddr
  generalize index : slotIndex vaddr = i at *
  obtain ⟨linked, members, free⟩ := h.linked.unmark i
  have others : ∀ j ≠ i, ((refilled c i vaddr blk).table j).content = (c.table j).content :=
    fun j apart => (content_refilled j).trans (if_neg apart)
  have here : ((refilled c i vaddr blk).table i).content = (true, vaddr, blk) :=
    (content_refilled i).trans (if_pos rfl)
  have filled := content_eq (b := ⟨vaddr, blk, true, none⟩) here
  refine ⟨?_, (h.card_filled inside others filled.1).symm, ?_, ?_, ?_, ?_⟩
  · apply linked.refill
    rfl
  · intro j within apart
    have same := content_eq (others j apart)
    rw [same.1, direct_content (others j apart), ← h.listed j within]
    exact (members j).trans (and_iff_left apart)
  · exact fun member => ((members i).mp member).2 rfl
  · rw [refilled, table_refill, if_pos rfl]
    exact free
  · intro j within alive
    by_cases same : j = i
    · subst same
      have held : Holds j ⟨vaddr, blk, true, none⟩ := ⟨index, aligned, nonempty, short⟩
      exact held.of_content here
    · have stays := (content_eq (others j same)).1
      exact (h.holds j within (stays ▸ alive)).of_content (others j same)

theorem insert {vaddr : U64} {blk : BasicBlock} (aligned : vaddr &&& 3 = 0)
    (nonempty : blk.insns ≠ []) (short : blk.insns.length ≤ kMaxBlockInsns + 1) :
    Consistent (c.insert vaddr blk) := by
  have but := h.refilled_but aligned nonempty short
  have inside := slotIndex_lt vaddr
  generalize index : slotIndex vaddr = i at *
  have live := (content_eq (content_unmark (c := c) i i)).1
  have result : c.insert vaddr blk = if directMapped vaddr blk.paddr then refilled c i vaddr blk
      else (refilled c i vaddr blk).markPhysicallyAliased i := by
    simp only [BlockCache.insert, index, live, count_unmark]
    rfl
  have here : ((refilled c i vaddr blk).table i).content = (true, vaddr, blk) :=
    (content_refilled i).trans (if_pos rfl)
  have direct : ((refilled c i vaddr blk).table i).direct = directMapped vaddr blk.paddr :=
    direct_content (b := ⟨vaddr, blk, true, none⟩) here
  rw [result]
  split_ifs with mapped
  · exact but.direct (direct.trans mapped)
  · exact but.mark inside (content_eq (b := ⟨vaddr, blk, true, none⟩) here).1
      (direct.trans (Bool.not_eq_true _ ▸ mapped))

theorem clear : Consistent c.clear where
  linked := by
    have positions : (fun i => (c.clear.table i).aliasedPosition) = fun _ => none := by
      funext i
      simp only [BlockCache.clear]
      split_ifs with inside
      · rfl
      · by_contra some
        exact inside (h.linked.inTable i ((h.linked.inverse.mem_iff i).mpr some))
    refine ⟨?_, ?_⟩
    · rw [positions]
      exact inverse_nil
    · intro i member
      cases member
  count := by
    have empty : c.clear.validSlots = ∅ := by
      apply Finset.filter_eq_empty_iff.mpr
      intro i inside
      simp [BlockCache.clear, Finset.mem_range.mp inside]
    rw [empty]
    rfl
  listed := by
    intro i inside
    simp [BlockCache.clear, inside]
  holds := by
    intro i inside valid
    simp [BlockCache.clear, inside] at valid

end Consistent

theorem consistent_fresh : Consistent {} where
  linked := ⟨inverse_nil, fun i member => absurd member List.not_mem_nil⟩
  count := by
    have empty : ({} : BlockCache).validSlots = ∅ := by
      apply Finset.filter_eq_empty_iff.mpr
      intro i _ valid
      cases valid
    rw [empty]
    rfl
  listed := by
    intro i _
    simp
  holds := by
    intro i _ valid
    cases valid

theorem length_fetchWords (s : Sys) (n : ℕ) (v : U64) : (fetchWords s n v).1.length ≤ n + 1 := by
  induction n generalizing v with
  | zero => simp [fetchWords]
  | succ n ih =>
    rw [fetchWords]
    split
    · simp
    · dsimp only
      split_ifs
      · split
        · simp
        · simp
      · simp
      · simp
      · have rest := ih (v + 4)
        simp only [List.length_cons]
        omega

theorem Consistent.compile (h : Consistent c) (s : Sys) {vaddr : U64} (aligned : vaddr &&& 3 = 0) :
    Consistent (c.compile s vaddr).2 := by
  rw [BlockCache.compile]
  split
  · exact h
  · dsimp only
    split_ifs with empty
    · exact h
    · apply h.insert aligned
      · intro nothing
        rw [nothing] at empty
        exact empty rfl
      · rw [buildBlock, List.length_map]
        exact length_fetchWords s kMaxBlockInsns vaddr

end BlockCache

end N64
