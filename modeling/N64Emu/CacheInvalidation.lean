import N64Emu.CacheInvariant
import N64Emu.Runs
import Mathlib.Order.Interval.Set.Defs

/-!
# Exact invalidation

Invalidation removes exactly the blocks that meet the range: the direct ones
by the words their blocks can begin at, the others by the list, which changes
while it is walked.
-/

set_option autoImplicit false

namespace N64

open Words Loops Insn ReverseList Runs

def BasicBlock.Meets (b : BasicBlock) (paddr size : ℕ) : Prop :=
  (Set.Ico b.blkStart b.blkEnd ∩ Set.Ico paddr (paddr + size)).Nonempty

namespace BlockCache

variable {c : BlockCache}

section Invalidate

variable {paddr pEnd : ℕ}

def Hit (paddr pEnd : ℕ) (slot : Slot) : Prop :=
  slot.valid = true ∧ slot.block.overlaps paddr pEnd = true

/-- From `c` to `d` only slots that are hit are emptied. -/
structure Empties (paddr pEnd : ℕ) (c d : BlockCache) : Prop where
  consistent : Consistent d
  kept : ∀ i < kDirectTableSize, ¬Hit paddr pEnd (c.table i) →
    (d.table i).content = (c.table i).content
  live : ∀ i < kDirectTableSize, (d.table i).valid = true →
    (d.table i).content = (c.table i).content

namespace Empties

variable {d e : BlockCache}

theorem refl (h : Consistent c) : Empties paddr pEnd c c :=
  ⟨h, fun _ _ _ => rfl, fun _ _ _ => rfl⟩

theorem hit_content {a b : Slot} (same : a.content = b.content) :
    Hit paddr pEnd a ↔ Hit paddr pEnd b := by
  obtain ⟨valid, -, block⟩ := content_eq same
  rw [Hit, Hit, valid, block]

theorem invalidateSlot (h : Empties paddr pEnd c d) {i : ℕ} (inside : i < kDirectTableSize)
    (hit : Hit paddr pEnd (d.table i)) : Empties paddr pEnd c (d.invalidateSlot i) := by
  obtain ⟨consistent, others, gone, -⟩ := h.consistent.invalidateSlot inside hit.1
  refine ⟨consistent, ?_, ?_⟩
  · intro j within missed
    by_cases here : j = i
    · subst here
      exact absurd ((hit_content (h.kept j within missed)).mp hit) missed
    · exact (others j here).trans (h.kept j within missed)
  · intro j within live
    by_cases here : j = i
    · rw [here, gone] at live
      cases live
    · have before := (content_eq (others j here)).1
      exact (others j here).trans (h.live j within (before ▸ live))

theorem not_hit (h : Empties paddr pEnd c d) {i : ℕ} (inside : i < kDirectTableSize)
    (missed : ¬Hit paddr pEnd (c.table i)) : ¬Hit paddr pEnd (d.table i) := by
  intro hit
  exact missed ((hit_content (h.live i inside hit.1)).mp hit)

theorem trans (h : Empties paddr pEnd c d) (k : Empties paddr pEnd d e) :
    Empties paddr pEnd c e := by
  refine ⟨k.consistent, ?_, ?_⟩
  · intro i inside missed
    exact (k.kept i inside (h.not_hit inside missed)).trans (h.kept i inside missed)
  · intro i inside live
    have later := k.live i inside live
    exact later.trans (h.live i inside ((content_eq later).1 ▸ live))

theorem invalidateWord (h : Empties paddr pEnd c d) (word : ℕ) :
    Empties paddr pEnd c (invalidateWord paddr pEnd word d) ∧
      ¬Hit paddr pEnd ((BlockCache.invalidateWord paddr pEnd word d).table
        (word % kDirectTableSize)) := by
  have inside : word % kDirectTableSize < kDirectTableSize := Nat.mod_lt _ (by decide)
  unfold BlockCache.invalidateWord
  by_cases hit : Hit paddr pEnd (d.table (word % kDirectTableSize))
  · rw [if_pos (by rw [hit.1, hit.2]; rfl)]
    refine ⟨h.invalidateSlot inside hit, ?_⟩
    have gone := (h.consistent.invalidateSlot inside hit.1).2.2.1
    intro again
    rw [again.1] at gone
    cases gone
  · rw [if_neg]
    · exact ⟨h, hit⟩
    · intro both
      rw [Bool.and_eq_true] at both
      exact hit both

end Empties

def directPass (paddr pEnd : ℕ) (c : BlockCache) : BlockCache :=
  upTo (fun i c => invalidateWord paddr pEnd (paddr / 4 - kMaxBlockInsns + i) c)
    ((pEnd - 1) / 4 + 1 - (paddr / 4 - kMaxBlockInsns)) c

def aliasedPass (paddr pEnd fuel : ℕ) (c : BlockCache) : BlockCache × ℕ :=
  whileDo (fun t => t.2 < t.1.physicallyAliasedSlots.length) (invalidateAliased paddr pEnd) fuel
    (c, 0)

theorem directPass_spec (h : Consistent c) (paddr pEnd : ℕ) :
    Empties paddr pEnd c (directPass paddr pEnd c) ∧
      ∀ word, paddr / 4 - kMaxBlockInsns ≤ word → word ≤ (pEnd - 1) / 4 →
        ¬Hit paddr pEnd ((directPass paddr pEnd c).table (word % kDirectTableSize)) := by
  have visited : Empties paddr pEnd c (directPass paddr pEnd c) ∧
      ∀ k < (pEnd - 1) / 4 + 1 - (paddr / 4 - kMaxBlockInsns), ¬Hit paddr pEnd
        ((directPass paddr pEnd c).table
          ((paddr / 4 - kMaxBlockInsns + k) % kDirectTableSize)) := by
    refine upTo_inv (fun n d => Empties paddr pEnd c d ∧ ∀ k < n, ¬Hit paddr pEnd
      (d.table ((paddr / 4 - kMaxBlockInsns + k) % kDirectTableSize))) _ ?_ ?_
    · exact ⟨Empties.refl h, fun k nothing => absurd nothing (Nat.not_lt_zero k)⟩
    · rintro n - d ⟨empties, missed⟩
      obtain ⟨one, here⟩ := (Empties.refl empties.consistent).invalidateWord
        (paddr / 4 - kMaxBlockInsns + n)
      refine ⟨empties.trans one, ?_⟩
      intro k before
      by_cases last : k = n
      · rw [last]
        exact here
      · exact one.not_hit (Nat.mod_lt _ (by decide)) (missed k (by omega))
  refine ⟨visited.1, ?_⟩
  intro word above below
  have here := visited.2 (word - (paddr / 4 - kMaxBlockInsns)) (by omega)
  rw [Nat.add_sub_cancel' above] at here
  exact here

theorem direct_candidate {i : ℕ} {slot : Slot} (holds : Holds i slot)
    (direct : slot.direct = true) (hit : Hit paddr pEnd slot) :
    ∃ word, paddr / 4 - kMaxBlockInsns ≤ word ∧ word ≤ (pEnd - 1) / 4 ∧
      word % kDirectTableSize = i := by
  have offset : (slot.tagPc &&& 3).toNat = slot.tagPc.toNat % 4 :=
    Nat.and_two_pow_sub_one_eq_mod slot.tagPc.toNat 2
  rw [holds.aligned] at offset
  change 0 = slot.tagPc.toNat % 4 at offset
  have index := holds.index
  have short := holds.short
  rw [slotIndex, BitVec.toNat_ushiftRight, Nat.shiftRight_eq_div_pow] at index
  have overlaps := hit.2
  rw [BasicBlock.overlaps, Bool.and_eq_true, decide_eq_true_iff, decide_eq_true_iff,
    BasicBlock.blkEnd, BasicBlock.blkStart] at overlaps
  rw [Slot.direct, directMapped] at direct
  simp only [Bool.and_eq_true, decide_eq_true_iff] at direct
  have place : slot.block.paddr.toNat = slot.tagPc.toNat % 2 ^ 32 % 2 ^ 29 := by
    rw [direct.2, BitVec.toNat_and, BitVec.toNat_setWidth]
    exact Nat.and_two_pow_sub_one_eq_mod _ 29
  unfold kMaxBlockInsns at short ⊢
  unfold kDirectTableSize at index ⊢
  refine ⟨slot.block.paddr.toNat / 4, ?_, ?_, ?_⟩
  · omega
  · omega
  · omega

theorem invalidateAliased_spec {d : BlockCache} {cursor : ℕ} (h : Empties paddr pEnd c d)
    (missed : ∀ k < cursor, ∀ i, d.physicallyAliasedSlots[k]? = some i →
      ¬Hit paddr pEnd (d.table i)) (here : cursor < d.physicallyAliasedSlots.length) :
    let t := invalidateAliased paddr pEnd (d, cursor)
    Empties paddr pEnd c t.1 ∧
      (∀ k < t.2, ∀ i, t.1.physicallyAliasedSlots[k]? = some i → ¬Hit paddr pEnd (t.1.table i)) ∧
      t.1.physicallyAliasedSlots.length - t.2 < d.physicallyAliasedSlots.length - cursor := by
  have consistent := h.consistent
  obtain ⟨i, found⟩ : ∃ i, d.physicallyAliasedSlots[cursor]? = some i :=
    ⟨_, List.getElem?_eq_getElem here⟩
  have member : i ∈ d.physicallyAliasedSlots := List.mem_of_getElem? found
  have inside := consistent.linked.inTable i member
  have valid := ((consistent.listed i inside).mp member).1
  have position : (d.table i).aliasedPosition = some cursor :=
    (consistent.linked.inverse i cursor).mpr found
  have entry : d.physicallyAliasedSlots.getD cursor 0 = i := by
    rw [List.getD_eq_getElem?_getD, found]
    rfl
  unfold invalidateAliased
  simp only [entry]
  by_cases overlaps : (d.table i).block.overlaps paddr pEnd = true
  · rw [if_pos overlaps]
    have emptied := (Empties.refl consistent).invalidateSlot inside ⟨valid, overlaps⟩
    have slots : (d.invalidateSlot i).physicallyAliasedSlots =
        (d.physicallyAliasedSlots.set cursor
          (d.physicallyAliasedSlots.getLastD 0)).dropLast := by
      rw [(consistent.invalidateSlot inside valid).2.2.2]
      unfold unmarkPhysicallyAliased
      rw [position]
    refine ⟨h.trans emptied, ?_, ?_⟩
    · intro k before j place
      rw [slots, consistent.linked.inverse.getElem?_remove position 0 k] at place
      by_cases within : k < d.physicallyAliasedSlots.length - 1
      · rw [if_pos within, if_neg (by omega)] at place
        have inTable := consistent.linked.inTable j (List.mem_of_getElem? place)
        exact emptied.not_hit inTable (missed k before j place)
      · rw [if_neg within] at place
        cases place
    · have shorter := consistent.linked.inverse.length_remove position 0
      rw [← slots] at shorter
      dsimp only
      omega
  · rw [if_neg overlaps]
    refine ⟨h, ?_, ?_⟩
    · intro k before j place
      by_cases last : k = cursor
      · rw [last, found] at place
        rw [← Option.some.inj place]
        exact fun hit => overlaps hit.2
      · exact missed k (by omega) j place
    · dsimp only
      omega

/-- The loop over the list ends by its own condition, and then no entry is hit. -/
theorem aliasedPass_spec {d : BlockCache} (h : Empties paddr pEnd c d) (fuel : ℕ)
    (enough : d.physicallyAliasedSlots.length ≤ fuel) :
    Empties paddr pEnd c (aliasedPass paddr pEnd fuel d).1 ∧
      (aliasedPass paddr pEnd fuel d).1.physicallyAliasedSlots.length ≤
        (aliasedPass paddr pEnd fuel d).2 ∧
      ∀ i ∈ (aliasedPass paddr pEnd fuel d).1.physicallyAliasedSlots,
        ¬Hit paddr pEnd ((aliasedPass paddr pEnd fuel d).1.table i) := by
  let P : BlockCache × ℕ → Prop := fun t => Empties paddr pEnd c t.1 ∧
    ∀ k < t.2, ∀ i, t.1.physicallyAliasedSlots[k]? = some i → ¬Hit paddr pEnd (t.1.table i)
  have start : P (d, 0) := ⟨h, fun k nothing => absurd nothing (Nat.not_lt_zero k)⟩
  have pass : ∀ t : BlockCache × ℕ, decide (t.2 < t.1.physicallyAliasedSlots.length) = true →
      P t → P (invalidateAliased paddr pEnd t) ∧
        (invalidateAliased paddr pEnd t).1.physicallyAliasedSlots.length -
          (invalidateAliased paddr pEnd t).2 < t.1.physicallyAliasedSlots.length - t.2 := by
    intro t going held
    obtain ⟨empties, missed, shorter⟩ :=
      invalidateAliased_spec held.1 held.2 (of_decide_eq_true going)
    exact ⟨⟨empties, missed⟩, shorter⟩
  have kept : P (aliasedPass paddr pEnd fuel d) :=
    whileDo_preserves P fuel start fun t going held => (pass t going held).1
  have ended := whileDo_ends P (fun t => t.1.physicallyAliasedSlots.length - t.2)
    (fun t going held => (pass t going held).1) (fun t going held => (pass t going held).2) fuel
    start enough
  have cursor := Nat.le_of_not_lt (of_decide_eq_false ended)
  refine ⟨kept.1, cursor, ?_⟩
  intro i member
  obtain ⟨k, place⟩ := List.mem_iff_getElem?.mp member
  obtain ⟨inside, -⟩ := List.getElem?_eq_some_iff.mp place
  exact kept.2 k (lt_of_lt_of_le inside cursor) i place

theorem invalidate_eq (c : BlockCache) (paddr : PhysicalAddress) {size : U32} (nonzero : size ≠ 0)
    (small : size.toNat < kDirectTableSize * 4) : c.invalidate paddr size =
      (aliasedPass paddr.toNat (paddr.toNat + size.toNat)
        (directPass paddr.toNat (paddr.toNat + size.toNat) c).physicallyAliasedSlots.length
        (directPass paddr.toNat (paddr.toNat + size.toNat) c)).1 := by
  unfold invalidate
  rw [if_neg nonzero, if_neg (Nat.not_le.mpr small)]
  rfl

theorem invalidate_spec (h : Consistent c) (paddr : PhysicalAddress) {size : U32}
    (nonzero : size ≠ 0) (small : size.toNat < kDirectTableSize * 4) :
    Empties paddr.toNat (paddr.toNat + size.toNat) c (c.invalidate paddr size) ∧
      ∀ i < kDirectTableSize, ¬Hit paddr.toNat (paddr.toNat + size.toNat)
        ((c.invalidate paddr size).table i) := by
  obtain ⟨direct, candidates⟩ := directPass_spec h paddr.toNat (paddr.toNat + size.toNat)
  obtain ⟨empties, -, listed⟩ := aliasedPass_spec direct _ le_rfl
  rw [invalidate_eq c paddr nonzero small]
  refine ⟨empties, ?_⟩
  intro i inside hit
  have consistent := empties.consistent
  cases kind : (Slot.direct ((aliasedPass paddr.toNat (paddr.toNat + size.toNat)
      (directPass paddr.toNat (paddr.toNat + size.toNat) c).physicallyAliasedSlots.length
      (directPass paddr.toNat (paddr.toNat + size.toNat) c)).1.table i)) with
  | false => exact listed i ((consistent.listed i inside).mpr ⟨hit.1, kind⟩) hit
  | true =>
    obtain ⟨word, above, below, index⟩ :=
      direct_candidate (consistent.holds i inside hit.1) kind hit
    have missed := candidates word above below
    rw [index] at missed
    have same : Empties paddr.toNat (paddr.toNat + size.toNat) _ _ :=
      Empties.refl direct.consistent
    exact (aliasedPass_spec same _ le_rfl).1.not_hit inside missed hit
end Invalidate

section Histories

/-- A call on a cache; what is compiled is at a word address. -/
inductive CacheOp where
  | compile (s : Sys) (vaddr : U64) (aligned : vaddr &&& 3 = 0)
  | invalidate (paddr : PhysicalAddress) (size : U32)
  | clear

def CacheOp.perform : CacheOp → BlockCache → BlockCache
  | .compile s vaddr _, c => (c.compile s vaddr).2
  | .invalidate paddr size, c => c.invalidate paddr size
  | .clear, c => c.clear

theorem Consistent.perform (op : CacheOp) (c : BlockCache) (h : Consistent c) :
    Consistent (op.perform c) := by
  cases op with
  | compile s vaddr aligned => exact h.compile s aligned
  | clear => exact h.clear
  | invalidate paddr size =>
    rw [CacheOp.perform]
    by_cases zero : size = 0
    · rw [BlockCache.invalidate, if_pos zero]
      exact h.clear
    · by_cases small : size.toNat < kDirectTableSize * 4
      · exact (invalidate_spec h paddr zero small).1.consistent
      · rw [BlockCache.invalidate, if_neg zero, if_pos (Nat.le_of_not_lt small)]
        exact h.clear

theorem consistent_run (ops : List CacheOp) : Consistent (run CacheOp.perform ops {}) :=
  run_preserves Consistent.perform ops consistent_fresh

/-- A block with words meets a range with bytes where the test says so. -/
theorem overlaps_iff {b : BasicBlock} (nonempty : b.insns ≠ []) (paddr : ℕ) {size : ℕ}
    (positive : 0 < size) : b.overlaps paddr (paddr + size) = true ↔ b.Meets paddr size := by
  have words := List.length_pos_iff.mpr nonempty
  rw [BasicBlock.overlaps, Bool.and_eq_true, decide_eq_true_iff, decide_eq_true_iff,
    BasicBlock.Meets, Set.Ico_inter_Ico, Set.nonempty_Ico, BasicBlock.blkEnd]
  rw [max_lt_iff, lt_min_iff, lt_min_iff]
  omega

theorem hit_iff (h : Consistent c) {i : ℕ} (inside : i < kDirectTableSize) (paddr : ℕ) {size : ℕ}
    (positive : 0 < size) : Hit paddr (paddr + size) (c.table i) ↔
      (c.table i).valid = true ∧ (c.table i).block.Meets paddr size := by
  rw [Hit]
  apply and_congr_right
  intro valid
  exact overlaps_iff (h.holds i inside valid).nonempty paddr positive

theorem aliasedPass_ends (h : Consistent c) (paddr : PhysicalAddress) {size : U32}
    (nonzero : size ≠ 0) (small : size.toNat < kDirectTableSize * 4) {fuel : ℕ}
    (enough : (directPass paddr.toNat (paddr.toNat + size.toNat) c).physicallyAliasedSlots.length ≤
      fuel) :
    let walk := aliasedPass paddr.toNat (paddr.toNat + size.toNat) fuel
      (directPass paddr.toNat (paddr.toNat + size.toNat) c)
    walk.1.physicallyAliasedSlots.length ≤ walk.2 ∧ walk.1 = c.invalidate paddr size := by
  obtain ⟨direct, -⟩ := directPass_spec h paddr.toNat (paddr.toNat + size.toNat)
  obtain ⟨-, first, -⟩ := aliasedPass_spec direct _ le_rfl
  refine ⟨(aliasedPass_spec direct fuel enough).2.1, ?_⟩
  rw [invalidate_eq c paddr nonzero small]
  apply congrArg Prod.fst
  apply whileDo_longer enough
  exact decide_eq_false (Nat.not_lt.mpr first)

/-- The representation after any calls, and what one invalidation does to it. -/
theorem cache_representation (ops : List CacheOp) :
    let c := run CacheOp.perform ops {}
    (c.count = c.validSlots.card ∧
      c.physicallyAliasedSlots.Nodup ∧
      (∀ i, i ∈ c.physicallyAliasedSlots ↔
        i < kDirectTableSize ∧ (c.table i).valid = true ∧ (c.table i).direct = false) ∧
      Inverse c.physicallyAliasedSlots fun i => (c.table i).aliasedPosition) ∧
    ∀ (paddr : PhysicalAddress) (size : U32), 0 < size.toNat → size.toNat < 256 * 1024 →
      (∀ i < kDirectTableSize, ((c.invalidate paddr size).table i).valid = true ↔
        (c.table i).valid = true ∧ ¬(c.table i).block.Meets paddr.toNat size.toNat) ∧
      (∀ i < kDirectTableSize,
        ¬((c.table i).valid = true ∧ (c.table i).block.Meets paddr.toNat size.toNat) →
        ((c.invalidate paddr size).table i).tagPc = (c.table i).tagPc ∧
          ((c.invalidate paddr size).table i).block = (c.table i).block) ∧
      ∀ fuel, (directPass paddr.toNat (paddr.toNat + size.toNat) c).physicallyAliasedSlots.length ≤
          fuel →
        let walk := aliasedPass paddr.toNat (paddr.toNat + size.toNat) fuel
          (directPass paddr.toNat (paddr.toNat + size.toNat) c)
        walk.1.physicallyAliasedSlots.length ≤ walk.2 ∧ walk.1 = c.invalidate paddr size := by
  intro c
  have h : Consistent c := consistent_run ops
  refine ⟨⟨h.count, h.linked.inverse.nodup, ?_, h.linked.inverse⟩, ?_⟩
  · intro i
    constructor
    · intro member
      have inside := h.linked.inTable i member
      exact ⟨inside, (h.listed i inside).mp member⟩
    · rintro ⟨inside, kind⟩
      exact (h.listed i inside).mpr kind
  · intro paddr size positive below
    have nonzero : size ≠ 0 := by
      rintro rfl
      exact absurd positive (Nat.lt_irrefl 0)
    have small : size.toNat < kDirectTableSize * 4 := below
    obtain ⟨empties, missed⟩ := invalidate_spec h paddr nonzero small
    refine ⟨?_, ?_, fun fuel enough => aliasedPass_ends h paddr nonzero small enough⟩
    · intro i inside
      have hits := hit_iff h inside paddr.toNat positive
      constructor
      · intro live
        have same := (content_eq (empties.live i inside live)).1
        have before : (c.table i).valid = true := same ▸ live
        refine ⟨before, ?_⟩
        intro meets
        have gone := (Empties.hit_content (empties.live i inside live)).mpr
          (hits.mpr ⟨before, meets⟩)
        exact missed i inside gone
      · rintro ⟨valid, apart⟩
        have kept := empties.kept i inside fun hit => apart (hits.mp hit).2
        rw [(content_eq kept).1, valid]
    · intro i inside apart
      have kept := empties.kept i inside fun hit => apart ((hit_iff h inside _ positive).mp hit)
      exact (content_eq kept).2

theorem cache_representation_page :
    let c := run CacheOp.perform [.compile {} 0xFFFFFFFF80001000 rfl, .invalidate 0x2000 64] {}
    ∀ i < kDirectTableSize, ((c.invalidate 0x1000 4).table i).valid = true ↔
      (c.table i).valid = true ∧ ¬(c.table i).block.Meets 0x1000 4 :=
  ((cache_representation _).2 0x1000 4 (by decide) (by decide)).1

end Histories

end BlockCache

end N64
