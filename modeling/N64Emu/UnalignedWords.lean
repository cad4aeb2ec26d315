import N64Emu.ByteMerge
import N64Emu.Words

/-!
# The unaligned merges, byte by byte

What one merge leaves at each place of a word, and when a left and a right
merge together are the unaligned access.
-/

set_option autoImplicit false

namespace N64

open Words ByteMerge

namespace Unaligned

section Merges

variable {w : ℕ}

def leftLoad (old mem : BitVec (8*w)) (n : ℕ) : BitVec (8*w) :=
  let mask := BitVec.allOnes (8*w) <<< ((w - 1 - n)*8)
  let merged := mem <<< ((w - 1 - n)*8)
  (old &&& ~~~mask) ||| (merged &&& mask)

def rightLoad (old mem : BitVec (8*w)) (n : ℕ) : BitVec (8*w) :=
  let mask := BitVec.allOnes (8*w) >>> (n*8)
  let merged := mem >>> (n*8)
  (old &&& ~~~mask) ||| (merged &&& mask)

def leftStore (mem reg : BitVec (8*w)) (n : ℕ) : BitVec (8*w) :=
  let mask := BitVec.allOnes (8*w) <<< ((w - 1 - n)*8)
  (mem &&& ~~~mask) ||| ((reg >>> ((w - 1 - n)*8)) &&& mask)

def rightStore (mem reg : BitVec (8*w)) (n : ℕ) : BitVec (8*w) :=
  let mask := BitVec.allOnes (8*w) >>> (n*8)
  (mem &&& ~~~mask) ||| ((reg <<< (n*8)) &&& mask)

variable {x y : BitVec (8*w)} {n j : ℕ} (inside : j < w) (offset : n < w)

include inside offset in
theorem place_leftLoad : place (leftLoad x y n) j =
    if j ≤ n then place y (j + (w - 1 - n)) else place x j := by
  rw [leftLoad, place_leading inside, place_shiftLeft inside]
  by_cases leading : j ≤ n
  · rw [if_pos leading, if_pos (by omega), if_pos (by omega)]
  · rw [if_neg leading, if_neg (by omega)]

include inside in
theorem place_rightLoad : place (rightLoad x y n) j =
    if n ≤ j then place y (j - n) else place x j := by
  rw [rightLoad, place_trailing inside, place_shiftRight inside]
  by_cases trailing : n ≤ j
  · rw [if_pos trailing, if_pos trailing, if_pos trailing]
  · rw [if_neg trailing, if_neg trailing]

include inside offset in
theorem place_leftStore : place (leftStore x y n) j =
    if j ≤ n then (if w - 1 - n ≤ j then place y (j - (w - 1 - n)) else 0) else place x j := by
  rw [leftStore, place_leading inside, place_shiftRight inside]
  by_cases leading : j ≤ n
  · rw [if_pos leading, if_pos (by omega)]
  · rw [if_neg leading, if_neg (by omega)]

include inside in
theorem place_rightStore : place (rightStore x y n) j =
    if n ≤ j then (if j + n < w then place y (j + n) else 0) else place x j := by
  rw [rightStore, place_trailing inside, place_shiftLeft inside]

end Merges

/-- When a load pair returns the bytes from offset `n` on: `mem` are the bytes
from the aligned address, `old` those of the register. -/
def LoadMeets (w n : ℕ) (old mem : ℕ → U8) : Prop :=
  if n = 0 then mem 0 = mem (w - 1) ∧ ∀ j < w - 1, 0 < j → old j = mem j
  else
    (∀ j < n - 1, mem (j + (w - 1 - n)) = mem (j + n)) ∧
      ∀ j < w, n - 1 ≤ j → mem (w + (j - (n - 1))) = mem (j + n)

/-- When a store pair leaves the bytes of the register from offset `n` on. -/
def StoreMeets (w n : ℕ) (reg mem : ℕ → U8) : Prop :=
  if n = 0 then reg 0 = 0 ∧ reg (w - 1) = 0 ∧ ∀ j < w - 1, 0 < j → mem j = reg j
  else
    ((∀ j < n, mem j = if w - 1 - n ≤ j then reg (j - (w - 1 - n)) else 0) ∧
      reg 0 = (if w - 1 - n ≤ n then reg (n - (w - 1 - n)) else 0) ∧
      ∀ j < w, n < j → mem j = reg (j - n)) ∧
    (∀ j < n - 1, mem (w + j) = reg (w - n + j)) ∧
      reg (w - 1) = (if n - 1 + (n - 1) < w then reg (n - 1 + (n - 1)) else 0) ∧
      ∀ j < w, n ≤ j → mem (w + j) = if j + (n - 1) < w then reg (j + (n - 1)) else 0

instance (w n : ℕ) (old mem : ℕ → U8) : Decidable (LoadMeets w n old mem) :=
  inferInstanceAs (Decidable (ite _ _ _))

instance (w n : ℕ) (reg mem : ℕ → U8) : Decidable (StoreMeets w n reg mem) :=
  inferInstanceAs (Decidable (ite _ _ _))

section Pairs

variable {w n : ℕ} {old first second reg : BitVec (8*w)} {mem : ℕ → U8}

/-- Where the word of the last byte begins, from the word of the first. -/
def secondWord (w n : ℕ) : ℕ := if n = 0 then 0 else w

def lastOffset (w n : ℕ) : ℕ := if n = 0 then w - 1 else n - 1

variable (old) in
theorem load_pair (two : 1 < w) (offset : n < w)
    (here : ∀ j < w, place first j = mem j)
    (there : ∀ j < w, place second j = mem (secondWord w n + j)) :
    rightLoad (leftLoad old first n) second (lastOffset w n) = bigEndian w (fun j => mem (j + n)) ↔
      LoadMeets w n (place old) mem := by
  have result : ∀ j < w, place (rightLoad (leftLoad old first n) second (lastOffset w n)) j =
      if lastOffset w n ≤ j then mem (secondWord w n + (j - lastOffset w n))
      else if j ≤ n then mem (j + (w - 1 - n)) else place old j := by
    intro j inside
    rw [place_rightLoad inside, place_leftLoad inside offset]
    split_ifs
    · exact there _ (by omega)
    · exact here _ (by omega)
    · rfl
  have law : rightLoad (leftLoad old first n) second (lastOffset w n) =
      bigEndian w (fun j => mem (j + n)) ↔
      ∀ j < w, (if lastOffset w n ≤ j then mem (secondWord w n + (j - lastOffset w n))
        else if j ≤ n then mem (j + (w - 1 - n)) else place old j) = mem (j + n) := by
    rw [eq_iff_place]
    constructor
    · intro same j inside
      rw [← result j inside, same j inside, place_bigEndian inside]
    · intro same j inside
      rw [result j inside, same j inside, place_bigEndian inside]
  rw [law, LoadMeets]
  by_cases aligned : n = 0
  · subst aligned
    simp only [lastOffset, secondWord, if_true, Nat.zero_add, Nat.add_zero, Nat.sub_zero]
    constructor
    · intro same
      refine ⟨?_, ?_⟩
      · have last := same (w - 1) (by omega)
        rw [if_pos le_rfl, Nat.sub_self] at last
        exact last
      · intro j inside positive
        have middle := same j (by omega)
        rw [if_neg (by omega), if_neg (by omega)] at middle
        exact middle
    · rintro ⟨ends, middle⟩ j inside
      by_cases last : w - 1 ≤ j
      · obtain rfl : j = w - 1 := by omega
        rw [if_pos le_rfl, Nat.sub_self, ends]
      · by_cases leading : j ≤ 0
        · obtain rfl : j = 0 := by omega
          rw [if_neg last, if_pos leading, Nat.zero_add, ends]
        · rw [if_neg last, if_neg leading]
          exact middle j (by omega) (by omega)
  · simp only [lastOffset, secondWord, if_neg aligned]
    constructor
    · intro same
      refine ⟨?_, ?_⟩
      · intro j inside
        have leading := same j (by omega)
        rw [if_neg (by omega), if_pos (by omega)] at leading
        exact leading
      · intro j inside trailing
        have last := same j inside
        rw [if_pos trailing] at last
        exact last
    · rintro ⟨leading, trailing⟩ j inside
      by_cases last : n - 1 ≤ j
      · rw [if_pos last]
        exact trailing j inside last
      · rw [if_neg last, if_pos (by omega)]
        exact leading j (by omega)

theorem store_aligned (two : 1 < w) (here : ∀ j < w, place first j = mem j) :
    (∀ j < w, place (rightStore (leftStore first reg 0) reg (w - 1)) j = place reg j) ↔
      StoreMeets w 0 (place reg) mem := by
  have result : ∀ j < w, place (rightStore (leftStore first reg 0) reg (w - 1)) j =
      if j = 0 ∨ j = w - 1 then 0 else mem j := by
    intro j inside
    rw [place_rightStore inside, place_leftStore inside (by omega), here j inside]
    split_ifs
    all_goals first | rfl | omega
  rw [StoreMeets, if_pos rfl]
  constructor
  · intro same
    refine ⟨?_, ?_, ?_⟩
    · rw [← same 0 (by omega), result 0 (by omega), if_pos (Or.inl rfl)]
    · rw [← same (w - 1) (by omega), result (w - 1) (by omega), if_pos (Or.inr rfl)]
    · intro j inside positive
      rw [← same j (by omega), result j (by omega), if_neg (by omega)]
  · rintro ⟨first, last, middle⟩ j inside
    rw [result j inside]
    split_ifs with ends
    · rcases ends with rfl | rfl
      · exact first.symm
      · exact last.symm
    · exact middle j (by omega) (by omega)

theorem store_crossing (crosses : n ≠ 0) (offset : n < w)
    (here : ∀ j < w, place first j = mem j) (there : ∀ j < w, place second j = mem (w + j)) :
    ((∀ j < w, place (leftStore first reg n) j = if n ≤ j then place reg (j - n) else mem j) ∧
      ∀ j < w, place (rightStore second reg (n - 1)) j =
        if j < n then place reg (w - n + j) else mem (w + j)) ↔
      StoreMeets w n (place reg) mem := by
  rw [StoreMeets, if_neg crosses]
  apply and_congr
  · have result : ∀ j < w, place (leftStore first reg n) j =
        if j ≤ n then (if w - 1 - n ≤ j then place reg (j - (w - 1 - n)) else 0) else mem j := by
      intro j inside
      rw [place_leftStore inside offset, here j inside]
    constructor
    · intro same
      refine ⟨?_, ?_, ?_⟩
      · intro j below
        have byte := same j (by omega)
        rw [result j (by omega), if_pos (show j ≤ n by omega),
          if_neg (show ¬n ≤ j by omega)] at byte
        exact byte.symm
      · have byte := same n offset
        rw [result n offset, if_pos (le_refl n), if_pos (le_refl n), Nat.sub_self] at byte
        exact byte.symm
      · intro j inside above
        have byte := same j inside
        rw [result j inside, if_neg (by omega), if_pos (by omega)] at byte
        exact byte
    · rintro ⟨below, at_, above⟩ j inside
      rw [result j inside]
      rcases Nat.lt_trichotomy j n with under | rfl | beyond
      · rw [if_pos (show j ≤ n by omega), if_neg (show ¬n ≤ j by omega)]
        exact (below j under).symm
      · rw [if_pos (le_refl j), if_pos (le_refl j), Nat.sub_self]
        exact at_.symm
      · rw [if_neg (by omega), if_pos (by omega)]
        exact above j inside beyond
  · have result : ∀ j < w, place (rightStore second reg (n - 1)) j =
        if n - 1 ≤ j then (if j + (n - 1) < w then place reg (j + (n - 1)) else 0)
        else mem (w + j) := by
      intro j inside
      rw [place_rightStore inside, there j inside]
    constructor
    · intro same
      refine ⟨?_, ?_, ?_⟩
      · intro j below
        have byte := same j (by omega)
        rw [result j (by omega), if_neg (by omega), if_pos (by omega)] at byte
        exact byte
      · have byte := same (n - 1) (by omega)
        rw [result (n - 1) (by omega), if_pos (le_refl (n - 1)), if_pos (show n - 1 < n by omega),
          show w - n + (n - 1) = w - 1 by omega] at byte
        exact byte.symm
      · intro j inside above
        have byte := same j inside
        rw [result j inside, if_pos (show n - 1 ≤ j by omega),
          if_neg (show ¬j < n by omega)] at byte
        exact byte.symm
    · rintro ⟨below, at_, above⟩ j inside
      rw [result j inside]
      rcases Nat.lt_trichotomy j (n - 1) with under | rfl | beyond
      · rw [if_neg (by omega), if_pos (by omega)]
        exact below j under
      · rw [if_pos (le_refl (n - 1)), if_pos (show n - 1 < n by omega),
          show w - n + (n - 1) = w - 1 by omega]
        exact at_.symm
      · rw [if_pos (show n - 1 ≤ j by omega), if_neg (show ¬j < n by omega)]
        exact (above j inside (by omega)).symm

variable (first second reg mem) in
/-- A store pair over a memory: the second word is read after the first is written. -/
theorem store_pair {α : Type} [DecidableEq α] (m : α → U8) (cell : ℕ → α) (two : 1 < w)
    (offset : n < w)
    (apart : ∀ i < secondWord w n + w, ∀ j < secondWord w n + w, cell i = cell j → i = j)
    (old : ∀ i < secondWord w n + w, mem i = m (cell i))
    (here : ∀ j < w, place first j = m (cell j))
    (there : ∀ j < w, place second j =
      put m cell (place (leftStore first reg n)) w (cell (secondWord w n + j))) :
    Stored (put (put m cell (place (leftStore first reg n)) w)
        (fun i => cell (secondWord w n + i)) (place (rightStore second reg (lastOffset w n))) w)
        m (fun i => cell (n + i)) (place reg) w ↔ StoreMeets w n (place reg) mem := by
  have hereOld : ∀ j < w, place first j = mem j := by
    intro j inside
    rw [here j inside, old j (by omega)]
  by_cases aligned : n = 0
  · subst aligned
    simp only [secondWord, lastOffset, if_true, Nat.zero_add] at *
    have merged : second = leftStore first reg 0 := by
      apply eq_of_place
      intro j inside
      rw [there j inside, put_cell apart inside]
    rw [stored_twice_iff apart, merged]
    exact store_aligned two hereOld
  · simp only [secondWord, lastOffset, if_neg aligned] at *
    have thereOld : ∀ j < w, place second j = mem (w + j) := by
      intro j inside
      rw [there j inside, put_other, old (w + j) (by omega)]
      intro i hi same
      have index := apart i (by omega) (w + j) (by omega) same
      omega
    rw [stored_across_iff (Nat.le_of_lt offset) apart,
      ← store_crossing aligned offset hereOld thereOld]
    apply and_congr
    · apply forall₂_congr
      intro j inside
      rw [old j (by omega)]
    · apply forall₂_congr
      intro j inside
      rw [old (w + j) (by omega)]

end Pairs

end Unaligned

end N64
