import N64Emu.Loops
import N64Emu.Words

/-!
# Registers written by clear and set commands

A written word carries commands, two for a flag: one that clears it and one
that sets it, applied in this order. A command that is added to a word is
redundant when the flag ends as it would have ended without it. Nothing here
mentions a particular program.
-/

set_option autoImplicit false

namespace CommandPairs

open N64.Words Loops

def has (x command : U32) : Bool := x &&& command != 0

theorem has_iff (x command : U32) : has x command = true ↔ x &&& command ≠ 0 := bne_iff_ne

theorem onBit_eq {σ : Type*} (x command : U32) (f : σ → σ) (s : σ) :
    onBit x command f s = if has x command then f s else s := by
  unfold onBit
  by_cases carried : x &&& command = 0
  · rw [if_neg (by simp [carried]), if_neg (by simp [has_iff, carried])]
  · rw [if_pos carried, if_pos ((has_iff x command).mpr carried)]

theorem has_or (e v command : U32) : has (e ||| v) command = (has e command || has v command) := by
  rw [Bool.eq_iff_iff, Bool.or_eq_true, has_iff, has_iff, has_iff, BitVec.and_or_distrib_right]
  constructor
  · intro carried
    by_contra neither
    obtain ⟨first, second⟩ := not_or.mp neither
    exact carried (BitVec.or_eq_zero_iff.mpr ⟨not_not.mp first, not_not.mp second⟩)
  · intro either nothing
    obtain ⟨first, second⟩ := BitVec.or_eq_zero_iff.mp nothing
    exact either.elim (fun carried => carried first) fun carried => carried second

theorem has_shift (x : U32) {k : ℕ} (inside : k < 32) : has x (1#32 <<< k) = x.getLsbD k := by
  rw [Bool.eq_iff_iff, has_iff, ← BitVec.twoPow_eq, BitVec.and_twoPow]
  cases x.getLsbD k with
  | false => simp
  | true =>
    have nonzero : BitVec.twoPow 32 k ≠ 0 := by
      intro zero
      have bit : (BitVec.twoPow 32 k).getLsbD k = false := by simp [zero]
      rw [BitVec.getLsbD_twoPow] at bit
      simp [inside] at bit
    simpa using nonzero

def pairFlag (clear set flag : Bool) : Bool := set || (!clear && flag)

/-- The commands `e` change nothing in a flag that also gets the commands `v`:
a set finds the flag set at the end anyway, a clear finds it clear or meets a
set or another clear. -/
def Redundant (flag : Bool) (clear set e v : U32) : Prop :=
  (has e set = true → has v set = true ∨ (flag = true ∧ has v clear = false)) ∧
  (has e clear = true →
    has e set = true ∨ has v set = true ∨ has v clear = true ∨ flag = false)

theorem pairFlag_eq_iff (flag : Bool) (clear set e v : U32) :
    pairFlag (has (e ||| v) clear) (has (e ||| v) set) flag =
      pairFlag (has v clear) (has v set) flag ↔ Redundant flag clear set e v := by
  rw [has_or, has_or, Redundant, pairFlag, pairFlag]
  cases has e clear <;> cases has e set <;> cases has v clear <;> cases has v set <;>
    cases flag <;> simp

/-- The two commands of a flag on the register that holds it. -/
def pairStep (x clear set flag a : U32) : U32 :=
  onBit x set (· ||| flag) (onBit x clear (· &&& ~~~flag) a)

section Bits

variable (x : U32) (command a : U32) {k : ℕ}

theorem getLsbD_shift (k j : ℕ) : (1#32 <<< k).getLsbD j = (decide (j < 32) && decide (k = j)) := by
  rw [← BitVec.twoPow_eq, BitVec.getLsbD_twoPow]
  by_cases same : k = j
  · simp [same]
  · simp [same]

theorem getLsbD_set (inside : k < 32) (j : ℕ) :
    (onBit x command (· ||| 1#32 <<< k) a).getLsbD j =
      if j = k then has x command || a.getLsbD j else a.getLsbD j := by
  rw [onBit_eq]
  cases has x command with
  | false => simp
  | true =>
    rw [if_pos rfl, BitVec.getLsbD_or, getLsbD_shift]
    by_cases here : j = k
    · rw [if_pos here, here]
      simp [inside]
    · rw [if_neg here]
      simp [Ne.symm here]

theorem getLsbD_clear (j : ℕ) :
    (onBit x command (· &&& ~~~(1#32 <<< k)) a).getLsbD j =
      if j = k then !has x command && a.getLsbD j else a.getLsbD j := by
  rw [onBit_eq]
  cases has x command with
  | false => simp
  | true =>
    rw [if_pos rfl, BitVec.getLsbD_and, BitVec.getLsbD_not, getLsbD_shift]
    by_cases low : j < 32
    · by_cases here : j = k
      · rw [if_pos here, here]
        simp [← here, low]
      · rw [if_neg here]
        simp [Ne.symm here, low]
    · rw [BitVec.getLsbD_of_ge a j (Nat.le_of_not_lt low)]
      simp

theorem getLsbD_pairStep (clear set : U32) (inside : k < 32) (j : ℕ) :
    (pairStep x clear set (1#32 <<< k) a).getLsbD j =
      if j = k then pairFlag (has x clear) (has x set) (a.getLsbD j) else a.getLsbD j := by
  rw [pairStep, getLsbD_set x set _ inside, getLsbD_clear x clear a]
  by_cases here : j = k
  · rw [if_pos here, if_pos here, if_pos here, pairFlag]
  · rw [if_neg here, if_neg here, if_neg here]

theorem getLsbD_pairs (clear set : ℕ → U32) (first n : ℕ) (fits : first + n ≤ 32) (j : ℕ) :
    (upTo (fun i => pairStep x (clear i) (set i) (1#32 <<< (first + i))) n a).getLsbD j =
      if first ≤ j ∧ j < first + n then
        pairFlag (has x (clear (j - first))) (has x (set (j - first))) (a.getLsbD j)
      else a.getLsbD j := by
  induction n with
  | zero => rw [upTo_zero, if_neg (by omega)]
  | succ n ih =>
    rw [upTo_succ, getLsbD_pairStep x _ _ _ (by omega), ih (by omega)]
    by_cases last : j = first + n
    · rw [if_pos last, if_neg (by omega), if_pos (by omega), last, Nat.add_sub_cancel_left]
    · rw [if_neg last]
      by_cases before : first ≤ j ∧ j < first + n
      · rw [if_pos before, if_pos (by omega)]
      · rw [if_neg before, if_neg (by omega)]

variable {x command a}

theorem pairStep_eq_iff {clear set e v : U32} (inside : k < 32) :
    pairStep (e ||| v) clear set (1#32 <<< k) a = pairStep v clear set (1#32 <<< k) a ↔
      Redundant (has a (1#32 <<< k)) clear set e v := by
  rw [has_shift a inside, ← pairFlag_eq_iff]
  constructor
  · intro same
    have bit := congrArg (BitVec.getLsbD · k) same
    simp only [getLsbD_pairStep _ _ _ _ inside, if_true] at bit
    exact bit
  · intro same
    apply BitVec.eq_of_getLsbD_eq
    intro j _
    rw [getLsbD_pairStep _ _ _ _ inside, getLsbD_pairStep _ _ _ _ inside]
    by_cases here : j = k
    · rw [if_pos here, if_pos here, here, same]
    · rw [if_neg here, if_neg here]

theorem clear_eq_iff {flag : U32} : a &&& ~~~flag = a ↔ has a flag = false := by
  have nothing : has a flag = false ↔ a &&& flag = 0 := bne_eq_false_iff_eq
  rw [nothing]
  constructor
  · intro same
    rw [← same, BitVec.and_assoc, BitVec.and_comm (~~~flag), BitVec.and_not_self]
    exact BitVec.and_zero
  · intro clear
    have split : a = (a &&& ~~~flag) ||| (a &&& flag) := by
      rw [← BitVec.and_or_distrib_left, BitVec.or_comm, BitVec.or_not_self, BitVec.and_allOnes]
    rw [clear] at split
    exact (split.trans (BitVec.or_zero)).symm

theorem set_eq_iff (inside : k < 32) : a ||| 1#32 <<< k = a ↔ has a (1#32 <<< k) = true := by
  rw [has_shift a inside]
  constructor
  · intro same
    rw [← same, BitVec.getLsbD_or, getLsbD_shift]
    simp [inside]
  · intro carried
    apply BitVec.eq_of_getLsbD_eq
    intro j _
    rw [BitVec.getLsbD_or, getLsbD_shift]
    by_cases here : k = j
    · rw [← here, carried, Bool.true_or]
    · simp [here]

end Bits

end CommandPairs
