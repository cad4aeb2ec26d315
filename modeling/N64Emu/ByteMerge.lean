import Mathlib.Tactic.Common
import Mathlib.Tactic.Ring
import Mathlib.Data.Nat.Notation
import Mathlib.Logic.Function.Basic

/-!
# Words as bytes, and bytes as memory

The bytes of a word by their place, the most significant first, under the
shifts and masks that merge two words, and stores of consecutive bytes into a
memory. Nothing here mentions a particular program.
-/

set_option autoImplicit false

namespace ByteMerge

variable {w : ℕ}

/-- The byte at place `j`, counted from the most significant. -/
def place (x : BitVec (8*w)) (j : ℕ) : BitVec 8 := x.extractLsb' (8*(w - 1 - j)) 8

/-- The word of the bytes `f 0`, …, `f (w - 1)`. -/
def bigEndian : (w : ℕ) → (ℕ → BitVec 8) → BitVec (8*w)
  | 0, _ => 0#0
  | w + 1, f => (bigEndian w f ++ f w : BitVec (8*w + 8))

theorem getElem_place {x : BitVec (8*w)} {j i : ℕ} (small : i < 8) :
    (place x j)[i] = x.getLsbD (8*(w - 1 - j) + i) := by
  rw [place, BitVec.getElem_extractLsb' small]

theorem eq_of_place {x y : BitVec (8*w)} (bytes : ∀ j < w, place x j = place y j) : x = y := by
  apply BitVec.eq_of_getLsbD_eq
  intro i inside
  have small : i % 8 < 8 := Nat.mod_lt i (by decide)
  have index : 8*(w - 1 - (w - 1 - i/8)) + i % 8 = i := by omega
  have byte := bytes (w - 1 - i/8) (by omega)
  have bit := congrArg (fun b : BitVec 8 => b[i % 8]) byte
  simp only [getElem_place small, index] at bit
  exact bit

theorem eq_iff_place {x y : BitVec (8*w)} : x = y ↔ ∀ j < w, place x j = place y j := by
  constructor
  · intro same j _
    rw [same]
  · exact eq_of_place

theorem place_bigEndian {f : ℕ → BitVec 8} {j : ℕ} (inside : j < w) :
    place (bigEndian w f) j = f j := by
  induction w with
  | zero => omega
  | succ w ih =>
    ext i small
    rw [getElem_place small, bigEndian, BitVec.getLsbD_append]
    by_cases last : j = w
    · subst last
      rw [show 8*(j + 1 - 1 - j) + i = i by omega]
      simp [small]
    · have above : ¬8*(w + 1 - 1 - j) + i < 8 := by omega
      have index : 8*(w + 1 - 1 - j) + i - 8 = 8*(w - 1 - j) + i := by omega
      have byte := congrArg (fun b : BitVec 8 => b[i]) (ih (by omega))
      simp only [getElem_place small] at byte
      rw [if_neg above, index, byte]

section Shifts

variable {x y : BitVec (8*w)} {j k : ℕ} (inside : j < w)
include inside

theorem place_shiftLeft : place (x <<< (k*8)) j = if j + k < w then place x (j + k) else 0 := by
  ext i small
  rw [getElem_place small, BitVec.getLsbD_shiftLeft]
  by_cases within : j + k < w
  · rw [if_pos within, getElem_place small]
    have low : ¬8*(w - 1 - j) + i < k*8 := by omega
    have index : 8*(w - 1 - j) + i - k*8 = 8*(w - 1 - (j + k)) + i := by omega
    have bound : 8*(w - 1 - j) + i < 8*w := by omega
    simp [low, bound, index]
  · rw [if_neg within]
    have low : 8*(w - 1 - j) + i < k*8 := by omega
    simp [low]

theorem place_shiftRight : place (x >>> (k*8)) j = if k ≤ j then place x (j - k) else 0 := by
  ext i small
  rw [getElem_place small, BitVec.getLsbD_ushiftRight]
  by_cases within : k ≤ j
  · rw [if_pos within, getElem_place small]
    congr 1
    omega
  · rw [if_neg within]
    have outside : 8*w ≤ k*8 + (8*(w - 1 - j) + i) := by omega
    simp [BitVec.getLsbD_of_ge x _ outside]

theorem place_leading : place ((x &&& ~~~(BitVec.allOnes (8*w) <<< (k*8))) |||
    (y &&& (BitVec.allOnes (8*w) <<< (k*8)))) j =
    if j + k < w then place y j else place x j := by
  ext i small
  have bound : 8*(w - 1 - j) + i < 8*w := by omega
  rw [getElem_place small, BitVec.getLsbD_or, BitVec.getLsbD_and, BitVec.getLsbD_and,
    BitVec.getLsbD_not, BitVec.getLsbD_shiftLeft, BitVec.getLsbD_allOnes]
  by_cases within : j + k < w
  · rw [if_pos within, getElem_place small]
    have low : ¬8*(w - 1 - j) + i < k*8 := by omega
    have index : 8*(w - 1 - j) + i - k*8 < 8*w := by omega
    simp [low, bound, index]
  · rw [if_neg within, getElem_place small]
    have low : 8*(w - 1 - j) + i < k*8 := by omega
    simp [low, bound]

theorem place_trailing : place ((x &&& ~~~(BitVec.allOnes (8*w) >>> (k*8))) |||
    (y &&& (BitVec.allOnes (8*w) >>> (k*8)))) j =
    if k ≤ j then place y j else place x j := by
  ext i small
  have bound : 8*(w - 1 - j) + i < 8*w := by omega
  rw [getElem_place small, BitVec.getLsbD_or, BitVec.getLsbD_and, BitVec.getLsbD_and,
    BitVec.getLsbD_not, BitVec.getLsbD_ushiftRight, BitVec.getLsbD_allOnes]
  by_cases within : k ≤ j
  · rw [if_pos within, getElem_place small]
    have inner : k*8 + (8*(w - 1 - j) + i) < 8*w := by omega
    simp [bound, inner]
  · rw [if_neg within, getElem_place small]
    have outer : ¬k*8 + (8*(w - 1 - j) + i) < 8*w := by omega
    simp [bound, outer]

end Shifts

section Memory

variable {α β : Type} [DecidableEq α]

/-- Store `f 0`, …, `f (n - 1)` at the cells `cell 0`, …, `cell (n - 1)`, in this order. -/
def put (m : α → β) (cell : ℕ → α) (f : ℕ → β) : ℕ → α → β
  | 0 => m
  | n + 1 => Function.update (put m cell f n) (cell n) (f n)

variable {m : α → β} {cell : ℕ → α} {f g : ℕ → β} {n : ℕ}

theorem put_other {a : α} (other : ∀ i < n, cell i ≠ a) : put m cell f n a = m a := by
  induction n with
  | zero => rfl
  | succ n ih =>
    rw [put, Function.update_of_ne (other n (by omega)).symm]
    exact ih fun i inside => other i (by omega)

theorem put_cell (apart : ∀ i < n, ∀ j < n, cell i = cell j → i = j) {i : ℕ} (inside : i < n) :
    put m cell f n (cell i) = f i := by
  induction n with
  | zero => omega
  | succ n ih =>
    rw [put]
    by_cases last : i = n
    · rw [last, Function.update_self]
    · have other : cell i ≠ cell n := fun same => last (apart i inside n (by omega) same)
      rw [Function.update_of_ne other]
      exact ih (fun i hi j hj => apart i (by omega) j (by omega)) (by omega)

theorem put_congr (same : ∀ i < n, f i = g i) : put m cell f n = put m cell g n := by
  induction n with
  | zero => rfl
  | succ n ih =>
    rw [put, put, same n (by omega), ih fun i inside => same i (by omega)]

/-- The cells hold `f`, and every other cell is as before. -/
def Stored (after before : α → β) (cell : ℕ → α) (f : ℕ → β) (n : ℕ) : Prop :=
  (∀ i < n, after (cell i) = f i) ∧ ∀ a, (∀ i < n, cell i ≠ a) → after a = before a

theorem stored_twice_iff {h : ℕ → β} (apart : ∀ i < n, ∀ j < n, cell i = cell j → i = j) :
    Stored (put (put m cell f n) cell g n) m cell h n ↔ ∀ i < n, g i = h i := by
  constructor
  · intro stored i inside
    rw [← stored.1 i inside, put_cell apart inside]
  · intro same
    refine ⟨?_, ?_⟩
    · intro i inside
      rw [put_cell apart inside, same i inside]
    · intro a other
      rw [put_other other, put_other other]

/-- `n` bytes stored `k` places into a run of cells, when no other cell changed. -/
theorem stored_window_iff {after h : ℕ → β} {mem w : α → β} {k r : ℕ} (within : k + n ≤ r)
    (apart : ∀ i < r, ∀ j < r, cell i = cell j → i = j)
    (outside : ∀ a, (∀ j < r, cell j ≠ a) → w a = mem a) (values : ∀ j < r, w (cell j) = after j) :
    Stored w mem (fun i => cell (k + i)) h n ↔
      ∀ j < r, after j = if k ≤ j ∧ j < k + n then h (j - k) else mem (cell j) := by
  constructor
  · rintro ⟨bytes, others⟩ j inside
    dsimp only at bytes others
    rw [← values j inside]
    split_ifs with window
    · have byte := bytes (j - k) (by omega)
      rwa [show k + (j - k) = j by omega] at byte
    · apply others
      intro i hi same
      have index := apart (k + i) (by omega) j inside same
      omega
  · intro all
    refine ⟨fun i inside => ?_, fun a other => ?_⟩
    · rw [values (k + i) (by omega), all (k + i) (by omega), if_pos (by omega),
        Nat.add_sub_cancel_left]
    · by_cases named : ∃ j < r, cell j = a
      · obtain ⟨j, inside, rfl⟩ := named
        rw [values j inside, all j inside, if_neg]
        rintro ⟨low, high⟩
        exact other (j - k) (by omega) (congrArg cell (by omega))
      · exact outside a fun j inside same => named ⟨j, inside, same⟩

/-- `n` bytes stored `k` places into two runs of `n` cells that were both written. -/
theorem stored_across_iff {h : ℕ → β} {k : ℕ} (within : k ≤ n)
    (apart : ∀ i < n + n, ∀ j < n + n, cell i = cell j → i = j) :
    Stored (put (put m cell f n) (fun i => cell (n + i)) g n) m (fun i => cell (k + i)) h n ↔
      (∀ j < n, f j = if k ≤ j then h (j - k) else m (cell j)) ∧
        ∀ j < n, g j = if j < k then h (n - k + j) else m (cell (n + j)) := by
  have outside : ∀ a, (∀ j < n + n, cell j ≠ a) →
      put (put m cell f n) (fun i => cell (n + i)) g n a = m a := by
    intro a other
    rw [put_other fun i hi => other (n + i) (by omega), put_other fun i hi => other i (by omega)]
  have values : ∀ j < n + n, put (put m cell f n) (fun i => cell (n + i)) g n (cell j) =
      if j < n then f j else g (j - n) := by
    intro j inside
    split_ifs with low
    · rw [put_other, put_cell]
      · exact fun i hi j hj => apart i (by omega) j (by omega)
      · exact low
      · intro i hi same
        have index := apart (n + i) (by omega) j (by omega) same
        omega
    · obtain ⟨i, rfl⟩ : ∃ i, j = n + i := ⟨j - n, by omega⟩
      rw [Nat.add_sub_cancel_left]
      refine put_cell ?_ (by omega)
      intro i hi j hj same
      have index := apart (n + i) (by omega) (n + j) (by omega) same
      omega
  rw [stored_window_iff (by omega) apart outside values]
  constructor
  · intro all
    refine ⟨fun j inside => ?_, fun j inside => ?_⟩
    · have byte := all j (by omega)
      rw [if_pos inside] at byte
      simpa only [show j < k + n by omega, and_true] using byte
    · have byte := all (n + j) (by omega)
      rw [if_neg (by omega), Nat.add_sub_cancel_left, show n + j - k = n - k + j by omega] at byte
      simpa only [show (k ≤ n + j ∧ n + j < k + n) ↔ j < k by omega] using byte
  · rintro ⟨first, second⟩ j inside
    split_ifs with low window window
    · rw [first j low, if_pos window.1]
    · rw [first j low, if_neg (by omega)]
    · rw [second (j - n) (by omega), if_pos (by omega), show n - k + (j - n) = j - k by omega]
    · rw [second (j - n) (by omega), if_neg (by omega), show n + (j - n) = j by omega]

end Memory

end ByteMerge
