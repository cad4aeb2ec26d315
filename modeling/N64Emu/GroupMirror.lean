import N64Emu.Loops
import Mathlib.Logic.Equiv.Defs
import Mathlib.Data.List.OfFn

/-!
# Lists with their groups mirrored

A list is cut into groups of `k` elements and each group is turned round; what
is left behind the last group stays. Turning the groups round twice changes
nothing. Nothing here mentions a particular program.
-/

set_option autoImplicit false

namespace GroupMirror

open Loops

section Places

variable {k n i : ℕ}

def mirror (k i : ℕ) : ℕ := k * (i / k) + (k - 1 - i % k)

theorem mirror_div (positive : 0 < k) : mirror k i / k = i / k := by
  have inside : k - 1 - i % k < k := by omega
  unfold mirror
  rw [Nat.mul_add_div positive, Nat.div_eq_of_lt inside, Nat.add_zero]

theorem mirror_mod (positive : 0 < k) : mirror k i % k = k - 1 - i % k := by
  have inside : k - 1 - i % k < k := by omega
  unfold mirror
  rw [Nat.mul_add_mod, Nat.mod_eq_of_lt inside]

theorem mirror_mirror (positive : 0 < k) : mirror k (mirror k i) = i := by
  have below := Nat.mod_lt i positive
  have back : k - 1 - (k - 1 - i % k) = i % k := by omega
  calc
    mirror k (mirror k i) = k * (mirror k i / k) + (k - 1 - mirror k i % k) := rfl
    _ = k * (i / k) + i % k := by rw [mirror_div positive, mirror_mod positive, back]
    _ = i := Nat.div_add_mod i k

theorem mirror_bounds (positive : 0 < k) :
    k * (i / k) ≤ mirror k i ∧ mirror k i < k * (i / k) + k := by
  unfold mirror
  omega

theorem index_bounds (positive : 0 < k) : k * (i / k) ≤ i ∧ i < k * (i / k) + k := by
  have whole := Nat.div_add_mod i k
  have below := Nat.mod_lt i positive
  omega

/-- The place of an index in a list of `n`, whose last group may be short. -/
def place (k n i : ℕ) : ℕ := if k * (i / k) + k ≤ n then mirror k i else i

theorem place_div (positive : 0 < k) : place k n i / k = i / k := by
  unfold place
  split_ifs
  · exact mirror_div positive
  · rfl

theorem place_place (positive : 0 < k) : place k n (place k n i) = i := by
  have group := place_div (n := n) (i := i) positive
  by_cases full : k * (i / k) + k ≤ n
  · have here : place k n i = mirror k i := if_pos full
    rw [here] at group ⊢
    exact (if_pos (by rw [group]; exact full)).trans (mirror_mirror positive)
  · have here : place k n i = i := if_neg full
    rw [here, here]

theorem place_lt_iff (positive : 0 < k) : place k n i < n ↔ i < n := by
  have bounds := mirror_bounds (i := i) positive
  have inside := index_bounds (i := i) positive
  unfold place
  split_ifs with full
  · omega
  · rfl

theorem place_first (full : k ≤ n) (first : i < k) : place k n i = k - 1 - i := by
  unfold place mirror
  rw [Nat.div_eq_of_lt first, Nat.mod_eq_of_lt first, Nat.mul_zero, Nat.zero_add, Nat.zero_add,
    if_pos full]

theorem place_short (short : n < k) : place k n i = i := if_neg (by omega)

theorem place_add (positive : 0 < k) : place k (n + k) (i + k) = place k n i + k := by
  have group : (i + k) / k = i / k + 1 := Nat.add_div_right i positive
  have rest : (i + k) % k = i % k := Nat.add_mod_right i k
  unfold place mirror
  rw [group, rest, Nat.mul_succ]
  split_ifs <;> omega

def places (positive : 0 < k) (n : ℕ) : Equiv.Perm ℕ where
  toFun := place k n
  invFun := place k n
  left_inv := fun _ => place_place positive
  right_inv := fun _ => place_place positive

end Places

section Lists

variable {α : Type*} {k : ℕ}

/-- Each group of `k` elements turned round. -/
def mirrored (positive : 0 < k) (l : List α) : List α :=
  List.ofFn fun i : Fin l.length => l.get ⟨place k l.length i, (place_lt_iff positive).mpr i.isLt⟩

theorem length_mirrored (positive : 0 < k) (l : List α) :
    (mirrored positive l).length = l.length := List.length_ofFn

theorem getElem?_mirrored (positive : 0 < k) (l : List α) (i : ℕ) :
    (mirrored positive l)[i]? = l[place k l.length i]? := by
  unfold mirrored
  rw [List.getElem?_ofFn]
  by_cases inside : i < l.length
  · rw [dif_pos inside, List.getElem?_eq_getElem ((place_lt_iff positive).mpr inside)]
    rfl
  · rw [dif_neg inside, List.getElem?_eq_none]
    exact Nat.le_of_not_lt (mt (place_lt_iff positive).mp inside)

theorem eq_mirrored (positive : 0 < k) {l m : List α}
    (same : ∀ i, m[i]? = l[place k l.length i]?) : m = mirrored positive l := by
  apply List.ext_getElem?
  intro i
  rw [getElem?_mirrored, same]

theorem mirrored_mirrored (positive : 0 < k) (l : List α) :
    mirrored positive (mirrored positive l) = l := by
  apply List.ext_getElem?
  intro i
  rw [getElem?_mirrored, getElem?_mirrored, length_mirrored, place_place positive]

theorem upTo_groups (positive : 0 < k) {pass : ℕ → List α → List α}
    (length : ∀ p l, (pass p l).length = l.length)
    (turns : ∀ p l, k * p + k ≤ l.length → ∀ i,
      (pass p l)[i]? = l[if i / k = p then mirror k i else i]?) (l : List α) :
    upTo pass (l.length / k) l = mirrored positive l := by
  have run (n : ℕ) (few : n ≤ l.length / k) : (upTo pass n l).length = l.length ∧
      ∀ i, (upTo pass n l)[i]? = l[if i / k < n then mirror k i else i]? := by
    induction n with
    | zero => exact ⟨rfl, fun i => by rw [if_neg (Nat.not_lt_zero _)]; rfl⟩
    | succ n ih =>
      obtain ⟨long, before⟩ := ih (by omega)
      have room : k * n + k ≤ l.length := by
        calc
          k * n + k = k * (n + 1) := (Nat.mul_succ k n).symm
          _ ≤ k * (l.length / k) := Nat.mul_le_mul_left k few
          _ ≤ l.length := Nat.mul_div_le _ _
      refine ⟨(length n _).trans long, fun i => ?_⟩
      rw [upTo_succ, turns n _ (by rw [long]; exact room), before]
      by_cases here : i / k = n
      · have turned : ¬ mirror k i / k < n := by
          rw [mirror_div positive]
          omega
        rw [if_pos here, if_neg turned, if_pos (by omega)]
      · rw [if_neg here]
        by_cases earlier : i / k < n
        · rw [if_pos earlier, if_pos (by omega)]
        · rw [if_neg earlier, if_neg (by omega)]
  apply eq_mirrored positive
  intro i
  rw [(run _ (Nat.le_refl _)).2]
  have bounds := index_bounds (i := i) positive
  have full : i / k < l.length / k ↔ k * (i / k) + k ≤ l.length := by
    rw [← Nat.mul_succ, Nat.lt_iff_add_one_le, Nat.le_div_iff_mul_le positive, Nat.mul_comm]
  unfold place
  rw [if_congr full rfl rfl]

end Lists

end GroupMirror
