import Mathlib.Tactic.Common
import Mathlib.Data.Nat.Notation
import Mathlib.Data.List.Nodup
import Mathlib.Logic.Function.Basic

/-!
# A list and its reverse index

A list whose elements know their positions: an element is appended, or removed
by moving the last one into its place. Nothing here mentions a particular
program.
-/

set_option autoImplicit false

namespace ReverseList

variable {α : Type} {l : List α} {pos : α → Option ℕ}

/-- `pos` is the inverse of the list. -/
def Inverse (l : List α) (pos : α → Option ℕ) : Prop :=
  ∀ a k, pos a = some k ↔ l[k]? = some a

theorem Inverse.nodup (inverse : Inverse l pos) : l.Nodup := by
  rw [List.nodup_iff_injective_get]
  intro i j same
  have first := (inverse (l.get i) i).mpr (List.getElem?_eq_getElem i.isLt)
  have second := (inverse (l.get j) j).mpr (List.getElem?_eq_getElem j.isLt)
  rw [same, second] at first
  exact Fin.ext (Option.some.inj first).symm

theorem Inverse.mem_iff (inverse : Inverse l pos) (a : α) : a ∈ l ↔ pos a ≠ none := by
  rw [List.mem_iff_getElem?, Option.ne_none_iff_exists']
  constructor
  · rintro ⟨k, here⟩
    exact ⟨k, (inverse a k).mpr here⟩
  · rintro ⟨k, here⟩
    exact ⟨k, (inverse a k).mp here⟩

theorem inverse_nil : Inverse ([] : List α) (fun _ => none) := by
  intro a k
  simp

section Push

variable [DecidableEq α]

theorem Inverse.push (inverse : Inverse l pos) {a : α} (fresh : pos a = none) :
    Inverse (l ++ [a]) (Function.update pos a (some l.length)) := by
  intro b k
  rw [List.getElem?_append]
  by_cases same : b = a
  · subst same
    rw [Function.update_self]
    by_cases inside : k < l.length
    · rw [if_pos inside, ← inverse b k, fresh]
      simp
      omega
    · rw [if_neg inside, List.getElem?_singleton, Option.some.injEq]
      constructor
      · rintro rfl
        simp
      · intro here
        by_contra other
        rw [if_neg (by omega)] at here
        cases here
  · rw [Function.update_of_ne same]
    by_cases inside : k < l.length
    · rw [if_pos inside, inverse b k]
    · rw [if_neg inside, inverse b k, List.getElem?_eq_none (Nat.le_of_not_lt inside),
        List.getElem?_singleton]
      split_ifs
      · simp [Ne.symm same]
      · simp

end Push

section Remove

variable (inverse : Inverse l pos) {a : α} {k : ℕ} (found : pos a = some k) (d : α)
include inverse found

theorem Inverse.inside : k < l.length := by
  obtain ⟨inside, -⟩ := List.getElem?_eq_some_iff.mp ((inverse a k).mp found)
  exact inside

theorem Inverse.last : l[l.length - 1]? = some (l.getLastD d) := by
  have inside := inverse.inside found
  have nonempty : l ≠ [] := List.ne_nil_of_length_pos (by omega)
  rw [List.getLastD_eq_getLast?, List.getLast?_eq_getElem?,
    List.getElem?_eq_getElem (show l.length - 1 < l.length by omega)]
  rfl

theorem Inverse.getElem?_remove (j : ℕ) : ((l.set k (l.getLastD d)).dropLast)[j]? =
    if j < l.length - 1 then if j = k then some (l.getLastD d) else l[j]? else none := by
  have inside := inverse.inside found
  rw [List.getElem?_dropLast, List.length_set, List.getElem?_set]
  split_ifs
  · rfl
  · omega
  · omega
  · rfl
  · rfl

theorem Inverse.removed_place (j : ℕ) : ((l.set k (l.getLastD d)).dropLast)[j]? ≠ some a := by
  have last := (inverse _ _).mpr (inverse.last found d)
  rw [inverse.getElem?_remove found d j]
  split_ifs with within here
  · intro same
    rw [Option.some.inj same, found] at last
    have position := Option.some.inj last
    omega
  · intro same
    have position := (inverse a j).mpr same
    rw [found] at position
    exact here (Option.some.inj position).symm
  · simp

theorem Inverse.moved_place (other : l.getLastD d ≠ a) (j : ℕ) :
    ((l.set k (l.getLastD d)).dropLast)[j]? = some (l.getLastD d) ↔ k = j := by
  have inside := inverse.inside found
  have last := (inverse _ _).mpr (inverse.last found d)
  have apart : k ≠ l.length - 1 := by
    intro same
    have atEnd := (inverse a (l.length - 1)).mp (by rw [← same, found])
    rw [inverse.last found d] at atEnd
    exact other (Option.some.inj atEnd)
  rw [inverse.getElem?_remove found d j]
  split_ifs with within here
  · simp [here]
  · rw [← inverse _ j, last, Option.some.injEq]
    omega
  · simp only [false_iff]
    omega

theorem Inverse.other_place {b : α} (other : b ≠ a) (unmoved : b ≠ l.getLastD d) (j : ℕ) :
    ((l.set k (l.getLastD d)).dropLast)[j]? = some b ↔ l[j]? = some b := by
  have place := (inverse a k).mp found
  rw [inverse.getElem?_remove found d j]
  split_ifs with within here
  · rw [here, place, Option.some.injEq, Option.some.injEq]
    exact iff_of_false unmoved.symm other.symm
  · exact Iff.rfl
  · refine iff_of_false (by simp) fun same => ?_
    obtain ⟨bound, -⟩ := List.getElem?_eq_some_iff.mp same
    have tail : j = l.length - 1 := by omega
    rw [tail, inverse.last found d] at same
    exact unmoved (Option.some.inj same).symm

variable [DecidableEq α]

theorem Inverse.remove : Inverse ((l.set k (l.getLastD d)).dropLast)
    (Function.update (Function.update pos (l.getLastD d) (some k)) a none) := by
  intro b j
  by_cases removed : b = a
  · subst removed
    rw [Function.update_self]
    exact iff_of_false (by simp) (inverse.removed_place found d j)
  rw [Function.update_of_ne removed]
  by_cases moved : b = l.getLastD d
  · subst moved
    rw [Function.update_self, Option.some.injEq, inverse.moved_place found d removed j]
  · rw [Function.update_of_ne moved, inverse.other_place found d removed moved j, inverse b j]

theorem Inverse.mem_remove (b : α) :
    b ∈ (l.set k (l.getLastD d)).dropLast ↔ b ∈ l ∧ b ≠ a := by
  rw [(inverse.remove found d).mem_iff, inverse.mem_iff]
  have last : pos (l.getLastD d) ≠ none := by
    rw [(inverse _ _).mpr (inverse.last found d)]
    exact Option.some_ne_none _
  by_cases removed : b = a
  · subst removed
    simp
  · rw [Function.update_of_ne removed]
    by_cases moved : b = l.getLastD d
    · subst moved
      rw [Function.update_self]
      exact iff_of_true (Option.some_ne_none _) ⟨last, removed⟩
    · rw [Function.update_of_ne moved]
      simp [removed]

omit [DecidableEq α] in
theorem Inverse.length_remove : ((l.set k (l.getLastD d)).dropLast).length + 1 = l.length := by
  have inside := inverse.inside found
  rw [List.length_dropLast, List.length_set]
  omega

end Remove

end ReverseList
