import Mathlib.Tactic.Common
import Mathlib.Data.List.Induction
import Mathlib.Tactic.Ring

/-!
# Rounds of a trace and events that recur

A mark in a trace ends a round and starts the next. What every round holds is
followed signal by signal, from what has come since the last mark.

An event recurs every `N` instants when from each time it happens the next time
is `N` later. Events counted in slots of `c` instants recur every `c` times as
many. Nothing here mentions a particular trace or event.
-/

set_option autoImplicit false

namespace Rounds

variable {β : Type*}

/-- `round` is what has come since the last mark. -/
def Open (mark : β) (out round : List β) : Prop :=
  ∃ before, out = before ++ mark :: round ∧ mark ∉ round

/-- What stands between two consecutive marks is as `G` says. -/
def Each (mark : β) (G : List β → Prop) (out : List β) : Prop :=
  ∀ before round after, out = before ++ mark :: (round ++ mark :: after) → mark ∉ round → G round

variable {mark : β} {G : List β → Prop} {out round : List β}

theorem not_open_nil : ¬ Open mark [] round := by
  rintro ⟨before, split, -⟩
  simp at split

theorem each_nil : Each mark G [] := by
  intro before round after split
  simp at split

theorem open_mark (h : Open mark (out ++ [mark]) round) : round = [] := by
  obtain ⟨before, split, plain⟩ := h
  induction round using List.reverseRecOn with
  | nil => rfl
  | append_singleton round x =>
    rw [← List.cons_append, ← List.append_assoc] at split
    obtain ⟨-, last⟩ := List.append_inj' split rfl
    exact absurd (by simpa using last) (fun same : mark = x => plain (by simp [same]))

theorem open_signal {x : β} (plain : x ≠ mark) (h : Open mark (out ++ [x]) round) :
    ∃ earlier, Open mark out earlier ∧ round = earlier ++ [x] := by
  obtain ⟨before, split, unmarked⟩ := h
  induction round using List.reverseRecOn with
  | nil =>
    obtain ⟨-, last⟩ := List.append_inj' split rfl
    exact absurd (by simpa using last) plain
  | append_singleton round y =>
    rw [← List.cons_append, ← List.append_assoc] at split
    obtain ⟨first, last⟩ := List.append_inj' split rfl
    have same : x = y := by simpa using last
    refine ⟨round, ⟨before, first, fun mem => unmarked (List.mem_append_left _ mem)⟩, ?_⟩
    rw [same]

theorem each_concat {x : β} (h : Each mark G out)
    (closes : x = mark → ∀ round, Open mark out round → G round) : Each mark G (out ++ [x]) := by
  intro before round after split unmarked
  induction after using List.reverseRecOn with
  | nil =>
    rw [← List.cons_append, ← List.append_assoc] at split
    obtain ⟨first, last⟩ := List.append_inj' split rfl
    exact closes (by simpa using last) round ⟨before, first, unmarked⟩
  | append_singleton after y =>
    have regrouped : before ++ mark :: (round ++ mark :: (after ++ [y])) =
        (before ++ mark :: (round ++ mark :: after)) ++ [y] := by simp
    rw [regrouped] at split
    obtain ⟨first, -⟩ := List.append_inj' split rfl
    exact h before round after first unmarked

end Rounds

namespace Recurrence

/-- The event happens, and from each time it does the next is `N` later. -/
structure Every (N : ℕ) (event : ℕ → Prop) : Prop where
  happens : ∃ n, event n
  next : ∀ n, event n → event (n + N)
  between : ∀ n, event n → ∀ j, 0 < j → j < N → ¬ event (n + j)

variable {event : ℕ → Prop}

theorem Every.unique {M N : ℕ} (hM : Every M event) (hN : Every N event) (posM : 0 < M)
    (posN : 0 < N) : M = N := by
  obtain ⟨n, here⟩ := hM.happens
  rcases Nat.lt_trichotomy M N with lt | same | gt
  · exact absurd (hM.next n here) (hN.between n here M posM lt)
  · exact same
  · exact absurd (hN.next n here) (hM.between n here N posN gt)

/-- The event of slot `q` happens at its last instant; the first slot has `A`
of its `c` instants behind it. -/
def Slotted (c A : ℕ) (event slot : ℕ → Prop) : Prop :=
  ∀ n, event n ↔ ∃ q, A + n + 1 = c * (q + 1) ∧ slot q

theorem Every.slots {c A M : ℕ} {slot : ℕ → Prop} (slotted : Slotted c A event slot)
    (started : A < c) (h : Every M slot) : Every (M * c) event where
  happens := by
    obtain ⟨q, here⟩ := h.happens
    have first : c ≤ c * (q + 1) := Nat.le_mul_of_pos_right c (Nat.succ_pos q)
    exact ⟨c * (q + 1) - A - 1, (slotted _).mpr ⟨q, by omega, here⟩⟩
  next n here := by
    obtain ⟨q, last, happened⟩ := (slotted n).mp here
    have later : c * (q + M + 1) = c * (q + 1) + M * c := by ring
    exact (slotted _).mpr ⟨q + M, by omega, h.next q happened⟩
  between n here j pos lt again := by
    obtain ⟨q, last, happened⟩ := (slotted n).mp here
    obtain ⟨r, lastAgain, happenedAgain⟩ := (slotted (n + j)).mp again
    have later : q < r := by
      by_contra notLater
      have le : c * (r + 1) ≤ c * (q + 1) := Nat.mul_le_mul_left c (by omega)
      omega
    obtain ⟨i, rfl⟩ : ∃ i, r = q + i := ⟨r - q, by omega⟩
    have gap : c * (q + i + 1) = c * (q + 1) + i * c := by ring
    have short : i < M := by
      by_contra long
      have le : M * c ≤ i * c := Nat.mul_le_mul_right c (by omega)
      omega
    exact h.between q happened i (by omega) short happenedAgain

end Recurrence
