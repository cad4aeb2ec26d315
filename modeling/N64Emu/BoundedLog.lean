import N64Emu.Runs

/-!
# Bounded logs

A log that drops its oldest entries when it is full, with a capacity that may
change between the entries. It holds what is left of the whole history once
every entry is gone that was ever older than the capacity of the moment.
Nothing here mentions a particular program.
-/

set_option autoImplicit false

namespace BoundedLog

variable {α : Type*}

structure Log (α : Type*) where
  entries : List α := []
  capacity : ℕ

inductive Op (α : Type*) where
  | push (x : α)
  | resize (n : ℕ)
  | clear

/-- `while (size > n) pop_front`. -/
def shrink (n : ℕ) : List α → List α
  | [] => []
  | x :: xs => if n < (x :: xs).length then shrink n xs else x :: xs

def act : Op α → Log α → Log α
  | .push x, l =>
    { l with entries :=
        (if l.capacity ≤ l.entries.length then l.entries.tail else l.entries) ++ [x] }
  | .resize n, l => { entries := shrink n l.entries, capacity := n }
  | .clear, l => { l with entries := [] }

/-- Everything pushed since the last clear, and how much of it is gone. -/
structure History (α : Type*) where
  all : List α := []
  lost : ℕ := 0
  capacity : ℕ

def record : Op α → History α → History α
  | .push x, h => { h with
      all := h.all ++ [x]
      lost := max h.lost (h.all.length + 1 - h.capacity) }
  | .resize n, h => { h with lost := max h.lost (h.all.length - n), capacity := n }
  | .clear, h => { h with all := [], lost := 0 }

/-- The log is the rest of the history, and fits. -/
structure Follows (h : History α) (l : Log α) : Prop where
  entries : l.entries = h.all.drop h.lost
  capacity : l.capacity = h.capacity
  lost : h.lost ≤ h.all.length
  fits : h.all.length - h.lost ≤ h.capacity
  positive : 0 < h.capacity

def Positive : Op α → Prop
  | .resize n => 0 < n
  | _ => True

theorem shrink_eq_drop (n : ℕ) (xs : List α) : shrink n xs = xs.drop (xs.length - n) := by
  induction xs with
  | nil => rw [shrink, List.drop_nil]
  | cons x xs ih =>
    unfold shrink
    split_ifs with long
    · rw [List.length_cons] at long ⊢
      rw [ih, show xs.length + 1 - n = xs.length - n + 1 by omega, List.drop_succ_cons]
    · rw [List.length_cons] at long ⊢
      rw [show xs.length + 1 - n = 0 by omega, List.drop_zero]

section Steps

variable {h : History α} {l : Log α}

theorem Follows.length (f : Follows h l) : l.entries.length = h.all.length - h.lost := by
  rw [f.entries, List.length_drop]

theorem Follows.push (f : Follows h l) (x : α) :
    Follows (record (.push x) h) (act (.push x) l) := by
  obtain ⟨entries, capacity, lost, fits, positive⟩ := f
  have size : l.entries.length = h.all.length - h.lost := by rw [entries, List.length_drop]
  have kept : (if l.capacity ≤ l.entries.length then l.entries.tail else l.entries) =
      h.all.drop (max h.lost (h.all.length + 1 - h.capacity)) := by
    split_ifs with full
    · rw [entries, List.tail_drop]
      congr 1
      omega
    · rw [entries]
      congr 1
      omega
  constructor
  · change (if l.capacity ≤ l.entries.length then l.entries.tail else l.entries) ++ [x] =
      (h.all ++ [x]).drop (max h.lost (h.all.length + 1 - h.capacity))
    rw [kept, List.drop_append_of_le_length (by omega)]
  · exact capacity
  · change max h.lost (h.all.length + 1 - h.capacity) ≤ (h.all ++ [x]).length
    rw [List.length_append, List.length_singleton]
    omega
  · change (h.all ++ [x]).length - max h.lost (h.all.length + 1 - h.capacity) ≤ h.capacity
    rw [List.length_append, List.length_singleton]
    omega
  · exact positive

theorem Follows.resize (f : Follows h l) {n : ℕ} (positive : 0 < n) :
    Follows (record (.resize n) h) (act (.resize n) l) := by
  have size := f.length
  have lost := f.lost
  constructor
  · change shrink n l.entries = h.all.drop (max h.lost (h.all.length - n))
    rw [shrink_eq_drop, size, f.entries, List.drop_drop]
    congr 1
    omega
  · rfl
  · change max h.lost (h.all.length - n) ≤ h.all.length
    omega
  · change h.all.length - max h.lost (h.all.length - n) ≤ n
    omega
  · exact positive

theorem Follows.clear (f : Follows h l) : Follows (record .clear h) (act .clear l) where
  entries := rfl
  capacity := f.capacity
  lost := Nat.le_refl 0
  fits := Nat.zero_le _
  positive := f.positive

theorem Follows.act (f : Follows h l) {op : Op α} (positive : Positive op) :
    Follows (record op h) (act op l) := by
  cases op with
  | push x => exact f.push x
  | resize n => exact f.resize positive
  | clear => exact f.clear

theorem Follows.run (f : Follows h l) {ops : List (Op α)} (positive : ∀ op ∈ ops, Positive op) :
    Follows (Runs.run record ops h) (Runs.run BoundedLog.act ops l) := by
  induction ops generalizing h l with
  | nil => exact f
  | cons op ops ih =>
    rw [List.forall_mem_cons] at positive
    exact ih (f.act positive.1) positive.2

/-- The latest `n` entries of the log are the latest of the whole history, as
far as the log reaches back. -/
theorem Follows.latest (f : Follows h l) (n : ℕ) :
    l.entries.drop (l.entries.length - min n l.entries.length) =
      h.all.drop (h.all.length - min n (h.all.length - h.lost)) := by
  have size := f.length
  have lost := f.lost
  rw [size, f.entries, List.drop_drop]
  congr 1
  omega

end Steps

section Capacity

variable {h : History α}

/-- While the capacity stands, an entry is gone exactly when it is older than it. -/
theorem lost_of_constant {ops : List (Op α)} (constant : ∀ op ∈ ops, ∀ n, op ≠ .resize n)
    (tight : h.lost = h.all.length - h.capacity) :
    (Runs.run record ops h).lost = (Runs.run record ops h).all.length - h.capacity := by
  induction ops generalizing h with
  | nil => exact tight
  | cons op ops ih =>
    rw [List.forall_mem_cons] at constant
    obtain ⟨first, rest⟩ := constant
    cases op with
    | push x =>
      have next : (record (.push x) h).lost = (record (.push x) h).all.length - h.capacity := by
        change max h.lost (h.all.length + 1 - h.capacity) = (h.all ++ [x]).length - h.capacity
        rw [List.length_append, List.length_singleton]
        omega
      exact ih rest next
    | resize n => exact absurd rfl (first n)
    | clear => exact ih (h := record .clear h) rest (Nat.zero_sub _).symm

end Capacity

end BoundedLog
