import N64Emu.Loops
import Mathlib.Data.List.ProdSigma

/-!
# Loops that fill a memory

A loop that stores one value under one key in each pass, and a loop over the
cells of a grid. A key stored once keeps what was stored; a store of what is
there already changes nothing. Nothing here mentions a particular program.
-/

set_option autoImplicit false

namespace Fills

open Loops

section Fill

variable {α β : Type*} [DecidableEq α] {key : ℕ → α} {value : ℕ → β} {n : ℕ} {m : α → β}

def fill (key : ℕ → α) (value : ℕ → β) (n : ℕ) (m : α → β) : α → β :=
  upTo (fun i m => Function.update m (key i) (value i)) n m

theorem fill_other {k : α} (apart : ∀ i < n, key i ≠ k) : fill key value n m k = m k :=
  upTo_untouched (fun m : α → β => m k) n m fun i lt _ =>
    Function.update_of_ne (apart i lt).symm _ _

/-- The value under a key, when every pass that stores there stores the same. -/
theorem fill_at {i : ℕ} (inside : i < n) (agree : ∀ j < n, key j = key i → value j = value i) :
    fill key value n m (key i) = value i := by
  have kept : ∀ k ≤ n, i < k → fill key value k m (key i) = value i := by
    intro k
    induction k with
    | zero => exact fun _ outside => absurd outside (Nat.not_lt_zero i)
    | succ k ih =>
      intro le _
      show Function.update (fill key value k m) (key k) (value k) (key i) = value i
      by_cases here : key k = key i
      · rw [here, Function.update_self]
        exact agree k le here
      · rw [Function.update_of_ne (Ne.symm here)]
        refine ih (by omega) (Nat.lt_of_le_of_ne (by omega) ?_)
        rintro rfl
        exact here rfl
  exact kept n (Nat.le_refl n) inside

theorem fill_at_of_injective {i : ℕ} (inside : i < n)
    (injective : ∀ j < n, key j = key i → j = i) : fill key value n m (key i) = value i :=
  fill_at inside fun j lt same => congrArg value (injective j lt same)

theorem fill_same (same : ∀ i < n, m (key i) = value i) : fill key value n m = m :=
  upTo_preserves (fun t => t = m) n rfl fun i lt t h => by
    rw [h, ← same i lt, Function.update_eq_self]

end Fill

section Put

variable {α β : Type*} [DecidableEq α] {cell : ℕ → Option (α × β)} {n : ℕ} {m : α → β}

def put (c : Option (α × β)) (m : α → β) : α → β :=
  match c with
  | some (k, v) => Function.update m k v
  | none => m

def puts (cell : ℕ → Option (α × β)) (n : ℕ) (m : α → β) : α → β :=
  upTo (fun i => put (cell i)) n m

theorem put_other {c : Option (α × β)} {k : α} (apart : ∀ v, c ≠ some (k, v)) :
    put c m k = m k := by
  cases c with
  | none => rfl
  | some stored =>
    obtain ⟨key, v⟩ := stored
    refine Function.update_of_ne ?_ v m
    rintro rfl
    exact apart v rfl

theorem puts_other {k : α} (apart : ∀ i < n, ∀ v, cell i ≠ some (k, v)) :
    puts cell n m k = m k :=
  upTo_untouched (fun m : α → β => m k) n m fun i lt _ => put_other (apart i lt)

theorem puts_at {i : ℕ} {k : α} {v : β} (inside : i < n) (here : cell i = some (k, v))
    (apart : ∀ j < n, j ≠ i → ∀ u, cell j ≠ some (k, u)) : puts cell n m k = v := by
  refine upTo_written (fun m : α → β => m k) inside m ?_ fun j lt other _ =>
    put_other (apart j lt other)
  intro t
  show put (cell i) t k = v
  rw [here]
  exact Function.update_self k v t

theorem puts_add (l : ℕ) : puts cell (n + l) m = puts (fun i => cell (n + i)) l (puts cell n m) :=
  upTo_add (fun i => put (cell i)) n l m

end Put

section Grid

variable {σ τ : Type*}

/-- Row and column of a cell are determined by its place in row order. -/
theorem cell_inj {width row column r c : ℕ} (inside : column < width) (inside' : c < width)
    (same : row * width + column = r * width + c) : row = r ∧ column = c := by
  have positive : 0 < width := Nat.lt_of_le_of_lt (Nat.zero_le column) inside
  have rows := congrArg (· / width) same
  simp only [Nat.mul_comm _ width, Nat.mul_add_div positive, Nat.div_eq_of_lt inside,
    Nat.div_eq_of_lt inside', Nat.add_zero] at rows
  subst rows
  exact ⟨rfl, Nat.add_left_cancel same⟩

def grid (cell : ℕ → ℕ → σ → σ) (rows columns : ℕ) (s : σ) : σ :=
  upTo (fun row => upTo (cell row) columns) rows s

variable {cell : ℕ → ℕ → σ → σ} {rows columns : ℕ} {s : σ}

theorem grid_preserves (P : σ → Prop) (base : P s)
    (step : ∀ row < rows, ∀ column < columns, ∀ t, P t → P (cell row column t)) :
    P (grid cell rows columns s) :=
  upTo_preserves P rows base fun row lt _ kept =>
    upTo_preserves P columns kept fun column inside => step row lt column inside

theorem grid_eq_foldl : grid cell rows columns s =
    (List.range rows ×ˢ List.range columns).foldl (fun t c => cell c.1 c.2 t) s := by
  have row (i : ℕ) (t : σ) : upTo (cell i) columns t =
      ((List.range columns).map (Prod.mk i)).foldl (fun t c => cell c.1 c.2 t) t := by
    rw [upTo_eq_foldl, List.foldl_map]
  show upTo (fun row => upTo (cell row) columns) rows s =
    (List.product (List.range rows) (List.range columns)).foldl (fun t c => cell c.1 c.2 t) s
  unfold List.product
  rw [upTo_eq_foldl, List.foldl_flatMap]
  simp only [row]

theorem grid_untouched (P : σ → Prop) (get : σ → τ) (base : P s)
    (keeps : ∀ row < rows, ∀ column < columns, ∀ t, P t → P (cell row column t))
    (others : ∀ row < rows, ∀ column < columns, ∀ t, P t → get (cell row column t) = get t) :
    get (grid cell rows columns s) = get s :=
  (grid_preserves (fun t => P t ∧ get t = get s) ⟨base, rfl⟩
    fun row lt column inside t ⟨kept, same⟩ => ⟨keeps row lt column inside t kept,
      (others row lt column inside t kept).trans same⟩).2

theorem upTo_reached (P Q : σ → Prop) {body : ℕ → σ → σ} {i n : ℕ} (inside : i < n) (base : P s)
    (keeps : ∀ j < n, ∀ t, P t → P (body j t)) (reaches : ∀ t, P t → Q (body i t))
    (stays : ∀ j < n, ∀ t, P t → Q t → Q (body j t)) : Q (upTo body n s) := by
  have reached : ∀ k ≤ n, P (upTo body k s) ∧ (i < k → Q (upTo body k s)) := by
    intro k
    induction k with
    | zero => exact fun _ => ⟨base, fun nothing => absurd nothing (Nat.not_lt_zero i)⟩
    | succ k ih =>
      intro le
      obtain ⟨kept, held⟩ := ih (Nat.le_of_succ_le le)
      refine ⟨keeps k le _ kept, fun passed => ?_⟩
      rcases Nat.lt_succ_iff_lt_or_eq.mp passed with earlier | rfl
      · exact stays k le _ kept (held earlier)
      · exact reaches _ kept
  exact (reached n (Nat.le_refl n)).2 inside

theorem grid_reached (P Q : σ → Prop) {row column : ℕ} (below : row < rows)
    (inside : column < columns) (base : P s)
    (keeps : ∀ r < rows, ∀ c < columns, ∀ t, P t → P (cell r c t))
    (reaches : ∀ t, P t → Q (cell row column t))
    (stays : ∀ r < rows, ∀ c < columns, ∀ t, P t → Q t → Q (cell r c t)) :
    Q (grid cell rows columns s) := by
  have line (r : ℕ) (lt : r < rows) (t : σ) (kept : P t) : P (upTo (cell r) columns t) :=
    upTo_preserves P columns kept fun c here => keeps r lt c here
  refine upTo_reached P Q below base line (fun t kept => ?_) fun r lt t kept held => ?_
  · exact upTo_reached P Q inside kept (fun c here => keeps row below c here) reaches
      fun c here => stays row below c here
  · have both := upTo_preserves (fun t => P t ∧ Q t) columns ⟨kept, held⟩ fun c here t h =>
      ⟨keeps r lt c here t h.1, stays r lt c here t h.1 h.2⟩
    exact both.2

theorem grid_written (P : σ → Prop) (get : σ → τ) {v : τ} {row column : ℕ} (below : row < rows)
    (inside : column < columns) (base : P s)
    (keeps : ∀ r < rows, ∀ c < columns, ∀ t, P t → P (cell r c t))
    (writes : ∀ t, P t → get (cell row column t) = v)
    (others : ∀ r < rows, ∀ c < columns, (r ≠ row ∨ c ≠ column) → ∀ t, P t →
      get (cell r c t) = get t) : get (grid cell rows columns s) = v := by
  apply upTo_written_inv P get below base
  · intro r lt t kept
    exact upTo_preserves P columns kept fun c here => keeps r lt c here
  · intro t kept
    exact upTo_written_inv P get inside kept (fun c here => keeps row below c here) writes
      fun c here apart => others row below c here (Or.inr apart)
  · intro r lt apart t kept
    exact upTo_untouched_inv P get columns kept (fun c here => keeps r lt c here)
      fun c here => others r lt c here (Or.inl apart)

end Grid

end Fills
