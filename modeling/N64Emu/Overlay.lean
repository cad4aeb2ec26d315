import Mathlib.Tactic.Common
import Mathlib.Data.Nat.Notation
import Mathlib.Logic.Function.Basic

/-!
# Layers over a picture and stores through several names

A layer covers some places and leaves the others clear. What layers laid one
over another show at a place is what the topmost one that covers it holds.

Addresses name cells. An address may name none, and then a write through it is
dropped; several addresses may name one cell. A cell holds the last value
written under any of its names. Nothing here mentions a particular program.
-/

set_option autoImplicit false

namespace Overlay

variable {α β : Type*}

def overlay (layer : α → Option β) (base : α → β) : α → β := fun k => (layer k).getD (base k)

/-- What the topmost of the layers that cover a place holds there. -/
def top : List (α → Option β) → α → Option β
  | [], _ => none
  | layer :: above, k => (top above k).or (layer k)

def pile : List (α → Option β) → (α → β) → α → β
  | [], base => base
  | layer :: above, base => pile above (overlay layer base)

theorem pile_apply (layers : List (α → Option β)) (base : α → β) (k : α) :
    pile layers base k = (top layers k).getD (base k) := by
  induction layers generalizing base with
  | nil => rfl
  | cons layer above ih =>
    rw [pile, ih, top, overlay]
    cases top above k with
    | none => rfl
    | some b => rfl

end Overlay

namespace CellStore

variable {A C V : Type*} [DecidableEq C] (cell : A → Option C)

def put (w : A × V) (m : C → V) : C → V :=
  match cell w.1 with
  | none => m
  | some c => Function.update m c w.2

def puts (ws : List (A × V)) (m : C → V) : C → V := ws.foldl (fun m w => put cell w m) m

/-- The last value written under a name of `c`. -/
def latest (c : C) : List (A × V) → Option V
  | [] => none
  | w :: ws => (latest c ws).or (if cell w.1 = some c then some w.2 else none)

variable {cell}

theorem put_apply (w : A × V) (m : C → V) (c : C) :
    put cell w m c = if cell w.1 = some c then w.2 else m c := by
  unfold put
  cases cell w.1 with
  | none => simp
  | some d => simp [Function.update_apply, eq_comm]

theorem puts_cons (w : A × V) (ws : List (A × V)) (m : C → V) :
    puts cell (w :: ws) m = puts cell ws (put cell w m) := rfl

theorem puts_append (vs ws : List (A × V)) (m : C → V) :
    puts cell (vs ++ ws) m = puts cell ws (puts cell vs m) := List.foldl_append

theorem puts_apply (ws : List (A × V)) (m : C → V) (c : C) :
    puts cell ws m c = (latest cell c ws).getD (m c) := by
  induction ws generalizing m with
  | nil => rfl
  | cons w ws ih =>
    rw [puts_cons, ih, put_apply, latest]
    cases latest cell c ws with
    | some v => rfl
    | none => by_cases named : cell w.1 = some c <;> simp [named]

/-- What holds of every value written and of the start holds of every cell. -/
theorem puts_forall {P : V → Prop} {ws : List (A × V)} {m : C → V} (written : ∀ w ∈ ws, P w.2)
    (start : ∀ c, P (m c)) (c : C) : P (puts cell ws m c) := by
  induction ws generalizing m with
  | nil => exact start c
  | cons w ws ih =>
    rw [List.forall_mem_cons] at written
    rw [puts_cons]
    refine ih written.2 fun d => ?_
    rw [put_apply]
    split
    · exact written.1
    · exact start d

end CellStore
