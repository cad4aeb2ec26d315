import Mathlib.Tactic.Common
import Mathlib.Data.List.Induction

/-!
# A test-and-set flag

A read returns the flag and sets it, a write clears it. A party that reads the
flag clear holds it until the next write. Nothing here mentions a particular
machine.
-/

set_option autoImplicit false

namespace TestAndSet

variable {π : Type*}

/-- A read of a party with what it saw of the flag, if anything, or a write. -/
inductive Access (π : Type*) where
  | read (party : π) (seen : Option Bool)
  | clear
  deriving DecidableEq

def after : Access π → Bool
  | .read _ _ => true
  | .clear => false

def Shows (flag : Bool) : Access π → Prop
  | .read _ (some seen) => seen = flag
  | _ => True

/-- The accesses lead from one value of the flag to another, each seeing the flag. -/
def Path (flag : Bool) : List (Access π) → Bool → Prop
  | [], last => last = flag
  | a :: as, last => Shows flag a ∧ Path (after a) as last

variable {flag mid last : Bool} {as bs : List (Access π)}

theorem Path.append (h : Path flag as mid) (k : Path mid bs last) : Path flag (as ++ bs) last := by
  induction as generalizing flag with
  | nil =>
    rw [show mid = flag from h] at k
    exact k
  | cons a as ih => exact ⟨h.1, ih h.2⟩

theorem Path.split (h : Path flag (as ++ bs) last) :
    ∃ mid, Path flag as mid ∧ Path mid bs last := by
  induction as generalizing flag with
  | nil => exact ⟨flag, rfl, h⟩
  | cons a as ih =>
    obtain ⟨mid, first, rest⟩ := ih h.2
    exact ⟨mid, ⟨h.1, first⟩, rest⟩

theorem Path.decides (h : Path flag as last) : last = (as.getLast?.map after).getD flag := by
  induction as using List.reverseRecOn generalizing last with
  | nil => exact h
  | append_singleton as a _ =>
    obtain ⟨mid, -, final⟩ := h.split
    rw [List.getLast?_concat]
    exact final.2

theorem Path.seen {p : π} {seen : Bool} {before rest : List (Access π)}
    (h : Path flag (before ++ .read p (some seen) :: rest) last) :
    seen = (before.getLast?.map after).getD flag := by
  obtain ⟨mid, first, shown, -⟩ := h.split
  exact Eq.trans shown first.decides

theorem Path.cleared_between {p q : π} {before between rest : List (Access π)}
    (h : Path flag (before ++ .read p (some false) :: (between ++ .read q (some false) :: rest))
      last) : .clear ∈ between := by
  obtain ⟨mid, -, -, later⟩ := h.split
  have seen := later.seen
  cases final : between.getLast? with
  | none =>
    rw [final] at seen
    cases seen
  | some a =>
    rw [final] at seen
    cases a with
    | read r shown => cases seen
    | clear => exact List.mem_of_getLast? final

end TestAndSet
