import N64Emu.Loops

/-!
# Checked memory

Programs over a buffer of `n` cells in which an access outside the buffer, or a
loop that outlasts its fuel, has no result. Nothing here mentions a particular
program.
-/

set_option autoImplicit false

namespace CheckedMemory

open Loops

variable {β : Type} {α γ : Type}

abbrev Program (β α : Type) := StateT (ℕ → β) Option α

def load (n i : ℕ) : Program β β := fun m => if i < n then some (m i, m) else none

def store (n i : ℕ) (v : β) : Program β Unit :=
  fun m => if i < n then some ((), Function.update m i v) else none

/-- `while (i < limit && test(ram[i])) ++i`. -/
def seek (n : ℕ) (test : β → Bool) (limit : ℕ) : ℕ → ℕ → Program β ℕ
  | 0, _ => failure
  | fuel+1, i =>
    if i < limit then do
      let b ← load n i
      if test b then seek n test limit fuel (i + 1) else pure i
    else pure i

/-- `for (i = first; i < last; ++i) ram[off + i] = v`. -/
def fill (n off : ℕ) (v : β) (last : ℕ) : ℕ → ℕ → Program β Unit
  | 0, _ => failure
  | fuel+1, i =>
    if i < last then do
      store n (off + i) v
      fill n off v last fuel (i + 1)
    else pure ()

section Run

variable {n i : ℕ} (m : ℕ → β)

@[simp]
theorem pure_run (a : α) : (pure a : Program β α) m = some (a, m) := rfl

theorem load_bind (inside : i < n) (f : β → Program β γ) : (load n i >>= f) m = f (m i) m := by
  show (load n i m).bind _ = _
  rw [load, if_pos inside]
  rfl

theorem store_bind (inside : i < n) (v : β) (f : Unit → Program β γ) :
    (store n i v >>= f) m = f () (Function.update m i v) := by
  show (store n i v m).bind _ = _
  rw [store, if_pos inside]
  rfl

theorem bind_run {x : Program β α} {f : α → Program β γ} {a : α} {m' : ℕ → β}
    (ran : x m = some (a, m')) : (x >>= f) m = f a m' := by
  show (x m).bind _ = _
  rw [ran]
  rfl

theorem seek_run {test : β → Bool} {limit : ℕ} (inside : limit ≤ n) {fuel passes : ℕ}
    (enough : limit - i < fuel) (all : limit - i ≤ passes) : seek n test limit fuel i m =
      some (whileDo (fun c => c < limit && test (m c)) (· + 1) passes i, m) := by
  induction fuel generalizing i passes with
  | zero => omega
  | succ fuel ih =>
    rw [seek]
    by_cases going : i < limit
    · obtain ⟨passes, rfl⟩ : ∃ k, passes = k + 1 := ⟨passes - 1, by omega⟩
      rw [if_pos going, load_bind m (by omega), whileDo]
      by_cases here : test (m i) = true
      · rw [if_pos here, if_pos (by simp [going, here])]
        exact ih (by omega) (by omega)
      · rw [if_neg here, if_neg (by simp [here])]
        rfl
    · rw [if_neg going]
      cases passes with
      | zero => rfl
      | succ passes =>
        rw [whileDo, if_neg (by simp [going])]
        rfl

theorem fill_run {off last : ℕ} (v : β) (inside : off + last ≤ n) {fuel : ℕ}
    (enough : last - i < fuel) : fill n off v last fuel i m =
      some ((), fun j => if off + i ≤ j ∧ j < off + last then v else m j) := by
  induction fuel generalizing i m with
  | zero => omega
  | succ fuel ih =>
    rw [fill]
    by_cases going : i < last
    · rw [if_pos going, store_bind m (by omega), ih _ (by omega)]
      congr 2
      funext j
      rw [Function.update_apply]
      split_ifs <;> first | rfl | omega
    · rw [if_neg going, pure_run]
      congr 2
      funext j
      rw [if_neg (by omega)]

end Run

end CheckedMemory
