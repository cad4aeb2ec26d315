import Mathlib.Tactic.Common
import Mathlib.Data.Nat.Notation
import Mathlib.Logic.Function.Basic
import Mathlib.Logic.Function.Iterate

/-!
# Counted and guarded loops

A counted loop runs its body for `0, 1, …, n-1`; a guarded loop runs while
its condition holds and its fuel lasts. What one pass preserves or relates,
the loop preserves or relates. Nothing here mentions a particular program.
-/

set_option autoImplicit false

namespace Loops

variable {σ τ : Type*}

/-- `for (i = 0; i < n; ++i) body(i)`. -/
def upTo (body : ℕ → σ → σ) : ℕ → σ → σ
  | 0, s => s
  | n+1, s => body n (upTo body n s)

/-- `while (cond) body`, stopped when the fuel is spent. -/
def whileDo (cond : σ → Bool) (body : σ → σ) : ℕ → σ → σ
  | 0, s => s
  | fuel+1, s => if cond s then whileDo cond body fuel (body s) else s

/-- The states in which the body of the guarded loop starts a pass. -/
def passes (cond : σ → Bool) (body : σ → σ) : ℕ → σ → List σ
  | 0, _ => []
  | fuel+1, s => if cond s then s :: passes cond body fuel (body s) else []

@[simp]
theorem upTo_zero (body : ℕ → σ → σ) (s : σ) : upTo body 0 s = s := rfl

theorem upTo_succ (body : ℕ → σ → σ) (n : ℕ) (s : σ) :
    upTo body (n+1) s = body n (upTo body n s) := rfl

theorem upTo_inv {body : ℕ → σ → σ} (P : ℕ → σ → Prop) (n : ℕ) {s : σ} (base : P 0 s)
    (step : ∀ i, i < n → ∀ t, P i t → P (i+1) (body i t)) : P n (upTo body n s) := by
  induction n with
  | zero => exact base
  | succ n ih => exact step n (by omega) _ (ih fun i hi => step i (by omega))

theorem upTo_preserves {body : ℕ → σ → σ} (P : σ → Prop) (n : ℕ) {s : σ} (base : P s)
    (step : ∀ i, i < n → ∀ t, P t → P (body i t)) : P (upTo body n s) :=
  upTo_inv (fun _ => P) n base step

theorem upTo_eq_foldl (body : ℕ → σ → σ) (n : ℕ) (s : σ) :
    upTo body n s = (List.range n).foldl (fun t i => body i t) s := by
  induction n with
  | zero => rfl
  | succ n ih => rw [upTo_succ, ih, List.range_succ, List.foldl_append, List.foldl_cons,
      List.foldl_nil]

theorem foldl_congr_inv {α : Type*} {f g : σ → α → σ} (P : σ → Prop) (l : List α) {s : σ}
    (base : P s) (keeps : ∀ a ∈ l, ∀ t, P t → P (f t a))
    (same : ∀ a ∈ l, ∀ t, P t → f t a = g t a) : l.foldl f s = l.foldl g s := by
  induction l generalizing s with
  | nil => rfl
  | cons a l ih =>
    rw [List.forall_mem_cons] at keeps same
    rw [List.foldl_cons, List.foldl_cons, ← same.1 s base]
    exact ih (keeps.1 s base) keeps.2 same.2

/-- A reflexive and transitive relation that holds across each pass holds
across the loop. -/
theorem upTo_rel {body : ℕ → σ → σ} (R : σ → σ → Prop) (refl : ∀ s, R s s)
    (trans : ∀ {a b c}, R a b → R b c → R a c) (n : ℕ) (s : σ)
    (step : ∀ i t, R t (body i t)) : R s (upTo body n s) := by
  induction n with
  | zero => exact refl s
  | succ n ih => exact trans ih (step n _)

theorem upTo_sim {body : ℕ → σ → σ} {body' : ℕ → τ → τ} (R : σ → τ → Prop) (n : ℕ) {s : σ} {t : τ}
    (base : R s t) (step : ∀ i, i < n → ∀ a b, R a b → R (body i a) (body' i b)) :
    R (upTo body n s) (upTo body' n t) := by
  induction n with
  | zero => exact base
  | succ n ih => exact step n (by omega) _ _ (ih fun i hi => step i (by omega))

theorem upTo_proj {body : ℕ → σ → σ} {body' : ℕ → τ → τ} (f : σ → τ) (n : ℕ) (s : σ)
    (step : ∀ i t, f (body i t) = body' i (f t)) : f (upTo body n s) = upTo body' n (f s) :=
  upTo_sim (fun a b => f a = b) n rfl fun i _ a b h => by rw [← h, step]

theorem upTo_untouched {body : ℕ → σ → σ} (get : σ → τ) (n : ℕ) (s : σ)
    (others : ∀ j < n, ∀ t, get (body j t) = get t) : get (upTo body n s) = get s := by
  induction n with
  | zero => rfl
  | succ n ih => rw [upTo_succ, others n (by omega), ih fun j lt => others j (by omega)]

/-- What pass `i` writes stands at the end when no other pass touches it. -/
theorem upTo_written {body : ℕ → σ → σ} (get : σ → τ) {v : τ} {n i : ℕ} (inside : i < n) (s : σ)
    (writes : ∀ t, get (body i t) = v)
    (others : ∀ j < n, j ≠ i → ∀ t, get (body j t) = get t) : get (upTo body n s) = v := by
  induction n with
  | zero => exact absurd inside (Nat.not_lt_zero i)
  | succ n ih =>
    rw [upTo_succ]
    by_cases last : n = i
    · rw [last, writes]
    · rw [others n (by omega) last]
      exact ih (by omega) fun j lt => others j (by omega)

theorem upTo_congr {body body' : ℕ → σ → σ} {n : ℕ} (s : σ)
    (agree : ∀ i < n, ∀ t, body i t = body' i t) : upTo body n s = upTo body' n s :=
  upTo_sim (fun a b => a = b) n rfl fun i lt a b h => by rw [h, agree i lt]

theorem upTo_add (body : ℕ → σ → σ) (n m : ℕ) (s : σ) :
    upTo body (n + m) s = upTo (fun i => body (n + i)) m (upTo body n s) := by
  induction m with
  | zero => rfl
  | succ m ih => rw [← Nat.add_assoc, upTo_succ, upTo_succ, ih]

theorem upTo_guard (body : ℕ → σ → σ) (n k : ℕ) (s : σ) :
    upTo (fun i s => if i < k then body i s else s) n s = upTo body (min n k) s := by
  induction n with
  | zero => rw [Nat.zero_min, upTo_zero, upTo_zero]
  | succ n ih =>
    rw [upTo_succ, ih]
    by_cases inside : n < k
    · rw [if_pos inside, Nat.min_eq_left (Nat.le_of_lt inside), Nat.min_eq_left inside, upTo_succ]
    · rw [if_neg inside, Nat.min_eq_right (by omega), Nat.min_eq_right (by omega)]

theorem upTo_untouched_inv {body : ℕ → σ → σ} (P : σ → Prop) (get : σ → τ) (n : ℕ) {s : σ}
    (base : P s) (keeps : ∀ j < n, ∀ t, P t → P (body j t))
    (others : ∀ j < n, ∀ t, P t → get (body j t) = get t) : get (upTo body n s) = get s :=
  (upTo_preserves (fun t => P t ∧ get t = get s) n ⟨base, rfl⟩ fun j lt t ⟨kept, same⟩ =>
    ⟨keeps j lt t kept, (others j lt t kept).trans same⟩).2

theorem upTo_written_inv {body : ℕ → σ → σ} (P : σ → Prop) (get : σ → τ) {v : τ} {n i : ℕ}
    (inside : i < n) {s : σ} (base : P s) (keeps : ∀ j < n, ∀ t, P t → P (body j t))
    (writes : ∀ t, P t → get (body i t) = v)
    (others : ∀ j < n, j ≠ i → ∀ t, P t → get (body j t) = get t) : get (upTo body n s) = v := by
  have reached : i < n → P (upTo body n s) ∧ get (upTo body n s) = v := by
    clear inside
    induction n with
    | zero => exact fun outside => absurd outside (Nat.not_lt_zero i)
    | succ n ih =>
      intro inside
      have kept : P (upTo body n s) := upTo_preserves P n base fun j lt => keeps j (by omega)
      refine ⟨keeps n (Nat.lt_succ_self n) _ kept, ?_⟩
      rw [upTo_succ]
      by_cases last : n = i
      · rw [last] at kept ⊢
        exact writes _ kept
      · rw [others n (Nat.lt_succ_self n) last _ kept]
        exact (ih (fun j lt => keeps j (by omega)) (fun j lt => others j (by omega))
          (by omega)).2
  exact (reached inside).2

theorem whileDo_preserves {cond : σ → Bool} {body : σ → σ} (P : σ → Prop) (fuel : ℕ) {s : σ}
    (base : P s) (step : ∀ t, cond t = true → P t → P (body t)) : P (whileDo cond body fuel s) := by
  induction fuel generalizing s with
  | zero => exact base
  | succ fuel ih =>
    rw [whileDo]
    by_cases h : cond s = true
    · rw [if_pos h]
      exact ih (step s h base)
    · rw [if_neg h]
      exact base

theorem whileDo_rel {cond : σ → Bool} {body : σ → σ} (R : σ → σ → Prop) (refl : ∀ s, R s s)
    (trans : ∀ {a b c}, R a b → R b c → R a c) (fuel : ℕ) (s : σ)
    (step : ∀ t, R t (body t)) : R s (whileDo cond body fuel s) :=
  whileDo_preserves (R s) fuel (refl s) fun t _ h => trans h (step t)

theorem whileDo_sim {cond : σ → Bool} {cond' : τ → Bool} {body : σ → σ} {body' : τ → τ}
    (R : σ → τ → Prop) (guard : ∀ a b, R a b → cond a = cond' b)
    (step : ∀ a b, cond a = true → R a b → R (body a) (body' b)) (fuel : ℕ) {s : σ} {t : τ}
    (base : R s t) : R (whileDo cond body fuel s) (whileDo cond' body' fuel t) := by
  induction fuel generalizing s t with
  | zero => exact base
  | succ fuel ih =>
    rw [whileDo, whileDo, ← guard s t base]
    by_cases h : cond s = true
    · rw [if_pos h, if_pos h]
      exact ih (step s t h base)
    · rw [if_neg h, if_neg h]
      exact base

theorem mem_passes {cond : σ → Bool} {body : σ → σ} (P : σ → Prop)
    (keeps : ∀ t, cond t = true → P t → P (body t)) (fuel : ℕ) {s t : σ} (start : P s)
    (pass : t ∈ passes cond body fuel s) : cond t = true ∧ P t := by
  induction fuel generalizing s with
  | zero => exact absurd pass List.not_mem_nil
  | succ fuel ih =>
    rw [passes] at pass
    by_cases going : cond s = true
    · rw [if_pos going] at pass
      rcases List.mem_cons.mp pass with rfl | later
      · exact ⟨going, start⟩
      · exact ih (keeps s going start) later
    · rw [if_neg going] at pass
      exact absurd pass List.not_mem_nil

/-- With a measure the body decreases, enough fuel ends the loop by its
condition. -/
theorem whileDo_ends {cond : σ → Bool} {body : σ → σ} (P : σ → Prop) (measure : σ → ℕ)
    (keeps : ∀ t, cond t = true → P t → P (body t))
    (decreases : ∀ t, cond t = true → P t → measure (body t) < measure t) (fuel : ℕ) {s : σ}
    (start : P s) (enough : measure s ≤ fuel) : cond (whileDo cond body fuel s) = false := by
  induction fuel generalizing s with
  | zero =>
    by_contra running
    have := decreases s (by simpa [whileDo] using running) start
    omega
  | succ fuel ih =>
    rw [whileDo]
    by_cases h : cond s = true
    · have smaller := decreases s h start
      rw [if_pos h]
      exact ih (keeps s h start) (by omega)
    · rw [if_neg h]
      simpa using h

theorem whileDo_ranked (cond : σ → Bool) (body : σ → σ) (R : ℕ → σ → Prop)
    (last : ∀ t, R 0 t → cond t = false) (next : ∀ d t, cond t = true → R (d + 1) t → R d (body t))
    {d fuel : ℕ} (enough : d ≤ fuel) {s : σ} (start : R d s) :
    cond (whileDo cond body fuel s) = false ∧ ∃ e ≤ d, R e (whileDo cond body fuel s) := by
  induction fuel generalizing d s with
  | zero =>
    obtain rfl : d = 0 := Nat.le_zero.mp enough
    exact ⟨last s start, 0, Nat.le_refl 0, start⟩
  | succ fuel ih =>
    rw [whileDo]
    by_cases going : cond s = true
    · rw [if_pos going]
      cases d with
      | zero => exact absurd going (by rw [last s start]; exact Bool.false_ne_true)
      | succ d =>
        obtain ⟨ended, e, le, rank⟩ := ih (by omega) (next d s going start)
        exact ⟨ended, e, by omega, rank⟩
    · rw [if_neg going]
      exact ⟨by simpa using going, d, Nat.le_refl d, start⟩

theorem whileDo_longer {cond : σ → Bool} {body : σ → σ} {fuel more : ℕ} (le : fuel ≤ more) {s : σ}
    (ended : cond (whileDo cond body fuel s) = false) :
    whileDo cond body more s = whileDo cond body fuel s := by
  induction fuel generalizing s more with
  | zero =>
    cases more with
    | zero => rfl
    | succ more =>
      rw [whileDo] at ended
      rw [whileDo, whileDo, if_neg (by rw [ended]; exact Bool.false_ne_true)]
  | succ fuel ih =>
    obtain ⟨more, rfl⟩ : ∃ n, more = n + 1 := ⟨more - 1, by omega⟩
    rw [whileDo] at ended
    rw [whileDo, whileDo]
    by_cases h : cond s = true
    · rw [if_pos h] at ended ⊢
      rw [if_pos h]
      exact ih (by omega) ended
    · rw [if_neg h, if_neg h]

theorem whileDo_eq_iterate {cond : σ → Bool} {body : σ → σ} {k fuel : ℕ} (enough : k ≤ fuel)
    {s : σ} (going : ∀ j < k, cond (body^[j] s) = true) (ended : cond (body^[k] s) = false) :
    whileDo cond body fuel s = body^[k] s := by
  induction k generalizing fuel s with
  | zero =>
    rw [Function.iterate_zero_apply] at ended ⊢
    cases fuel with
    | zero => rfl
    | succ fuel => rw [whileDo, ended, if_neg Bool.false_ne_true]
  | succ k ih =>
    obtain ⟨fuel, rfl⟩ : ∃ n, fuel = n + 1 := ⟨fuel - 1, by omega⟩
    have first : cond s = true := going 0 (by omega)
    rw [whileDo, if_pos first, Function.iterate_succ_apply]
    rw [Function.iterate_succ_apply] at ended
    exact ih (by omega) (fun j lt => going (j+1) (by omega)) ended

/-- A property of what the passes have emitted and of the state they have
reached. -/
theorem whileDo_emits {β : Type*} {cond : σ → Bool} {body : σ → σ} {emit : σ → List β}
    {P : List β → σ → Prop}
    (step : ∀ out t, cond t = true → P out t → P (out ++ emit t) (body t)) (fuel : ℕ)
    {out : List β} {s : σ} (start : P out s) :
    P (out ++ (passes cond body fuel s).flatMap emit) (whileDo cond body fuel s) := by
  induction fuel generalizing out s with
  | zero => simpa [passes, whileDo] using start
  | succ fuel ih =>
    rw [passes, whileDo]
    by_cases going : cond s = true
    · rw [if_pos going, if_pos going, List.flatMap_cons, ← List.append_assoc]
      exact ih (step out s going start)
    · rw [if_neg going, if_neg going, List.flatMap_nil, List.append_nil]
      exact start

theorem whileDo_done {cond : σ → Bool} {body : σ → σ} (measure : σ → ℕ)
    (decreases : ∀ t, cond t = true → measure (body t) < measure t) (fuel : ℕ) (s : σ)
    (enough : measure s ≤ fuel) : cond (whileDo cond body fuel s) = false :=
  whileDo_ends (fun _ => True) measure (fun _ _ _ => trivial) (fun t going _ => decreases t going)
    fuel trivial enough

end Loops
