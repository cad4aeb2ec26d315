import Mathlib.Tactic.Common
import Mathlib.Data.List.Induction

/-!
# Runs of a labelled machine

A run performs a list of labels one after another. What every step preserves,
the run preserves; a condition on the steps is a condition on the run. Nothing
here mentions a particular machine.
-/

set_option autoImplicit false

namespace Runs

variable {α σ : Type*} (act : α → σ → σ)

def run : List α → σ → σ
  | [], s => s
  | a :: as, s => run as (act a s)

@[simp]
theorem run_nil (s : σ) : run act [] s = s := rfl

theorem run_cons (a : α) (as : List α) (s : σ) : run act (a :: as) s = run act as (act a s) := rfl

theorem run_append (as bs : List α) (s : σ) :
    run act (as ++ bs) s = run act bs (run act as s) := by
  induction as generalizing s with
  | nil => rfl
  | cons a as ih => exact ih _

theorem run_concat (as : List α) (a : α) (s : σ) : run act (as ++ [a]) s = act a (run act as s) :=
  run_append act as [a] s

variable {act}

theorem run_preserves {P : σ → Prop} (step : ∀ a s, P s → P (act a s)) (as : List α) {s : σ}
    (start : P s) : P (run act as s) := by
  induction as generalizing s with
  | nil => exact start
  | cons a as ih => exact ih (step a s start)

theorem run_history {P : List α → σ → Prop} {s : σ} (start : P [] s)
    (step : ∀ as a, P as (run act as s) → P (as ++ [a]) (act a (run act as s))) (as : List α) :
    P as (run act as s) := by
  induction as using List.reverseRecOn with
  | nil => exact start
  | append_singleton as a ih =>
    rw [run_concat]
    exact step as a ih

variable (act) in
def Along (ok : α → σ → Prop) : List α → σ → Prop
  | [], _ => True
  | a :: as, s => ok a s ∧ Along ok as (act a s)

theorem along_concat (ok : α → σ → Prop) (as : List α) (a : α) (s : σ) :
    Along act ok (as ++ [a]) s ↔ Along act ok as s ∧ ok a (run act as s) := by
  induction as generalizing s with
  | nil => simp [Along]
  | cons b as ih => simp [Along, ih, run_cons, and_assoc]

theorem run_preserves_along {P : σ → Prop} {ok : α → σ → Prop}
    (step : ∀ a s, P s → ok a s → P (act a s)) (as : List α) {s : σ} (start : P s)
    (along : Along act ok as s) : P (run act as s) := by
  induction as generalizing s with
  | nil => exact start
  | cons a as ih => exact ih (step a s start along.1) along.2

variable (act) in
/-- Two machines that perform the same labels. -/
def both (a : α) (p : σ × σ) : σ × σ := (act a p.1, act a p.2)

theorem run_both (as : List α) (p : σ × σ) :
    run (both act) as p = (run act as p.1, run act as p.2) := by
  induction as generalizing p with
  | nil => rfl
  | cons a as ih => exact ih (both act a p)

variable (act) in
/-- A step that meets `start`, and after it only steps that meet `calm`. -/
def Since (start calm : α → σ → Prop) (as : List α) (s : σ) : Prop :=
  ∃ before a after, as = before ++ a :: after ∧ start a (run act before s) ∧
    Along act calm after (run act (before ++ [a]) s)

section Since

variable {start calm : α → σ → Prop} {as : List α} {a : α} {s : σ}

theorem since_start (here : start a (run act as s)) : Since act start calm (as ++ [a]) s :=
  ⟨as, a, [], rfl, here, trivial⟩

theorem Since.concat (h : Since act start calm as s) (quiet : calm a (run act as s)) :
    Since act start calm (as ++ [a]) s := by
  obtain ⟨before, b, after, rfl, first, rest⟩ := h
  refine ⟨before, b, after ++ [a], ?_, first, ?_⟩
  · rw [List.append_assoc, List.cons_append]
  · rw [along_concat, ← run_append, List.append_assoc, List.singleton_append]
    exact ⟨rest, quiet⟩

end Since

/-- Where a step keeps a good state good exactly under its condition, a run
reaches good states only exactly when all its steps meet it. -/
theorem reached_iff_along {K G : σ → Prop} {ok : α → σ → Prop}
    (keep : ∀ a s, K s → K (act a s)) (step : ∀ a s, K s → G s → (G (act a s) ↔ ok a s))
    (as : List α) {s : σ} (kept : K s) (good : G s) :
    (∀ n, G (run act (as.take n) s)) ↔ Along act ok as s := by
  induction as generalizing s with
  | nil => simp [Along, good]
  | cons a as ih =>
    constructor
    · intro reached
      have next : G (act a s) := reached 1
      exact ⟨(step a s kept good).mp next,
        (ih (keep a s kept) next).mp fun n => reached (n+1)⟩
    · rintro ⟨first, rest⟩ n
      have next : G (act a s) := (step a s kept good).mpr first
      cases n with
      | zero => exact good
      | succ n => exact (ih (keep a s kept) next).mpr rest n

variable {β : Type*}

variable (act) in
def trace (emit : α → σ → List β) : List α → σ → List β
  | [], _ => []
  | a :: as, s => emit a s ++ trace emit as (act a s)

theorem trace_append (emit : α → σ → List β) (as bs : List α) (s : σ) :
    trace act emit (as ++ bs) s = trace act emit as s ++ trace act emit bs (run act as s) := by
  induction as generalizing s with
  | nil => rfl
  | cons a as ih => simp [trace, ih, run_cons]

theorem trace_concat (emit : α → σ → List β) (as : List α) (a : α) (s : σ) :
    trace act emit (as ++ [a]) s = trace act emit as s ++ emit a (run act as s) := by
  rw [trace_append]
  simp [trace]

theorem forall_mem_trace {emit : α → σ → List β} {P : β → Prop} {as : List α}
    (each : ∀ a ∈ as, ∀ s, ∀ b ∈ emit a s, P b) (s : σ) : ∀ b ∈ trace act emit as s, P b := by
  induction as generalizing s with
  | nil => exact fun b mem => absurd mem List.not_mem_nil
  | cons a as ih =>
    rw [List.forall_mem_cons] at each
    intro b mem
    rcases List.mem_append.mp mem with here | later
    · exact each.1 s b here
    · exact ih each.2 (act a s) b later

/-- A property of what a run has emitted and of the state it has reached. -/
theorem trace_emits {emit : α → σ → List β} {P : List β → σ → Prop} {as : List α}
    (step : ∀ a ∈ as, ∀ out s, P out s → P (out ++ emit a s) (act a s)) {out : List β} {s : σ}
    (start : P out s) : P (out ++ trace act emit as s) (run act as s) := by
  induction as generalizing out s with
  | nil => simpa [trace] using start
  | cons a as ih =>
    have next := step a List.mem_cons_self out s start
    rw [trace, run_cons, ← List.append_assoc]
    exact ih (fun b mem => step b (List.mem_cons_of_mem a mem)) next

end Runs
