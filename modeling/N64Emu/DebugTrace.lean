import N64Emu.DebugSession

/-!
# The instruction trace

The ring of the debugger against the instructions that executed: it holds the
latest of them, as many as every capacity met since then allowed.
-/

set_option autoImplicit false

namespace N64

open Words Cpu

namespace DebugState

def ring (d : DebugState) : BoundedLog.Log TraceEntry := ⟨d.trace, d.traceCapacity⟩

/-- The capacity `set_trace_capacity` comes to. -/
def clampCapacity (n : ℕ) : ℕ :=
  let n := if n < 16 then 16 else n
  if 1000000 < n then 1000000 else n

theorem clampCapacity_bounds (n : ℕ) : 16 ≤ clampCapacity n ∧ clampCapacity n ≤ 1000000 := by
  unfold clampCapacity
  dsimp only
  split_ifs <;> omega

section Ring

variable (d : DebugState)

@[simp]
theorem ring_control (f : Debugger → Debugger) : (d.control f).ring = d.ring := rfl

@[simp]
theorem traceEnabled_control (f : Debugger → Debugger) :
    (d.control f).traceEnabled = d.traceEnabled := rfl

theorem ring_onTrace (e : TraceEntry) : (d.onTrace e).ring =
    if d.traceEnabled then BoundedLog.act (.push e) d.ring else d.ring := by
  unfold onTrace
  cases on_ : d.traceEnabled with
  | true => rfl
  | false => rfl

theorem ring_onHook (h : Bus.Hook) : (d.onHook h).ring = d.ring := by
  rw [onHook_eq]
  split_ifs <;> rfl

theorem ring_hooks (hooks : List Bus.Hook) : (hooks.foldl onHook d).ring = d.ring := by
  induction hooks generalizing d with
  | nil => rfl
  | cons h hooks ih => rw [List.foldl_cons, ih, ring_onHook]

theorem ring_addWatchpoint (paddr : U32) (onRead onWrite : Bool) :
    (d.addWatchpoint paddr onRead onWrite).2.ring = d.ring := by
  unfold addWatchpoint
  split_ifs <;> rfl

theorem recentTrace_eq (n : ℕ) : d.recentTrace n =
    d.trace.drop (d.trace.length - min n d.trace.length) := by
  unfold recentTrace
  split_ifs with nothing
  · rw [Bool.or_eq_true, List.isEmpty_iff, decide_eq_true_eq] at nothing
    rcases nothing with empty | zero
    · rw [empty, List.drop_nil]
    · rw [zero, Nat.zero_min, Nat.sub_zero, List.drop_length]
  · rfl

end Ring

end DebugState

namespace DebugSession

open DebugState

def ringOps : Act → DebugSession → List (BoundedLog.Op TraceEntry)
  | .step maxCpuSteps, s =>
    if s.Steps maxCpuSteps ∧ s.debugger.traceEnabled then (traceLine s.before).map .push else []
  | .setTraceCapacity n, _ => [.resize (clampCapacity n)]
  | .clearTrace, _ => [.clear]
  | .reset, _ => [.clear]
  | _, _ => []

section Ring

variable (fp : HostFpu) {s : DebugSession}

theorem ring_duringStep (after : Sys) (d : DebugState) : (s.duringStep after d).ring =
    Runs.run BoundedLog.act (if d.traceEnabled then (traceLine s.before).map .push else [])
      d.ring := by
  unfold duringStep
  rw [ring_hooks]
  rcases traceLine_cases s.before with nothing | ⟨e, line⟩
  · rw [nothing, List.map_nil, ite_self]
    rfl
  · rw [line, List.foldl_cons, List.foldl_nil, ring_onTrace]
    split_ifs <;> rfl

theorem act_ring (a : Act) (s : DebugSession) :
    (act fp a s).debugger.ring = Runs.run BoundedLog.act (ringOps a s) s.debugger.ring := by
  cases a with
  | step maxCpuSteps =>
    change (s.stepCpuRsp fp maxCpuSteps).2.debugger.ring = _
    by_cases on_ : s.debugger.enabled = true
    · by_cases steps : s.Steps maxCpuSteps
      · rw [stepCpuRsp_steps fp steps, ring_control, ring_duringStep]
        simp only [ringOps, steps, true_and]
        rfl
      · obtain ⟨f, same⟩ := stepCpuRsp_refused fp on_ steps
        rw [same]
        simp only [ringOps, steps, false_and, if_false]
        rfl
    · have steps : ¬ s.Steps maxCpuSteps := fun steps => on_ steps.2.1
      rw [stepCpuRsp_disabled fp (Bool.eq_false_iff.mpr on_)]
      simp only [ringOps, steps, false_and, if_false]
      rfl
  | enable on_ => cases on_ <;> rfl
  | addWatchpoint paddr onRead onWrite => exact ring_addWatchpoint s.debugger paddr onRead onWrite
  | emulator f => rfl
  | pause reason => rfl
  | resume => rfl
  | requestStep count => rfl
  | addBreakpoint pc => rfl
  | removeBreakpoint pc => rfl
  | removeWatchpoint id => rfl
  | clearWatchpoints => rfl
  | setTraceEnabled on_ => rfl
  | setTraceCapacity n => rfl
  | clearTrace => rfl
  | reset => rfl

theorem run_ring (acts : List Act) (s : DebugSession) :
    (Runs.run (act fp) acts s).debugger.ring =
      Runs.run BoundedLog.act (Runs.trace (act fp) ringOps acts s) s.debugger.ring := by
  let follows (ops : List (BoundedLog.Op TraceEntry)) (t : DebugSession) : Prop :=
    t.debugger.ring = Runs.run BoundedLog.act ops s.debugger.ring
  have step : ∀ a ∈ acts, ∀ ops t, follows ops t → follows (ops ++ ringOps a t) (act fp a t) := by
    intro a _ ops t reached
    change (act fp a t).debugger.ring = _
    rw [act_ring, reached, Runs.run_append]
  exact Runs.trace_emits step (show follows [] s from rfl)

theorem ringOps_positive (a : Act) (s : DebugSession) :
    ∀ op ∈ ringOps a s, BoundedLog.Positive op := by
  intro op mem
  cases op with
  | push e => trivial
  | clear => trivial
  | resize n =>
    unfold ringOps at mem
    split at mem
    · split_ifs at mem
      · simp at mem
      · simp at mem
    · cases List.mem_singleton.mp mem
      exact Nat.lt_of_lt_of_le (by decide) (clampCapacity_bounds _).1
    · simp at mem
    · simp at mem
    · simp at mem

theorem ringOps_constant {a : Act} (constant : ∀ n, a ≠ .setTraceCapacity n) (s : DebugSession) :
    ∀ op ∈ ringOps a s, ∀ n, op ≠ .resize n := by
  rintro op mem n rfl
  unfold ringOps at mem
  split at mem
  · split_ifs at mem
    · simp at mem
    · simp at mem
  · exact constant _ rfl
  · simp at mem
  · simp at mem
  · simp at mem

end Ring

/-- The trace shows the latest of the instructions that were executed with it
on since it was cleared, as many as the capacities set since then allow. -/
theorem recentTrace_exact (fp : HostFpu) (acts : List Act) (e : Emulator) :
    let s := Runs.run (act fp) acts { emulator := e }
    let h := Runs.run BoundedLog.record (Runs.trace (act fp) ringOps acts { emulator := e })
      { capacity := 4096 }
    s.debugger.trace.length ≤ s.debugger.traceCapacity ∧
    (∀ n, s.debugger.recentTrace n =
      h.all.drop (h.all.length - min n (h.all.length - h.lost))) ∧
    ((∀ n, .setTraceCapacity n ∉ acts) → h.lost = h.all.length - 4096) ∧
    ∀ t : DebugSession, Traced fp t.before (traceLine t.before) := by
  intro s h
  have start : BoundedLog.Follows { capacity := 4096 } ({} : DebugState).ring :=
    ⟨rfl, rfl, Nat.le_refl 0, Nat.zero_le _, by decide⟩
  have positive : ∀ op ∈ Runs.trace (act fp) ringOps acts { emulator := e },
      BoundedLog.Positive op :=
    Runs.forall_mem_trace (fun a _ => ringOps_positive a) _
  have follows : BoundedLog.Follows h s.debugger.ring := by
    rw [run_ring]
    exact start.run positive
  refine ⟨?_, fun n => ?_, fun constant => ?_, fun t => traceLine_traced fp t.before⟩
  · have fits := follows.fits
    rw [← follows.length, ← follows.capacity] at fits
    exact fits
  · rw [recentTrace_eq]
    exact follows.latest n
  · refine BoundedLog.lost_of_constant ?_ (Nat.zero_sub _).symm
    refine Runs.forall_mem_trace (fun a mem t => ringOps_constant ?_ t) { emulator := e }
    rintro n rfl
    exact constant n mem

end DebugSession

end N64
