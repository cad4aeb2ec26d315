import N64Emu.CacheTransparency
import N64Emu.DebugSession

/-!
# Replaying a session

The debugger only decides whether a step happens: the emulator of a session is
the one that made the same steps without it, and while the RSP is halted the
steps are those of one undivided call.
-/

set_option autoImplicit false

namespace N64

open Words Cpu

namespace Emulator

/-- One call of `step_cpu_rsp` for a single step, without debugger and block cache. -/
def single (fp : HostFpu) (e : Emulator) : Emulator :=
  let e' := ({ e with machine := e.machine.uncached }.stepCpuRsp fp 1).2
  { e' with machine.enabled := e.machine.enabled }

section Uncached

variable (fp : HostFpu) {m : Machine}

theorem stepCpu_uncached {n : ℕ} (nonzero : n ≠ 0) (fits : n < 2 ^ 64) (off : m.enabled = false)
    (running : m.sys.cpu.halted = false) :
    stepCpu fp (BitVec.ofNat 64 n) m = (BitVec.ofNat 64 n, stepped fp n m) := by
  have count : (BitVec.ofNat 64 n).toNat = n := Nat.mod_eq_of_lt fits
  have ran : Cpu.run fp n m = (n, stepped fp n m) :=
    runLoop_uncached fp n n 0 (by omega) (by omega) off running
  rw [stepCpu, count, ran]
  exact if_neg nonzero

end Uncached

section Single

variable (fp : HostFpu) (e : Emulator)

theorem single_eq :
    e.single fp = e.advanceRsp 1 (e.machine.perform (Cpu.step fp)) := by
  have one : stepCpu fp 1 e.machine.uncached = (1, e.machine.uncached.perform (Cpu.step fp)) := by
    cases halted : e.machine.sys.cpu.halted with
    | true =>
      have still : e.machine.uncached.sys.cpu.halted = true := halted
      rw [stepCpu, run_halted fp _ still]
      rfl
    | false =>
      have running : e.machine.uncached.sys.cpu.halted = false := halted
      exact stepCpu_uncached fp (n := 1) (by decide) (by decide) rfl running
  unfold single
  rw [stepCpuRsp_eq fp (by decide), one]
  unfold advanceRsp
  cases h : (e.machine.perform (Cpu.step fp)).sys.rsp.halted with
  | true =>
    have same : (e.machine.uncached.perform (Cpu.step fp)).sys.rsp.halted = true := h
    simp only [same, if_true]
    rfl
  | false =>
    have same : (e.machine.uncached.perform (Cpu.step fp)).sys.rsp.halted = false := h
    simp only [same, Bool.false_eq_true, if_false]
    rfl

theorem singles_eq {n : ℕ}
    (quiet : ∀ i < n, (stepped fp (i + 1) e.machine).sys.rsp.halted = true) :
    (fun e => single fp e)^[n] e =
      { e with
          machine := stepped fp n e.machine
          deviceDebt := e.deviceDebt + BitVec.ofNat 64 n
          cyclesExecuted := e.cyclesExecuted + BitVec.ofNat 64 n } := by
  induction n with
  | zero => simp [stepped]
  | succ n ih =>
    have last : ((stepped fp n e.machine).perform (Cpu.step fp)).sys.rsp.halted = true := by
      have stays := quiet n (Nat.lt_succ_self n)
      rwa [stepped, Function.iterate_succ_apply'] at stays
    have next : stepped fp (n + 1) e.machine = (stepped fp n e.machine).perform (Cpu.step fp) :=
      Function.iterate_succ_apply' _ _ _
    have count : BitVec.ofNat 64 (n + 1) = BitVec.ofNat 64 n + 1 := BitVec.ofNat_add n 1
    rw [Function.iterate_succ_apply', ih fun i below => quiet i (by omega), single_eq]
    unfold advanceRsp
    dsimp only
    rw [if_pos last, next, count, BitVec.add_assoc, BitVec.add_assoc]

end Single

end Emulator

namespace DebugSession

/-- What a session does to the emulator. -/
inductive Call where
  | single
  | free (maxCpuSteps : Cycles)
  | other (f : Emulator → Emulator)

def replay (fp : HostFpu) : Call → Emulator → Emulator
  | .single, e => e.single fp
  | .free maxCpuSteps, e => (e.stepCpuRsp fp maxCpuSteps).2
  | .other f, e => f e

def calls : Act → DebugSession → List Call
  | .step maxCpuSteps, s =>
    if s.debugger.enabled then if s.Steps maxCpuSteps then [.single] else []
    else [.free maxCpuSteps]
  | .emulator f, _ => [.other f]
  | _, _ => []

theorem act_replay (fp : HostFpu) (a : Act) (s : DebugSession) :
    (act fp a s).emulator = Runs.run (replay fp) (calls a s) s.emulator := by
  cases a with
  | step maxCpuSteps =>
    change (s.stepCpuRsp fp maxCpuSteps).2.emulator = _
    simp only [calls]
    cases on_ : s.debugger.enabled with
    | true =>
      rw [if_pos rfl]
      by_cases steps : s.Steps maxCpuSteps
      · rw [if_pos steps, stepCpuRsp_steps fp steps]
        exact (Emulator.single_eq fp s.emulator).symm
      · obtain ⟨f, refused⟩ := stepCpuRsp_refused fp on_ steps
        rw [if_neg steps, refused]
        rfl
    | false =>
      rw [if_neg (by decide)]
      unfold stepCpuRsp
      rw [on_, if_neg (show ¬ (false = true) by decide)]
      by_cases nothing : maxCpuSteps = 0
      · rw [if_pos nothing]
        change s.emulator = (s.emulator.stepCpuRsp fp maxCpuSteps).2
        rw [Emulator.stepCpuRsp, if_pos nothing]
      · rw [if_neg nothing]
        rfl
  | enable on_ => rfl
  | emulator f => rfl
  | pause reason => rfl
  | resume => rfl
  | requestStep count => rfl
  | addBreakpoint pc => rfl
  | removeBreakpoint pc => rfl
  | addWatchpoint paddr onRead onWrite => rfl
  | removeWatchpoint id => rfl
  | clearWatchpoints => rfl
  | setTraceEnabled on_ => rfl
  | setTraceCapacity n => rfl
  | clearTrace => rfl
  | reset => rfl

/-- Breakpoints, watchpoints, pauses and traces never change what the emulator computes: a
session leaves the emulator that the same steps leave without the debugger. While the RSP is
halted its single steps are one call of `step_cpu_rsp` with the block cache off. -/
theorem debugger_transparent (fp : HostFpu) (acts : List Act) (s : DebugSession) :
    (Runs.run (act fp) acts s).emulator =
      Runs.run (replay fp) (Runs.trace (act fp) calls acts s) s.emulator ∧
    ∀ (e : Emulator) (n : ℕ), n ≠ 0 → n < 2 ^ 64 → e.machine.enabled = false →
      e.sys.cpu.halted = false →
      (∀ i < n, (Cpu.stepped fp (i + 1) e.machine).sys.rsp.halted = true) →
      Runs.run (replay fp) (List.replicate n .single) e =
        (e.stepCpuRsp fp (BitVec.ofNat 64 n)).2 := by
  constructor
  · let follows (cs : List Call) (t : DebugSession) : Prop :=
      t.emulator = Runs.run (replay fp) cs s.emulator
    have step : ∀ a ∈ acts, ∀ cs t, follows cs t → follows (cs ++ calls a t) (act fp a t) := by
      intro a _ cs t reached
      change (act fp a t).emulator = _
      rw [act_replay, reached, Runs.run_append]
    exact Runs.trace_emits step (show follows [] s from rfl)
  · intro e n notZero fits off running quiet
    have singles : Runs.run (replay fp) (List.replicate n .single) e =
        (fun e => Emulator.single fp e)^[n] e := by
      clear quiet notZero fits off running
      induction n generalizing e with
      | zero => rfl
      | succ n ih => exact ih _
    have nonzero : BitVec.ofNat 64 n ≠ 0 := by
      intro zero
      have count : (BitVec.ofNat 64 n).toNat = n := Nat.mod_eq_of_lt fits
      rw [zero] at count
      exact notZero count.symm
    have last : (Cpu.stepped fp n e.machine).sys.rsp.halted = true := by
      obtain ⟨i, rfl⟩ := Nat.exists_eq_succ_of_ne_zero notZero
      exact quiet i (Nat.lt_succ_self i)
    rw [singles, Emulator.singles_eq fp e quiet, Emulator.stepCpuRsp_eq fp nonzero,
      Emulator.stepCpu_uncached fp notZero fits off running]
    unfold Emulator.advanceRsp
    dsimp only
    rw [if_pos last]

end DebugSession

end N64
