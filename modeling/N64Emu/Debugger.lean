import N64Emu.Emulator
import N64Emu.Runs
import N64Emu.StepEffect

/-!
# The debugger

Breakpoints, pauses and single steps around `step_cpu_rsp`. Breakpoints are held
and compared as 64-bit program counters, while instructions are fetched by their
low 32 bits. The trace ring and the access log are left out; which steps hit a
watchpoint is left open.
-/

set_option autoImplicit false

namespace N64

open Words Cpu

inductive DebugStopReason where
  | None | UserPause | Breakpoint | Watchpoint | StepDone | Exception
  deriving DecidableEq, Repr

structure Debugger where
  enabled : Bool := false
  paused : Bool := false
  stopReason : DebugStopReason := .None
  stepsLeft : U32 := 0
  resumeBreakpointPc : Option U64 := none
  hitCount : U64 := 0
  watchHitCount : U64 := 0
  breakpoints : List U64 := []

namespace Debugger

def kMaxBreakpoints : ℕ := 64

def setEnabled (on_ : Bool) (d : Debugger) : Debugger := { d with enabled := on_ }

def pause (reason : DebugStopReason) (d : Debugger) : Debugger :=
  { d with paused := true, stopReason := reason, stepsLeft := 0 }

def resume (d : Debugger) : Debugger :=
  { d with paused := false, stopReason := .None, stepsLeft := 0 }

def requestStep (count : U32) (d : Debugger) : Debugger :=
  { d with stepsLeft := if count = 0 then 1 else count, paused := false, stopReason := .None }

def hasBreakpoint (pc : U64) (d : Debugger) : Bool := pc ∈ d.breakpoints

def blocked (d : Debugger) : Bool := d.paused && d.stepsLeft = 0

def onBeforeStep (pc : U64) (d : Debugger) : Bool × Debugger :=
  if !d.enabled then (true, d)
  else if d.blocked then (false, d)
  else
    let skip : Bool := d.resumeBreakpointPc = some pc
    let d := { d with resumeBreakpointPc := none }
    if skip then (true, d)
    else if !d.breakpoints.isEmpty && d.hasBreakpoint pc then
      (false, { d with hitCount := d.hitCount + 1, resumeBreakpointPc := some pc }.pause
        .Breakpoint)
    else (true, d)

def onAfterStep (d : Debugger) : Debugger :=
  if !d.enabled then d
  else if 0 < d.stepsLeft then
    let d := { d with stepsLeft := d.stepsLeft - 1 }
    if d.stepsLeft = 0 then d.pause .StepDone else d
  else d

/-- What `on_bus_read` and `on_bus_write` do when a watchpoint overlaps. -/
def onWatchpoint (d : Debugger) : Debugger :=
  { d with watchHitCount := d.watchHitCount + 1 }.pause .Watchpoint

def addBreakpoint (pc : U64) (d : Debugger) : Bool × Debugger :=
  if kMaxBreakpoints ≤ d.breakpoints.length then (false, d)
  else (true, { d with breakpoints := d.breakpoints.insert pc })

def removeBreakpoint (pc : U64) (d : Debugger) : Bool × Debugger :=
  (d.hasBreakpoint pc, { d with breakpoints := d.breakpoints.filter (· ≠ pc) })

section Spec

variable (d : Debugger)

@[simp]
theorem onAfterStep_token : d.onAfterStep.resumeBreakpointPc = d.resumeBreakpointPc := by
  unfold onAfterStep
  split_ifs
  · rfl
  · dsimp only
    split_ifs
    · rfl
    · rfl
  · rfl

@[simp]
theorem onWatchpoint_token : d.onWatchpoint.resumeBreakpointPc = d.resumeBreakpointPc := rfl

@[simp]
theorem addBreakpoint_token (pc : U64) :
    (d.addBreakpoint pc).2.resumeBreakpointPc = d.resumeBreakpointPc := by
  unfold addBreakpoint
  split_ifs
  · rfl
  · rfl

/-- What the test before a step can do. -/
inductive BeforeStep (d : Debugger) (pc : U64) : Bool × Debugger → Prop
  | blocked : d.blocked = true → BeforeStep d pc (false, d)
  | passed : d.blocked = false → d.resumeBreakpointPc = some pc →
      BeforeStep d pc (true, { d with resumeBreakpointPc := none })
  | stopped : d.blocked = false → d.resumeBreakpointPc ≠ some pc → pc ∈ d.breakpoints →
      BeforeStep d pc (false, { d with
        hitCount := d.hitCount + 1, resumeBreakpointPc := some pc }.pause .Breakpoint)
  | free : d.blocked = false → d.resumeBreakpointPc ≠ some pc → pc ∉ d.breakpoints →
      BeforeStep d pc (true, { d with resumeBreakpointPc := none })

variable {d}

theorem onBeforeStep_cases (on_ : d.enabled = true) (pc : U64) :
    BeforeStep d pc (d.onBeforeStep pc) := by
  unfold onBeforeStep
  rw [if_neg (by simp [on_])]
  by_cases blocked : d.blocked = true
  · rw [if_pos blocked]
    exact .blocked blocked
  have open_ := Bool.eq_false_iff.mpr blocked
  rw [if_neg blocked]
  by_cases skip : d.resumeBreakpointPc = some pc
  · rw [if_pos (decide_eq_true skip)]
    exact .passed open_ skip
  rw [if_neg (by simpa using skip)]
  by_cases held : pc ∈ d.breakpoints
  · have nonempty : d.breakpoints.isEmpty = false := by
      rw [List.isEmpty_eq_false_iff]
      exact List.ne_nil_of_mem held
    rw [if_pos (by simp [hasBreakpoint, nonempty, held])]
    exact .stopped open_ skip held
  · rw [if_neg (by simp [hasBreakpoint, held])]
    exact .free open_ skip held

end Spec

end Debugger

namespace Cpu

/-- Where a step executes an instruction, if it does: it may take an interrupt or
    fail to fetch instead. -/
def executedPc (s : Sys) : Option U64 :=
  if s.cpu.halted then none
  else
    let t := if s.cpu.branchPending then s else s.onCpu checkInterrupts
    if t.cpu.exceptionCount ≠ s.cpu.exceptionCount then none
    else
      let u := (fetch (t.onCpu fun c => { c with inDelaySlot := t.cpu.branchPending }) t.cpu.pc).2
      if u.cpu.exceptionCount ≠ t.cpu.exceptionCount then none else some t.cpu.pc

theorem executedPc_pc {s : Sys} {p : U64} (executed : executedPc s = some p) : p = s.cpu.pc := by
  have entered : (if s.cpu.branchPending then s else s.onCpu checkInterrupts) = s ∨
      (if s.cpu.branchPending then s else s.onCpu checkInterrupts).cpu.exceptionCount ≠
        s.cpu.exceptionCount := by
    split_ifs
    · exact Or.inl rfl
    · rcases checkInterrupts_cases s.cpu with ⟨same, _⟩ | ⟨raised, _⟩
      · exact Or.inl (by simp only [Sys.onCpu, same])
      · exact Or.inr (by simp [Sys.onCpu, raised, raise])
  unfold executedPc at executed
  dsimp only at executed
  rcases entered with same | raised
  · rw [same] at executed
    split_ifs at executed
    cases executed
    rfl
  · rw [if_pos raised, ite_self] at executed
    cases executed

end Cpu

namespace Emulator

/-- What `step_cpu_rsp` does once the CPU has taken its steps. -/
def advanceRsp (cpuSteps : Cycles) (m : Machine) (e : Emulator) : Emulator :=
  let rspSteps : U32 := (cpuSteps * e.timing.rspStepsPerCpu.setWidth 64).setWidth 32
  { e with
    machine := if m.sys.rsp.halted then m else m.perform (Rsp.run rspSteps.toNat)
    deviceDebt := e.deviceDebt + cpuSteps
    cyclesExecuted := e.cyclesExecuted + cpuSteps }

theorem stepCpuRsp_eq (fp : HostFpu) {maxCpuSteps : Cycles} (nonzero : maxCpuSteps ≠ 0)
    (e : Emulator) : e.stepCpuRsp fp maxCpuSteps =
      ((stepCpu fp maxCpuSteps e.machine).1,
        e.advanceRsp (stepCpu fp maxCpuSteps e.machine).1
          (stepCpu fp maxCpuSteps e.machine).2) := by
  rw [stepCpuRsp, if_neg nonzero]
  rfl

end Emulator

/-- What a call of `step_cpu_rsp` came to. `marked` tells that a breakpoint stood for
    the 32-bit address of the instruction. -/
inductive Report where
  | stopped (pc : U64)
  | executed (pc : U64) (marked : Bool)
  | idled
  | ranFree
  deriving DecidableEq, Repr

/-- An emulator with its debugger, and the reports so far, the last one first. -/
structure Session where
  emulator : Emulator := {}
  debugger : Debugger := {}
  history : List Report := []

namespace Session

def pc (s : Session) : U64 := s.emulator.sys.cpu.pc

def marked (s : Session) : Bool :=
  s.debugger.breakpoints.any fun b => b.setWidth 32 = (s.pc.setWidth 32 : U32)

def stepReport (s : Session) : Report :=
  match executedPc { s.emulator.sys with log := [] } with
  | some pc => .executed pc s.marked
  | none => .idled

/-- `step_cpu_rsp` with either setting of the debugger; `watch` tells whether the step
    meets a watchpoint. -/
def stepCpuRsp (fp : HostFpu) (maxCpuSteps : Cycles) (watch : Bool) (s : Session) :
    Cycles × Session :=
  if maxCpuSteps = 0 then (0, s)
  else if s.debugger.enabled then
    let (go, d) := s.debugger.onBeforeStep s.pc
    if !go then
      let reports := if s.debugger.blocked then [] else [.stopped s.pc]
      (0, { s with debugger := d, history := reports ++ s.history })
    else
      let m := s.emulator.machine.perform (Cpu.step fp)
      let d := if watch then d.onWatchpoint else d
      (1, { emulator := s.emulator.advanceRsp 1 m
            debugger := d.onAfterStep
            history := s.stepReport :: s.history })
  else
    let (did, e) := s.emulator.stepCpuRsp fp maxCpuSteps
    (did, { s with emulator := e, history := .ranFree :: s.history })

/-- `enable_debugger`. -/
def enableDebugger (on_ : Bool) (s : Session) : Session :=
  let d := s.debugger.setEnabled on_
  { s with debugger := if on_ then d else d.resume }

inductive Act where
  | pause (reason : DebugStopReason)
  | resume
  | requestStep (count : U32)
  | enable (on_ : Bool)
  | addBreakpoint (pc : U64)
  | removeBreakpoint (pc : U64)
  | step (maxCpuSteps : Cycles) (watch : Bool)

def onDebugger (f : Debugger → Debugger) (s : Session) : Session :=
  { s with debugger := f s.debugger }

def act (fp : HostFpu) : Act → Session → Session
  | .pause reason, s => s.onDebugger (·.pause reason)
  | .resume, s => s.onDebugger (·.resume)
  | .requestStep count, s => s.onDebugger (·.requestStep count)
  | .enable on_, s => s.enableDebugger on_
  | .addBreakpoint pc, s => s.onDebugger fun d => (d.addBreakpoint pc).2
  | .removeBreakpoint pc, s => s.onDebugger fun d => (d.removeBreakpoint pc).2
  | .step maxCpuSteps watch, s => (s.stepCpuRsp fp maxCpuSteps watch).2

/-- Each instruction at a breakpoint comes right after a stop at its address. -/
def NoneMissed : List Report → Prop
  | [] => True
  | .executed pc true :: rest =>
    (∃ q : U64, rest.head? = some (.stopped q) ∧ q.setWidth 32 = (pc.setWidth 32 : U32)) ∧
      NoneMissed rest
  | _ :: rest => NoneMissed rest

/-- The condition on a step. An instruction at a breakpoint is met with a program counter
    that is itself in the set or that of the last stop, and nothing ran with the debugger
    disabled since that stop. -/
def Told : Act → Session → Prop
  | .step maxCpuSteps _, s =>
    maxCpuSteps ≠ 0 → s.debugger.enabled = true → s.debugger.blocked = false →
    s.stepReport = .executed s.pc true →
      (s.pc ∈ s.debugger.breakpoints ∨ s.debugger.resumeBreakpointPc = some s.pc) ∧
      (s.debugger.resumeBreakpointPc = some s.pc → s.history.head? ≠ some .ranFree)
  | _, _ => True

section Steps

variable (fp : HostFpu) {s : Session}

theorem stepReport_cases (s : Session) :
    s.stepReport = .idled ∨ s.stepReport = .executed s.pc s.marked := by
  unfold stepReport
  cases executed : executedPc { s.emulator.sys with log := [] } with
  | none => exact Or.inl rfl
  | some p =>
    rw [executedPc_pc executed]
    exact Or.inr rfl

/-- What a call of `step_cpu_rsp` can do to the debugger and to the reports. -/
inductive Stepped (s t : Session) : Prop
  | kept : s.debugger.enabled = true → s.debugger.blocked = true → t = s → Stepped s t
  | ranFree : s.debugger.enabled = false → t.debugger = s.debugger →
      t.history = .ranFree :: s.history → Stepped s t
  | stopped : s.debugger.enabled = true → s.debugger.blocked = false →
      s.debugger.resumeBreakpointPc ≠ some s.pc → s.pc ∈ s.debugger.breakpoints →
      t.emulator = s.emulator → t.debugger.resumeBreakpointPc = some s.pc →
      t.history = .stopped s.pc :: s.history → Stepped s t
  | ran : s.debugger.enabled = true → s.debugger.blocked = false →
      (s.debugger.resumeBreakpointPc = some s.pc ∨
        s.debugger.resumeBreakpointPc ≠ some s.pc ∧ s.pc ∉ s.debugger.breakpoints) →
      t.debugger.resumeBreakpointPc = none → t.history = s.stepReport :: s.history → Stepped s t

theorem stepCpuRsp_cases {maxCpuSteps : Cycles} (some_ : maxCpuSteps ≠ 0) (watch : Bool)
    (s : Session) : Stepped s (s.stepCpuRsp fp maxCpuSteps watch).2 := by
  unfold stepCpuRsp
  rw [if_neg some_]
  cases on_ : s.debugger.enabled with
  | false => exact .ranFree on_ rfl rfl
  | true =>
    have before := Debugger.onBeforeStep_cases on_ s.pc
    rw [if_pos rfl]
    generalize s.debugger.onBeforeStep s.pc = result at before
    cases before with
    | blocked blocked =>
      refine .kept on_ blocked ?_
      simp [blocked]
    | passed going token =>
      refine .ran on_ going (Or.inl token) ?_ rfl
      cases watch
      · simp
      · simp
    | stopped going token held =>
      refine .stopped on_ going token held rfl rfl ?_
      simp [going]
    | free going token unheld =>
      refine .ran on_ going (Or.inr ⟨token, unheld⟩) ?_ rfl
      cases watch
      · simp
      · simp

/-- A pending token is that of the last stop, with at most free running after it. -/
structure Kept (s : Session) : Prop where
  pending : ∀ q, s.debugger.resumeBreakpointPc = some q →
    s.history.head? = some (.stopped q) ∨ s.history.head? = some .ranFree
  atStop : ∀ q, s.history.head? = some (.stopped q) →
    s.debugger.resumeBreakpointPc = some q ∧ s.pc = q

theorem Kept.stepped {t : Session} (h : Kept s) (moved : Stepped s t) : Kept t := by
  cases moved with
  | kept _ _ same =>
    rw [same]
    exact h
  | ranFree _ debugger history =>
    refine ⟨fun q _ => Or.inr ?_, fun q last => ?_⟩
    · rw [history]
      rfl
    · rw [history] at last
      cases last
  | stopped _ _ _ _ emulator token history =>
    refine ⟨fun q pending => Or.inl ?_, fun q last => ?_⟩
    · rw [token] at pending
      cases pending
      rw [history]
      rfl
    · rw [history] at last
      cases last
      exact ⟨token, congrArg (fun e : Emulator => e.sys.cpu.pc) emulator⟩
  | ran _ _ _ token history =>
    refine ⟨fun q pending => ?_, fun q last => ?_⟩
    · rw [token] at pending
      cases pending
    · rw [history] at last
      rcases stepReport_cases s with idled | executed
      · rw [idled] at last
        cases last
      · rw [executed] at last
        cases last

theorem Kept.onDebugger {f : Debugger → Debugger} (h : Kept s)
    (token : (f s.debugger).resumeBreakpointPc = s.debugger.resumeBreakpointPc) :
    Kept (s.onDebugger f) where
  pending q pending := h.pending q (token ▸ pending)
  atStop q last := ⟨token.trans (h.atStop q last).1, (h.atStop q last).2⟩

theorem Kept.act {a : Act} (h : Kept s) : Kept (act fp a s) := by
  cases a with
  | pause reason => exact h.onDebugger rfl
  | resume => exact h.onDebugger rfl
  | requestStep count => exact h.onDebugger rfl
  | enable on_ =>
    cases on_ with
    | false => exact h.onDebugger (f := fun d => (d.setEnabled false).resume) rfl
    | true => exact h.onDebugger (f := Debugger.setEnabled true) rfl
  | addBreakpoint pc =>
    exact h.onDebugger (f := fun d => (d.addBreakpoint pc).2) (s.debugger.addBreakpoint_token pc)
  | removeBreakpoint pc => exact h.onDebugger (f := fun d => (d.removeBreakpoint pc).2) rfl
  | step maxCpuSteps watch =>
    by_cases nothing : maxCpuSteps = 0
    · rw [nothing]
      exact h
    · exact h.stepped (stepCpuRsp_cases fp nothing watch s)

/-- A report keeps the history good unless it is an instruction met without a stop. -/
theorem noneMissed_stepReport (good : NoneMissed s.history) :
    NoneMissed (s.stepReport :: s.history) ↔ (s.stepReport = .executed s.pc true →
      ∃ q : U64, s.history.head? = some (.stopped q) ∧
        q.setWidth 32 = (s.pc.setWidth 32 : U32)) := by
  rcases stepReport_cases s with idled | executed
  · rw [idled]
    exact iff_of_true good fun marked => by cases marked
  · rw [executed]
    cases s.marked with
    | false => exact iff_of_true good fun marked => by cases marked
    | true =>
      constructor
      · intro h _
        exact h.1
      · intro h
        exact ⟨h rfl, good⟩

theorem step_told_iff {maxCpuSteps : Cycles} (some_ : maxCpuSteps ≠ 0) (watch : Bool) (h : Kept s)
    (good : NoneMissed s.history) {t : Session} (moved : Stepped s t) :
    NoneMissed t.history ↔ Told (.step maxCpuSteps watch) s := by
  cases moved with
  | kept _ blocked same =>
    rw [same]
    refine iff_of_true good fun _ _ going => ?_
    rw [blocked] at going
    cases going
  | ranFree off _ history =>
    rw [history]
    refine iff_of_true good fun _ on_ => ?_
    rw [off] at on_
    cases on_
  | stopped _ _ token held _ _ history =>
    rw [history]
    exact iff_of_true good fun _ _ _ _ => ⟨Or.inl held, fun same => absurd same token⟩
  | ran on_ going why _ history =>
    rw [history, noneMissed_stepReport good]
    constructor
    · intro met _ _ _ executed
      obtain ⟨q, last, _⟩ := met executed
      obtain ⟨token, same⟩ := h.atStop q last
      rw [same, last]
      exact ⟨Or.inr token, fun _ free => by cases free⟩
    · intro told executed
      obtain ⟨known, fresh⟩ := told some_ on_ going executed
      have token : s.debugger.resumeBreakpointPc = some s.pc := by
        rcases why with token | ⟨_, unheld⟩
        · exact token
        · rcases known with held | token
          · exact absurd held unheld
          · exact token
      rcases h.pending s.pc token with last | free
      · exact ⟨s.pc, last, rfl⟩
      · exact absurd free (fresh token)

theorem act_told_iff (a : Act) (h : Kept s) (good : NoneMissed s.history) :
    NoneMissed (act fp a s).history ↔ Told a s := by
  cases a with
  | step maxCpuSteps watch =>
    by_cases nothing : maxCpuSteps = 0
    · rw [nothing]
      exact iff_of_true good fun some_ => absurd rfl some_
    · exact step_told_iff nothing watch h good (stepCpuRsp_cases fp nothing watch s)
  | enable on_ =>
    cases on_ with
    | false => exact iff_of_true good trivial
    | true => exact iff_of_true good trivial
  | _ => exact iff_of_true good trivial

end Steps

/-- In a run no breakpoint is missed exactly when each step meets its breakpoint under the
    program counter it was set at, and no stop is left behind by running disabled. -/
theorem no_breakpoint_missed_iff (fp : HostFpu) (e : Emulator) (acts : List Act) :
    (∀ n, NoneMissed (Runs.run (act fp) (acts.take n) { emulator := e }).history) ↔
      Runs.Along (act fp) Told acts { emulator := e } := by
  refine Runs.reached_iff_along (K := Kept) (G := fun s => NoneMissed s.history)
    (fun a s h => h.act fp) (fun a s h good => act_told_iff fp a h good) acts ?_ trivial
  exact ⟨fun q pending => (by cases pending), fun q last => (by cases last)⟩

/-- `jr t0` at 0x80000400, to the next instruction but one. -/
def jumping : Emulator :=
  { machine.sys := {
      cpu := { pc := 0x80000400, gpr := Function.update (fun _ => 0) 8 0xFFFFFFFF80000408 }
      bus := { rdram := fun i => if i = 0x400 then 0x01 else if i = 0x403 then 0x08 else 0 } } }

def looping : Emulator :=
  { machine.sys := {
      cpu := { pc := 0x80000400 }
      bus := { rdram := fun i =>
        if i = 0x400 then 0x10 else if i = 0x402 ∨ i = 0x403 then 0xFF else 0 } } }

/-- The register a jump takes its target from is sign-extended, the breakpoint is not; and
    a stop left behind by running disabled passes the breakpoint once more. -/
theorem breakpoint_missed :
    ¬NoneMissed (Runs.run (act default)
      [.addBreakpoint 0x80000408, .enable true, .step 1 false, .step 1 false, .step 1 false]
      { emulator := jumping }).history ∧
    ¬NoneMissed (Runs.run (act default)
      [.addBreakpoint 0x80000400, .enable true, .step 1 false, .enable false, .step 2 false,
        .enable true, .step 1 false] { emulator := looping }).history := by
  have jumped : (Runs.run (act default)
      [.addBreakpoint 0x80000408, .enable true, .step 1 false, .step 1 false, .step 1 false]
      { emulator := jumping }).history =
      [.executed 0xFFFFFFFF80000408 true, .executed 0x80000404 false,
        .executed 0x80000400 false] := by
    decide +kernel
  have looped : (Runs.run (act default)
      [.addBreakpoint 0x80000400, .enable true, .step 1 false, .enable false, .step 2 false,
        .enable true, .step 1 false] { emulator := looping }).history =
      [.executed 0x80000400 true, .ranFree, .stopped 0x80000400] := by
    decide +kernel
  rw [jumped, looped]
  constructor
  · rintro ⟨⟨q, last, _⟩, _⟩
    cases last
  · rintro ⟨⟨q, last, _⟩, _⟩
    cases last

end Session

end N64
