import N64Emu.DebugTools

/-!
# Sessions with the tools of the debugger

A host drives `step_cpu_rsp` with the debugger enabled or not and changes the
debugger in between. The trace callback is installed exactly while it is
enabled.
-/

set_option autoImplicit false

namespace N64

open Words Cpu

namespace Cpu

section Traced

variable {s : Sys}

/-- What a step does beside the line it traces. -/
inductive Traced (fp : HostFpu) (s : Sys) : List TraceEntry → Prop
  | idle (f : Cpu → Cpu) (stepped : step fp s = s.onCpu f) : Traced fp s []
  | line {p : PhysicalAddress} {insn : U32} {u : Sys} (aligned : s.cpu.pc &&& 3 = 0)
      (translated : s.cpu.translateAddress s.cpu.pc false = .ok p)
      (read : Bus.read32 (s.onCpu markSlot) p = (insn, u))
      (ran : step fp s =
        (finishStep fp u s.cpu.pc s.cpu.branchPending s.cpu.exceptionCount insn).emitAll
          [.load p 4]) :
      Traced fp s
        [{ cycle := s.cpu.cycles, pc := s.cpu.pc, insn := insn, disasm := disassemble insn }]

theorem executedPc_uninterrupted (running : s.cpu.halted = false)
    (quiet : s.cpu.branchPending = true ∨ ¬ s.cpu.Interrupted) :
    executedPc s =
      if (fetch (s.onCpu markSlot) s.cpu.pc).2.cpu.exceptionCount ≠ s.cpu.exceptionCount
      then none else some s.cpu.pc := by
  have entered : (if s.cpu.branchPending then s else s.onCpu checkInterrupts) = s := by
    split_ifs with pending
    · rfl
    · rcases checkInterrupts_cases s.cpu with ⟨same, -⟩ | ⟨-, taken⟩
      · rw [Sys.onCpu, same]
      · exact absurd taken (quiet.resolve_left pending)
  unfold executedPc
  rw [if_neg (by simp [running]), entered]
  exact if_neg (not_not.mpr rfl)

theorem executedPc_interrupted (settled : s.cpu.branchPending = false)
    (pending : s.cpu.Interrupted) : executedPc s = none := by
  have raised : s.onCpu checkInterrupts = s.onCpu (·.raise ExcCode.Int) := by
    rcases checkInterrupts_cases s.cpu with ⟨-, quiet⟩ | ⟨raised, -⟩
    · exact absurd pending quiet
    · simp only [Sys.onCpu, raised]
  have entered : (if s.cpu.branchPending then s else s.onCpu checkInterrupts) =
      s.onCpu (·.raise ExcCode.Int) := by
    rw [if_neg (by simp [settled]), raised]
  have counted : (s.onCpu (·.raise ExcCode.Int)).cpu.exceptionCount ≠ s.cpu.exceptionCount := by
    simp [Sys.onCpu, raise]
  unfold executedPc
  rw [entered]
  split_ifs with halted
  · rfl
  · exact if_pos counted

theorem traceLine_cases (s : Sys) : traceLine s = [] ∨ ∃ e, traceLine s = [e] := by
  unfold traceLine
  split
  · exact Or.inr ⟨_, rfl⟩
  · exact Or.inl rfl

theorem traceLine_none (missed : executedPc s = none) : traceLine s = [] := by
  rw [traceLine, missed]

theorem step_settled (fp : HostFpu) (running : s.cpu.halted = false)
    (quiet : s.cpu.branchPending = true ∨ ¬ s.cpu.Interrupted) : step fp s = stepInsn fp s := by
  rcases quiet with slot | quiet
  · rw [step, if_neg (by simp [running]), if_pos slot]
  · exact step_uninterrupted fp running quiet

theorem traceLine_traced (fp : HostFpu) (s : Sys) : Traced fp s (traceLine s) := by
  by_cases halted : s.cpu.halted = true
  · rw [traceLine_none (by rw [executedPc, if_pos halted])]
    exact .idle _ (by rw [step, if_pos halted])
  have running := Bool.eq_false_iff.mpr halted
  by_cases taken : s.cpu.branchPending = false ∧ s.cpu.Interrupted
  · rw [traceLine_none (executedPc_interrupted taken.1 taken.2)]
    exact .idle _ (step_interrupted fp running taken.1 taken.2)
  have quiet : s.cpu.branchPending = true ∨ ¬ s.cpu.Interrupted := by
    by_cases slot : s.cpu.branchPending = true
    · exact Or.inl slot
    · exact Or.inr fun pending => taken ⟨Bool.eq_false_iff.mpr slot, pending⟩
  have executed := executedPc_uninterrupted running quiet
  have stepped := step_settled fp running quiet
  rcases fetch_cases (s.onCpu markSlot) s.cpu.pc with ⟨code, refill, -, faulted⟩ |
    ⟨p, aligned, translated, fetched⟩
  · rw [faulted, if_pos (by simp [Sys.onCpu, markSlot])] at executed
    rw [traceLine_none executed]
    refine .idle (fun c => (c.markSlot.raiseException code c.pc 0 refill).retire) ?_
    rw [stepped]
    simp only [stepInsn]
    rw [show (s.onCpu fun c => { c with inDelaySlot := s.cpu.branchPending }) =
      s.onCpu markSlot from rfl, faulted]
    rw [if_pos (by simp [Sys.onCpu])]
    rfl
  · cases read : Bus.read32 (s.onCpu markSlot) p with
    | mk insn u =>
      rw [fetched, read, fetched_cpu read, if_neg (by simp [markSlot])] at executed
      have line : traceLine s = [{
          cycle := s.cpu.cycles, pc := s.cpu.pc, insn := insn, disasm := disassemble insn }] := by
        have word : (fetch (s.onCpu markSlot) s.cpu.pc).1 = insn := by rw [fetched, read]
        rw [traceLine, executed, ← word]
        rfl
      rw [line]
      refine .line aligned translated read ?_
      rw [stepped, stepInsn_fetched fp aligned translated read]

end Traced

end Cpu

structure DebugSession where
  emulator : Emulator := {}
  debugger : DebugState := {}

namespace DebugSession

def pc (s : DebugSession) : U64 := s.emulator.sys.cpu.pc

def before (s : DebugSession) : Sys := { s.emulator.sys with log := [] }

/-- The calls a step of the CPU makes: the trace callback, then the hooks of its accesses. -/
def duringStep (s : DebugSession) (after : Sys) (d : DebugState) : DebugState :=
  let d := (traceLine s.before).foldl (fun d e => d.onTrace e) d
  (after.log.flatMap (Bus.hooks s.before.bus.rdramSize)).foldl DebugState.onHook d

/-- `step_cpu_rsp`. A hook of the disabled debugger returns at once, and no trace is attached. -/
def stepCpuRsp (fp : HostFpu) (maxCpuSteps : Cycles) (s : DebugSession) : Cycles × DebugSession :=
  if maxCpuSteps = 0 then (0, s)
  else if s.debugger.enabled then
    let (go, control) := s.debugger.toDebugger.onBeforeStep s.pc
    let d := s.debugger.control fun _ => control
    if !go then (0, { s with debugger := d })
    else
      let after := Cpu.step fp s.before
      (1, { emulator := s.emulator.advanceRsp 1 (s.emulator.machine.commit after)
            debugger := (s.duringStep after d).control Debugger.onAfterStep })
  else
    let (did, e) := s.emulator.stepCpuRsp fp maxCpuSteps
    (did, { s with emulator := e })

/-- `enable_debugger`. -/
def enableDebugger (on_ : Bool) (s : DebugSession) : DebugSession :=
  let d := s.debugger.control (Debugger.setEnabled on_)
  { s with debugger := if on_ then d else d.control Debugger.resume }

/-- The calls of a host; `emulator` is any other use of the emulator, such as the
flushes of the run loops. -/
inductive Act where
  | step (maxCpuSteps : Cycles)
  | emulator (f : Emulator → Emulator)
  | enable (on_ : Bool)
  | pause (reason : DebugStopReason)
  | resume
  | requestStep (count : U32)
  | addBreakpoint (pc : U64)
  | removeBreakpoint (pc : U64)
  | addWatchpoint (paddr : U32) (onRead onWrite : Bool)
  | removeWatchpoint (id : ℤ)
  | clearWatchpoints
  | setTraceEnabled (on_ : Bool)
  | setTraceCapacity (n : ℕ)
  | clearTrace
  | reset

def onDebugger (f : DebugState → DebugState) (s : DebugSession) : DebugSession :=
  { s with debugger := f s.debugger }

def act (fp : HostFpu) : Act → DebugSession → DebugSession
  | .step maxCpuSteps, s => (s.stepCpuRsp fp maxCpuSteps).2
  | .emulator f, s => { s with emulator := f s.emulator }
  | .enable on_, s => s.enableDebugger on_
  | .pause reason, s => s.onDebugger (·.control (·.pause reason))
  | .resume, s => s.onDebugger (·.control Debugger.resume)
  | .requestStep count, s => s.onDebugger (·.control (·.requestStep count))
  | .addBreakpoint pc, s => s.onDebugger (·.control fun d => (d.addBreakpoint pc).2)
  | .removeBreakpoint pc, s => s.onDebugger (·.control fun d => (d.removeBreakpoint pc).2)
  | .addWatchpoint paddr onRead onWrite, s =>
    s.onDebugger fun d => (d.addWatchpoint paddr onRead onWrite).2
  | .removeWatchpoint id, s => s.onDebugger fun d => (d.removeWatchpoint id).2
  | .clearWatchpoints, s => s.onDebugger DebugState.clearWatchpoints
  | .setTraceEnabled on_, s => s.onDebugger (·.setTraceEnabled on_)
  | .setTraceCapacity n, s => s.onDebugger (·.setTraceCapacity n)
  | .clearTrace, s => s.onDebugger DebugState.clearTrace
  | .reset, s => s.onDebugger DebugState.reset

def Steps (maxCpuSteps : Cycles) (s : DebugSession) : Prop :=
  maxCpuSteps ≠ 0 ∧ s.debugger.enabled = true ∧
    (s.debugger.toDebugger.onBeforeStep s.pc).1 = true

instance (maxCpuSteps : Cycles) (s : DebugSession) : Decidable (s.Steps maxCpuSteps) :=
  inferInstanceAs (Decidable (_ ∧ _ ∧ _))

section Step

variable (fp : HostFpu) {maxCpuSteps : Cycles} {s : DebugSession}

def passed (s : DebugSession) : DebugState :=
  s.debugger.control fun d => (d.onBeforeStep s.pc).2

theorem stepCpuRsp_steps (steps : s.Steps maxCpuSteps) :
    s.stepCpuRsp fp maxCpuSteps =
      (1, { emulator := s.emulator.advanceRsp 1
              (s.emulator.machine.commit (Cpu.step fp s.before))
            debugger :=
              (s.duringStep (Cpu.step fp s.before) s.passed).control Debugger.onAfterStep }) := by
  obtain ⟨nonzero, on_, go⟩ := steps
  unfold stepCpuRsp
  rw [if_neg nonzero, if_pos on_]
  dsimp only
  rw [if_neg (by simp [go])]
  rfl

theorem stepCpuRsp_refused (on_ : s.debugger.enabled = true) (refused : ¬ s.Steps maxCpuSteps) :
    ∃ f : Debugger → Debugger,
      s.stepCpuRsp fp maxCpuSteps = (0, s.onDebugger (·.control f)) := by
  unfold stepCpuRsp
  split_ifs with none
  · exact ⟨id, rfl⟩
  · have stop : ¬ (s.debugger.toDebugger.onBeforeStep s.pc).1 = true :=
      fun go => refused ⟨none, on_, go⟩
    refine ⟨fun d => (d.onBeforeStep s.pc).2, ?_⟩
    dsimp only
    rw [if_pos (by simp [stop])]
    rfl

theorem stepCpuRsp_disabled (off : s.debugger.enabled = false) :
    (s.stepCpuRsp fp maxCpuSteps).2.debugger = s.debugger := by
  unfold stepCpuRsp
  split_ifs with none on_
  · rfl
  · rw [off] at on_
    cases on_
  · rfl

end Step

end DebugSession

end N64
