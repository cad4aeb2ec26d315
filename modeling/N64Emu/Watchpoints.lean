import N64Emu.DebugSession

/-!
# Watchpoints

The step of the CPU that reads or writes a watched byte is the last one until
the debugger is told to go on.
-/

set_option autoImplicit false

namespace N64

open Words Cpu

namespace Bus

/-- The hook call of an access of the CPU itself, before those of the narrower
accesses it may be made of. -/
def access : Event → List Hook
  | .load p n => [⟨false, physical p, BitVec.ofNat 32 n⟩]
  | .store p n => [⟨true, physical p, BitVec.ofNat 32 n⟩]
  | _ => []

def Hook.Within (h outer : Hook) : Prop :=
  h.write = outer.write ∧ ∃ addr : U32, ∃ k : ℕ, k + max 1 h.size.toNat ≤ outer.size.toNat ∧
    h.paddr = physical (addr + BitVec.ofNat 32 k) ∧ outer.paddr = physical addr

end Bus

namespace DebugState

open Bus

theorem overlaps_iff (p size address : U32) : overlaps p size address = true ↔
    ∃ i < max 1 size.toNat, phys29 (p + BitVec.ofNat 32 i) = phys29 address := by
  simp [overlaps, List.any_eq_true]

end DebugState

namespace Bus

section Within

variable {write : Bool} {addr : U32} {size total : U32} {rdramSize : ℕ}

end Within

end Bus

namespace DebugState

open Bus

section Hooks

variable (d : DebugState)

end Hooks

end DebugState

namespace DebugSession

open Bus

def Quiet : Act → Prop
  | .resume => False
  | .requestStep _ => False
  | .enable on_ => on_ = true
  | .reset => False
  | _ => True

def isStep : Act → Bool
  | .step _ => true
  | _ => false

def Held (s : DebugSession) : Prop :=
  s.debugger.enabled = true ∧ s.debugger.toDebugger.blocked = true

section Steps

variable (fp : HostFpu) {s : DebugSession} {maxCpuSteps : Cycles}

theorem Held.step (h : s.Held) : (s.stepCpuRsp fp maxCpuSteps).2 = s := by
  have stopped : s.debugger.toDebugger.onBeforeStep s.pc = (false, s.debugger.toDebugger) := by
    unfold Debugger.onBeforeStep
    rw [if_neg (by simp [h.1]), if_pos h.2]
  unfold stepCpuRsp
  split_ifs with none on_
  · rfl
  · simp only [stopped, Bool.not_false, if_true]
    rfl
  · exact absurd h.1 on_

theorem Held.act {a : Act} (h : s.Held) (quiet : Quiet a) : (act fp a s).Held := by
  cases a with
  | step maxCpuSteps =>
    change (s.stepCpuRsp fp maxCpuSteps).2.Held
    rw [h.step fp]
    exact h
  | enable on_ =>
    cases quiet
    exact ⟨rfl, h.2⟩
  | pause reason => exact ⟨h.1, rfl⟩
  | resume => cases quiet
  | requestStep count => cases quiet
  | reset => cases quiet
  | addBreakpoint pc =>
    have kept : (s.debugger.toDebugger.addBreakpoint pc).2.enabled = s.debugger.enabled ∧
        (s.debugger.toDebugger.addBreakpoint pc).2.blocked = s.debugger.toDebugger.blocked := by
      unfold Debugger.addBreakpoint
      split_ifs
      · exact ⟨rfl, rfl⟩
      · exact ⟨rfl, rfl⟩
    exact ⟨kept.1.trans h.1, kept.2.trans h.2⟩
  | addWatchpoint paddr onRead onWrite =>
    have kept : (s.debugger.addWatchpoint paddr onRead onWrite).2.toDebugger =
        s.debugger.toDebugger := by
      unfold DebugState.addWatchpoint
      split
      · rfl
      · rfl
    exact ⟨(congrArg (·.enabled) kept).trans h.1, (congrArg (·.blocked) kept).trans h.2⟩
  | emulator f => exact h
  | removeBreakpoint pc => exact h
  | removeWatchpoint id => exact h
  | clearWatchpoints => exact h
  | setTraceEnabled on_ => exact h
  | setTraceCapacity n => exact h
  | clearTrace => exact h

theorem Held.run (h : s.Held) {acts : List Act} (quiet : ∀ a ∈ acts, Quiet a) :
    Runs.run (DebugSession.act fp) acts s =
      Runs.run (DebugSession.act fp) (acts.filter fun a => !isStep a) s := by
  induction acts generalizing s with
  | nil => rfl
  | cons a acts ih =>
    rw [List.forall_mem_cons] at quiet
    have rest := ih (h.act fp quiet.1) quiet.2
    cases step : isStep a with
    | true =>
      rw [List.filter_cons_of_neg (by simp [step]), Runs.run_cons, rest]
      cases a with
      | step maxCpuSteps => exact congrArg _ (h.step fp)
      | _ => cases step
    | false =>
      rw [List.filter_cons_of_pos (by simp [step]), Runs.run_cons, Runs.run_cons, rest]

end Steps

/-- A store of register 0 to the watched byte at 0x102, by a word access at 0x100. -/
def storing : DebugSession where
  emulator :=
    { machine.sys := {
        cpu := { pc := 0x80000400, gpr := Function.update (fun _ => 0) 8 0xFFFFFFFF80000000 }
        bus := { rdram := fun i => if i = 0x400 then 0xAD else if i = 0x402 then 0x01 else 0 } } }
  debugger := { enabled := true, watchpoints := [{ address := 0x102 }] }

end DebugSession

end N64
