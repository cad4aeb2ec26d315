import N64Emu.CpuExecute
import N64Emu.BlockCache

/-!
# The CPU with its block cache

A machine pairs the wired system with the cache. What a step notes for the
cache, in order, is applied to it when the step ends: no step reads the cache.
-/

set_option autoImplicit false

namespace N64

open Words

/-- What the source does to the cache at the moment of an event. -/
def BlockCache.onEvent (c : BlockCache) : Event → BlockCache
  | .notify p n => if c.count ≠ 0 then c.invalidate (Bus.physical p) n else c
  | .flush => c.clear
  | .load _ _ => c
  | .store _ _ => c
  | .wrote _ => c

structure Machine where
  sys : Sys := {}
  cache : BlockCache := {}
  enabled : Bool := true

namespace Machine

/-- The state after a step of the system, with its events applied. -/
def commit (m : Machine) (s : Sys) : Machine :=
  { m with sys := { s with log := [] }, cache := s.log.foldl BlockCache.onEvent m.cache }

def perform (m : Machine) (f : Sys → Sys) : Machine := m.commit (f { m.sys with log := [] })

end Machine

namespace Cpu

/-- A cached word without a fetch, and whether its block goes on. -/
def executeWord (fp : HostFpu) (s : Sys) (insn : U32) : Bool × Sys :=
  let insnPc := s.cpu.pc
  let delaySlot := s.cpu.branchPending
  let excBefore := s.cpu.exceptionCount
  let s := s.onCpu fun c => { c with inDelaySlot := delaySlot }
  let t := finishStep fp s insnPc delaySlot excBefore insn
  (t.cpu.exceptionCount = excBefore && !t.cpu.halted, t)

/-- One pass of the loop of `execute_block`, with whether the block goes on. -/
def blockInsn (fp : HostFpu) (s : Sys) (insn : U32) : Bool × Sys :=
  let interrupted : Bool := !s.cpu.branchPending &&
    (s.cpu.status &&& SR_IE ≠ 0 && s.cpu.status &&& (SR_EXL ||| SR_ERL) = 0 &&
      s.cpu.cop0 Cop0Reg.Cause &&& s.cpu.status &&& 0xFF00 ≠ 0)
  let entered := if interrupted then s.onCpu checkInterrupts else s
  if entered.cpu.exceptionCount ≠ s.cpu.exceptionCount then (false, entered.onCpu retire)
  else executeWord fp entered insn

/-- The loop of `execute_block` from a word at `expectedPc` on. -/
def blockInsns (fp : HostFpu) : List U32 → U64 → Machine → ℕ × Machine
  | [], _, m => (0, m)
  | insn :: rest, expectedPc, m =>
    if m.sys.cpu.pc ≠ expectedPc then (0, m)
    else
      let (going, s) := blockInsn fp { m.sys with log := [] } insn
      let m := m.commit s
      if going then
        let (did, m) := blockInsns fp rest (expectedPc + 4) m
        (did + 1, m)
      else (1, m)

def executeBlock (fp : HostFpu) (m : Machine) (block : BasicBlock) : ℕ × Machine :=
  blockInsns fp block.insns block.startPc m

/-- The block for the current program counter, compiled when it is missing. -/
def findBlock (m : Machine) : Option BasicBlock × Machine :=
  match m.cache.lookup m.sys.cpu.pc with
  | some blk => (some blk, m)
  | none =>
    let (blk, cache) := m.cache.compile m.sys m.sys.cpu.pc
    (blk, { m with cache := cache })

@[simp]
theorem findBlock_sys (m : Machine) : (findBlock m).2.sys = m.sys := by
  unfold findBlock
  split <;> rfl

/-- One pass of the loop of `run`: how many instructions it counts. -/
def runPass (fp : HostFpu) (n taken : ℕ) (m : Machine) : ℕ × Machine :=
  if m.enabled ∧ !m.sys.cpu.branchPending then
    let (blk, m) := findBlock m
    match blk with
    | some blk =>
      if !blk.insns.isEmpty ∧ taken + blk.insns.length ≤ n then
        let (did, m) := executeBlock fp m blk
        if did = 0 then (1, m.perform (step fp)) else (did, m)
      else (1, m.perform (step fp))
    | none => (1, m.perform (step fp))
  else (1, m.perform (step fp))

def runLoop (fp : HostFpu) (n : ℕ) : ℕ → ℕ → Machine → ℕ × Machine
  | 0, taken, m => (taken, m)
  | fuel+1, taken, m =>
    if taken < n ∧ !m.sys.cpu.halted then
      let (did, m) := runPass fp n taken m
      runLoop fp n fuel (taken + did) m
    else (taken, m)

/-- Every pass counts at least one instruction, so `n` passes are enough. -/
def run (fp : HostFpu) (n : ℕ) (m : Machine) : ℕ × Machine := runLoop fp n n 0 m

end Cpu

end N64
