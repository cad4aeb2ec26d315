import N64Emu.Clocks
import Mathlib.Logic.Function.Iterate

/-!
# Cached blocks and steps

Each word of a cached block does what a step does that fetches it, and the
interrupt test before it is the same. So a block is as many steps as it counts,
while the fetches of these steps would return its words and touch no device.
-/

set_option autoImplicit false

namespace N64

open Words

namespace Cpu

/-- At every word the block gets to, a step would fetch that word, without an
exception or an effect on a device. -/
def BlockFetches (fp : HostFpu) : List U32 → U64 → Machine → Prop
  | [], _, _ => True
  | insn :: rest, expectedPc, m =>
    m.sys.cpu.pc = expectedPc →
      (¬ m.sys.cpu.TakesInterrupt → fetch m.sys expectedPc = (insn, m.sys)) ∧
        ((blockInsn fp { m.sys with log := [] } insn).1 = true →
          BlockFetches fp rest (expectedPc + 4)
            (m.commit (blockInsn fp { m.sys with log := [] } insn).2))

section Words

variable {fp : HostFpu} {s : Sys} {insn : U32}

theorem fetched (h : fetch s s.cpu.pc = (insn, s)) :
    ∃ p, s.cpu.pc &&& 3 = 0 ∧ s.cpu.translateAddress s.cpu.pc false = .ok p ∧
      Bus.read32 s p = (insn, s) := by
  rcases fetch_cases s s.cpu.pc with ⟨code, refill, _, raised⟩ | ⟨p, aligned, translated, read⟩
  · rw [raised] at h
    have counted := congrArg (fun r : U32 × Sys => r.2.cpu.exceptionCount) h
    simp [Sys.onCpu] at counted
  · exact ⟨p, aligned, translated, read.symm.trans h⟩

theorem step_word (fp : HostFpu) (running : s.cpu.halted = false)
    (fetches : ¬ s.cpu.TakesInterrupt → fetch s s.cpu.pc = (insn, s)) :
    ∃ marks, (∀ e ∈ marks, ∃ p, e = .load p 4) ∧
      step fp s = (blockInsn fp s insn).2.emitAll marks := by
  by_cases taken : s.cpu.TakesInterrupt
  · refine ⟨[], fun e member => absurd member List.not_mem_nil, ?_⟩
    have empty (u : Sys) : u.emitAll [] = u := by rw [Sys.emitAll, List.append_nil]
    rw [blockInsn_taken fp insn taken, step_interrupted fp running taken.1 taken.2, empty]
  · obtain ⟨p, aligned, translated, read⟩ := fetched (fetches taken)
    have marked : Bus.read32 (s.onCpu markSlot) p = (insn, s.onCpu markSlot) := by
      rw [read32_onCpu, read]
      rfl
    refine ⟨[.load p 4], ?_, ?_⟩
    · intro e member
      exact ⟨p, List.mem_singleton.mp member⟩
    · rw [blockInsn_executes fp insn taken, step_executes running taken,
        stepInsn_fetched fp aligned translated marked]
      rfl

end Words

theorem commit_emitAll (m : Machine) (s : Sys) {marks : List Event}
    (loads : ∀ e ∈ marks, ∃ p, e = .load p 4) : m.commit (s.emitAll marks) = m.commit s := by
  have same (cache : BlockCache) : marks.foldl BlockCache.onEvent cache = cache := by
    induction marks generalizing cache with
    | nil => rfl
    | cons e marks ih =>
      obtain ⟨p, rfl⟩ := loads e List.mem_cons_self
      exact ih (fun e member => loads e (List.mem_cons_of_mem _ member)) cache
  rw [Machine.commit, Machine.commit]
  show ({ m with sys := { s with log := [] }, cache := (s.log ++ marks).foldl _ _ } : Machine) = _
  rw [List.foldl_append, same]

section Block

variable {fp : HostFpu} {m : Machine} {insn : U32}

theorem fetch_relog (s : Sys) (vaddr : U64) (log : List Event) :
    fetch { s with log := log } vaddr =
      Prod.map id (fun t : Sys => { t with log := log }) (fetch s vaddr) := by
  unfold fetch
  split
  · rfl
  · dsimp only
    cases s.cpu.translateOrRaise vaddr vaddr false with
    | error c => rfl
    | ok p => exact read32_relog s p log

theorem perform_word (running : m.sys.cpu.halted = false)
    (fetches : ¬ m.sys.cpu.TakesInterrupt → fetch m.sys m.sys.cpu.pc = (insn, m.sys)) :
    m.perform (step fp) = m.commit (blockInsn fp { m.sys with log := [] } insn).2 := by
  have fresh : ¬ m.sys.cpu.TakesInterrupt → fetch { m.sys with log := [] } m.sys.cpu.pc =
      (insn, { m.sys with log := [] }) := by
    intro untaken
    rw [fetch_relog, fetches untaken]
    rfl
  obtain ⟨marks, loads, same⟩ := step_word fp (s := { m.sys with log := [] }) running fresh
  rw [Machine.perform, same]
  exact commit_emitAll m _ loads

theorem commit_running (fp : HostFpu) (insn : U32) (running : m.sys.cpu.halted = false) :
    (m.commit (blockInsn fp { m.sys with log := [] } insn).2).sys.cpu.halted = false := by
  obtain ⟨e, moved, retired⟩ := blockInsn_clocked fp { m.sys with log := [] } insn
  exact retired.halted.trans (moved.halted.trans running)

theorem blockInsns_steps (insns : List U32) (expectedPc : U64) (m : Machine)
    (running : m.sys.cpu.halted = false) (fetches : BlockFetches fp insns expectedPc m) :
    (blockInsns fp insns expectedPc m).2 =
      (·.perform (step fp))^[(blockInsns fp insns expectedPc m).1] m := by
  induction insns generalizing expectedPc m with
  | nil => rfl
  | cons insn rest ih =>
    rw [blockInsns]
    by_cases here : m.sys.cpu.pc = expectedPc
    · rw [if_neg (by simpa using here)]
      obtain ⟨word, later⟩ := fetches here
      rw [← here] at word
      have one : m.perform (step fp) = m.commit (blockInsn fp { m.sys with log := [] } insn).2 :=
        perform_word running word
      have running' := commit_running fp insn running
      rw [← one] at later running'
      dsimp only
      rw [← one]
      cases going : (blockInsn fp { m.sys with log := [] } insn).1 with
      | true =>
        rw [if_pos rfl]
        exact ih _ _ running' (later going)
      | false => rfl
    · rw [if_pos here]
      rfl

theorem fetch_translated {s : Sys} {v : U64} {p : PhysicalAddress} (aligned : v &&& 3 = 0)
    (translated : s.cpu.translateAddress v false = .ok p) : fetch s v = Bus.read32 s p := by
  rw [fetch, if_neg (by rw [aligned]; simp), translateOrRaise, translated]

theorem fetch_memory {s : Sys} {v : U64} {p : PhysicalAddress} (aligned : v &&& 3 = 0)
    (translated : s.cpu.translateAddress v false = .ok p)
    (memory : Bus.isMmioRegion (Bus.physical p) = false) :
    fetch s v = (Bus.read32Const s (Bus.physical p), s) := by
  rw [fetch_translated aligned translated]
  simp only [Bus.read32, memory, Bool.false_eq_true, if_false]

def blockInMemory (fp : HostFpu) : List U32 → U64 → Machine → Bool
  | [], _, _ => true
  | insn :: rest, expectedPc, m =>
    m.sys.cpu.pc ≠ expectedPc ||
      (expectedPc &&& 3 = 0 &&
          ((m.sys.cpu.translateAddress expectedPc false).toOption.any fun p =>
            !Bus.isMmioRegion (Bus.physical p) && Bus.read32Const m.sys (Bus.physical p) = insn) &&
        (!(blockInsn fp { m.sys with log := [] } insn).1 ||
          blockInMemory fp rest (expectedPc + 4)
            (m.commit (blockInsn fp { m.sys with log := [] } insn).2)))

theorem blockFetches_of_inMemory {fp : HostFpu} (insns : List U32) (expectedPc : U64) (m : Machine)
    (inMemory : blockInMemory fp insns expectedPc m = true) :
    BlockFetches fp insns expectedPc m := by
  induction insns generalizing expectedPc m with
  | nil => trivial
  | cons insn rest ih =>
    intro here
    simp only [blockInMemory, here, ne_eq, not_true_eq_false, decide_false, Bool.false_or,
      Bool.and_eq_true, Bool.or_eq_true, decide_eq_true_eq, Bool.not_eq_true'] at inMemory
    obtain ⟨⟨aligned, word⟩, later⟩ := inMemory
    refine ⟨fun _ => ?_, fun going => ih _ _ (later.resolve_left (by simp [going]))⟩
    cases translated : m.sys.cpu.translateAddress expectedPc false with
    | error fault => simp [translated, Except.toOption] at word
    | ok p =>
      simp only [translated, Except.toOption, Option.any_some, Bool.and_eq_true,
        Bool.not_eq_true', decide_eq_true_eq] at word
      rw [fetch_memory aligned translated word.1, word.2]

/-- `execute_block` leaves what as many steps leave as it counts: taken and
untaken branches, nullified delay slots, returns, exceptions and interrupts in
the middle of the block included. -/
theorem execute_block_simulates_step (fp : HostFpu) (m : Machine) (block : BasicBlock)
    (running : m.sys.cpu.halted = false)
    (fetches : BlockFetches fp block.insns block.startPc m) :
    (executeBlock fp m block).2 = (·.perform (step fp))^[(executeBlock fp m block).1] m :=
  blockInsns_steps block.insns block.startPc m running fetches

def branchToSyscall : List U32 := [0x24010005, 0x10000003, 0x0000000C]

def loadedWith (words : List U32) : Machine where
  sys := { cpu := { pc := 0xFFFFFFFF80000000 }
           bus := { rdram := fun i => (words.getD (i / 4) 0).extractLsb' (8*(3 - i % 4)) 8 } }

theorem execute_block_simulates_step_branch :
    let m := loadedWith branchToSyscall
    let block : BasicBlock := { startPc := 0xFFFFFFFF80000000, insns := branchToSyscall }
    (executeBlock default m block).2 = (·.perform (step default))^[3] m ∧
      (executeBlock default m block).2.sys.cpu.exceptionCount = 1 ∧
      (executeBlock default m block).2.sys.cpu.cop0 Cop0Reg.EPC = 0x80000004 := by
  intro m block
  have three : (executeBlock default m block).1 = 3 := by decide +kernel
  have steps := execute_block_simulates_step default m block rfl
    (blockFetches_of_inMemory _ _ _ (by decide +kernel))
  rw [three] at steps
  exact ⟨steps, by decide +kernel, by decide +kernel⟩

def atSemaphore : Machine := { sys := { cpu := { pc := 0xFFFFFFFFA404001C } } }

/-- The fetch of the semaphore returns the word of the block and takes the
semaphore, which the block does not. -/
theorem semaphore_block_differs :
    let block : BasicBlock := { startPc := 0xFFFFFFFFA404001C, insns := [0] }
    atSemaphore.sys.cpu.halted = false ∧ atSemaphore.sys.cpu.pc = block.startPc ∧
      (fetch atSemaphore.sys block.startPc).1 = 0 ∧
      (fetch atSemaphore.sys block.startPc).2.cpu.exceptionCount = 0 ∧
      (executeBlock default atSemaphore block).1 = 1 ∧
      (executeBlock default atSemaphore block).2.sys.bus.spRegs.semaphore = 0 ∧
      (atSemaphore.perform (step default)).sys.bus.spRegs.semaphore = 1 := by
  decide +kernel

end Block

end Cpu

end N64
