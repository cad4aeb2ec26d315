import N64Emu.Clocks

/-!
# The timer interrupt

Count goes up by one with every step, whichever way the step ends, and the
timer's bit of Cause is set when it meets Compare. Nothing but an MTC0 to one
of the two registers interferes.
-/

set_option autoImplicit false

namespace N64

open Words Runs

def writesTimer (insn : U32) : Prop :=
  isMoveToCop0 insn ∧ (Insn.rd insn = Cop0Reg.Count ∨ Insn.rd insn = Cop0Reg.Compare)

def CpuAct.LeavesTimer (a : CpuAct) (s : Sys) : Prop :=
  ∀ insn, a.Executes s insn → ¬ writesTimer insn

namespace Cpu

/-- `d` is `n` ticks of the timer after `c`. -/
structure AfterTicks (n : ℕ) (c d : Cpu) : Prop where
  count : d.cop0 Cop0Reg.Count = c.cop0 Cop0Reg.Count + BitVec.ofNat 32 n
  compare : d.cop0 Cop0Reg.Compare = c.cop0 Cop0Reg.Compare
  ip7 : d.ip7 = true ↔ c.ip7 = true ∨ ∃ k, 1 ≤ k ∧ k ≤ n ∧
    c.cop0 Cop0Reg.Count + BitVec.ofNat 32 k = c.cop0 Cop0Reg.Compare

section Ticks

variable {c d e : Cpu} {a b : ℕ}

theorem afterTicks_zero (count : d.cop0 Cop0Reg.Count = c.cop0 Cop0Reg.Count)
    (compare : d.cop0 Cop0Reg.Compare = c.cop0 Cop0Reg.Compare) (ip7 : d.ip7 = c.ip7) :
    AfterTicks 0 c d := by
  refine ⟨count.trans (BitVec.add_zero _).symm, compare, ?_⟩
  rw [ip7]
  constructor
  · exact Or.inl
  · rintro (set | ⟨k, low, high, _⟩)
    · exact set
    · omega

theorem KeepsClocks.afterTicks (h : KeepsClocks c d) : AfterTicks 0 c d :=
  afterTicks_zero (h.regs _ (by decide)) (h.regs _ (by decide)) h.ip7

theorem AfterTicks.trans (h : AfterTicks a c d) (k : AfterTicks b d e) :
    AfterTicks (a + b) c e := by
  have shift (n : ℕ) : d.cop0 Cop0Reg.Count + BitVec.ofNat 32 n =
      c.cop0 Cop0Reg.Count + BitVec.ofNat 32 (a + n) := by
    rw [h.count, BitVec.add_assoc, BitVec.ofNat_add]
  refine ⟨k.count.trans (shift b), k.compare.trans h.compare, ?_⟩
  rw [k.ip7, h.ip7, h.compare]
  constructor
  · rintro ((set | ⟨n, low, high, meet⟩) | ⟨n, low, high, meet⟩)
    · exact Or.inl set
    · exact Or.inr ⟨n, low, by omega, meet⟩
    · rw [shift] at meet
      exact Or.inr ⟨a + n, by omega, by omega, meet⟩
  · rintro (set | ⟨n, low, high, meet⟩)
    · exact Or.inl (Or.inl set)
    · by_cases early : n ≤ a
      · exact Or.inl (Or.inr ⟨n, low, early, meet⟩)
      · have later : n = a + (n - a) := by omega
        rw [later, ← shift] at meet
        exact Or.inr ⟨n - a, by omega, by omega, meet⟩

theorem or_and_mask {w : ℕ} (x m : BitVec w) : (x ||| m) &&& m = m := by
  ext i hi
  cases bit : m[i] <;> simp [bit]

theorem bumpCount_count (c : Cpu) :
    c.bumpCount.cop0 Cop0Reg.Count = c.cop0 Cop0Reg.Count + 1 := by
  have apart : Cop0Reg.Count ≠ Cop0Reg.Cause := by decide
  simp only [bumpCount]
  split <;> simp [cop0_setCop0Reg, apart]

theorem bumpCount_ip7 (c : Cpu) : c.bumpCount.ip7 = true ↔
    c.ip7 = true ∨ c.cop0 Cop0Reg.Count + 1 = c.cop0 Cop0Reg.Compare := by
  have apart : Cop0Reg.Compare ≠ Cop0Reg.Count := by decide
  have other : Cop0Reg.Cause ≠ Cop0Reg.Count := by decide
  have count (v : U32) : (c.setCop0Reg Cop0Reg.Count v).cop0 Cop0Reg.Count = v :=
    (cop0_setCop0Reg _ _ _ _).trans (if_pos rfl)
  have compare (v : U32) : (c.setCop0Reg Cop0Reg.Count v).cop0 Cop0Reg.Compare =
    c.cop0 Cop0Reg.Compare := (cop0_setCop0Reg _ _ _ _).trans (if_neg apart)
  have cause (v : U32) : (c.setCop0Reg Cop0Reg.Count v).cop0 Cop0Reg.Cause =
    c.cop0 Cop0Reg.Cause := (cop0_setCop0Reg _ _ _ _).trans (if_neg other)
  simp only [bumpCount, count, compare]
  by_cases meet : c.cop0 Cop0Reg.Count + 1 = c.cop0 Cop0Reg.Compare
  · rw [if_pos meet]
    refine iff_of_true ?_ (Or.inr meet)
    rw [Cpu.ip7, cop0_setCop0Reg, if_pos rfl, or_and_mask]
    decide
  · rw [if_neg meet, Cpu.ip7, Cpu.ip7, cause]
    exact (or_iff_left_of_imp fun met => absurd met meet).symm

theorem afterTicks_retire (c : Cpu) : AfterTicks 1 c c.retire := by
  have bumped {i : BitVec 5} (other : i ≠ Cop0Reg.Random) :
      c.retire.cop0 i = ({ c with gpr := Function.update c.gpr 0 0 } : Cpu).bumpCount.cop0 i :=
    advanceCount_cop0 _ other
  have same : c.retire.ip7 = ({ c with gpr := Function.update c.gpr 0 0 } : Cpu).bumpCount.ip7 := by
    rw [Cpu.ip7, Cpu.ip7, bumped (by decide)]
  refine ⟨?_, retire_cop0 c (by decide), ?_⟩
  · rw [bumped (by decide)]
    exact bumpCount_count _
  · rw [same, bumpCount_ip7]
    constructor
    · rintro (set | meet)
      · exact Or.inl set
      · exact Or.inr ⟨1, Nat.le_refl 1, Nat.le_refl 1, meet⟩
    · rintro (set | ⟨k, low, high, meet⟩)
      · exact Or.inl set
      · obtain rfl : k = 1 := Nat.le_antisymm high low
        exact Or.inr meet

theorem afterTicks_setCop0Value {i : BitVec 5} (v : U32)
    (other : ¬ (i = Cop0Reg.Count ∨ i = Cop0Reg.Compare)) :
    AfterTicks 0 c (c.setCop0Value i v) := by
  obtain ⟨notCount, notCompare⟩ := not_or.mp other
  by_cases cause : i = Cop0Reg.Cause
  · subst cause
    have outside : v &&& 0x300#32 &&& CAUSE_IP7 = 0 := by
      rw [BitVec.and_assoc]
      exact BitVec.and_zero
    exact (keepsClocks_setCause
      ((or_and_of_disjoint _ outside).trans (andNot_and_of_disjoint _ rfl))).afterTicks
  · have one (d : Cpu) {j : BitVec 5} (w : U32) (count : j ≠ Cop0Reg.Count)
        (compare : j ≠ Cop0Reg.Compare) (cause : j ≠ Cop0Reg.Cause) :
        AfterTicks 0 d (d.setCop0Reg j w) := by
      apply afterTicks_zero
      · rw [cop0_setCop0Reg, if_neg count.symm]
      · rw [cop0_setCop0Reg, if_neg compare.symm]
      · apply ip7_of_and
        rw [cop0_setCop0Reg, if_neg cause.symm]
    have this (w : U32) : AfterTicks 0 c (c.setCop0Reg i w) := one c w notCount notCompare cause
    simp only [setCop0Value, if_neg notCompare, if_neg cause]
    split_ifs
    · exact KeepsClocks.refl.afterTicks
    · exact this _
    · exact this _
    · exact this _
    · exact this _
    · exact (this _).trans (one _ 31 (by decide) (by decide) (by decide))
    · exact this _
    · exact this _

theorem Moved.afterTicks {executes : U32 → Prop} (h : Moved executes c d)
    (leaves : ∀ insn, executes insn → ¬ writesTimer insn) : AfterTicks 0 c d := by
  rcases h with same | ⟨insn, v, b, word, code, before, set⟩
  · exact same.afterTicks
  · have other : ¬ (Insn.rd insn = Cop0Reg.Count ∨ Insn.rd insn = Cop0Reg.Compare) :=
      fun clock => leaves insn word ⟨code, clock⟩
    exact (before.afterTicks.trans (afterTicks_setCop0Value v other)).trans set.afterTicks

theorem Retired.afterTicks (h : Retired c d) : AfterTicks 1 c d := by
  have tick := afterTicks_retire c
  refine ⟨?_, ?_, ?_⟩
  · rw [h.cop0]
    exact tick.count
  · rw [h.cop0]
    exact tick.compare
  · rw [Cpu.ip7, h.cop0]
    exact tick.ip7

theorem Clocked.afterTicks {executes : U32 → Prop} (h : Clocked executes c d)
    (leaves : ∀ insn, executes insn → ¬ writesTimer insn) :
    AfterTicks 1 c d ∧ d.halted = c.halted := by
  obtain ⟨e, moved, retired⟩ := h
  exact ⟨(moved.afterTicks leaves).trans retired.afterTicks, retired.halted.trans moved.halted⟩

end Ticks

section Runs

variable {fp : HostFpu} {s : Sys}

theorem afterTicks_perform {a : CpuAct} (kind : a.isWord = true ∨ a.OnDevice)
    (running : s.cpu.halted = false) (leaves : a.LeavesTimer s) :
    AfterTicks (if a.isWord then 1 else 0) s.cpu (a.perform fp s).cpu ∧
      (a.perform fp s).cpu.halted = false := by
  rcases kind with word | device
  · obtain ⟨ticks, halted⟩ := (word_clocked fp word running).afterTicks leaves
    rw [if_pos word]
    exact ⟨ticks, halted.trans running⟩
  · have kept : KeepsClocks s.cpu (a.perform fp s).cpu := device_keepsClocks fp device
    have other : a.isWord ≠ true := by
      cases a with
      | device a => exact Bool.false_ne_true
      | rcpInterrupt level => exact Bool.false_ne_true
      | _ => cases device
    rw [if_neg other]
    exact ⟨kept.afterTicks, kept.halted.trans running⟩

theorem afterTicks_run {acts : List CpuAct}
    (kinds : ∀ a ∈ acts, a.isWord = true ∨ a.OnDevice) (running : s.cpu.halted = false)
    (leaves : Along (CpuAct.performFresh fp) CpuAct.LeavesTimer acts s) :
    AfterTicks (acts.countP (·.isWord)) s.cpu (Runs.run (CpuAct.performFresh fp) acts s).cpu ∧
      (Runs.run (CpuAct.performFresh fp) acts s).cpu.halted = false := by
  induction acts generalizing s with
  | nil => exact ⟨KeepsClocks.refl.afterTicks, running⟩
  | cons a acts ih =>
    have first : AfterTicks (if a.isWord then 1 else 0) s.cpu (a.performFresh fp s).cpu ∧
        (a.performFresh fp s).cpu.halted = false := by
      have fresh : a.LeavesTimer { s with log := [] } := fun insn executes =>
        leaves.1 insn (executes_relog.mp executes)
      exact afterTicks_perform (s := { s with log := [] })
        (kinds a List.mem_cons_self) running fresh
    have rest := ih (fun b member => kinds b (List.mem_cons_of_mem a member)) first.2 leaves.2
    rw [run_cons, List.countP_cons, Nat.add_comm]
    exact ⟨first.1.trans rest.1, rest.2⟩

/-- Count is as many steps on, and Cause.IP7 is set if it was set before or
Count has met Compare on the way; neither an exception nor an interrupt, a
return, a write of Cause or a device has a part in it. A run of the CPU with
its block cache is such steps. -/
theorem timer_interrupt (fp : HostFpu) (m : Machine) (running : m.sys.cpu.halted = false) :
    (∀ acts, (∀ a ∈ acts, a.isWord = true ∨ a.OnDevice) →
      Along (CpuAct.performFresh fp) CpuAct.LeavesTimer acts m.sys →
      AfterTicks (acts.countP (·.isWord)) m.sys.cpu
        (Runs.run (CpuAct.performFresh fp) acts m.sys).cpu) ∧
    ∀ n, Along (CpuAct.performFresh fp) CpuAct.LeavesTimer (runActs fp n m) m.sys →
      (run fp n m).1 = n ∧ AfterTicks n m.sys.cpu (run fp n m).2.sys.cpu := by
  constructor
  · intro acts kinds leaves
    exact (afterTicks_run kinds running leaves).1
  · intro n leaves
    have performed := run_performed fp n m
    obtain ⟨ticks, halted⟩ := afterTicks_run (fun a member => Or.inl (performed.words a member))
      running leaves
    have words : (runActs fp n m).countP (·.isWord) = (runActs fp n m).length :=
      List.countP_eq_length.mpr performed.words
    rw [words, ← performed.count, ← performed.sys] at ticks
    rw [← performed.sys] at halted
    have all : (run fp n m).1 = n := by
      rcases run_ends fp n m with all | stopped
      · exact all
      · rw [halted] at stopped
        cases stopped
    rw [all] at ticks
    exact ⟨all, ticks⟩

/-- A CPU whose Compare is three on, at the RAM under its vector. -/
def timed : Sys :=
  let c : Cpu := { pc := 0xFFFFFFFF80000000 }
  { cpu := c.setCop0Reg Cop0Reg.Compare 3 }

/-- Five empty words: Count is five and the timer's bit is set. -/
theorem timer_interrupt_five :
    let t := Runs.run (CpuAct.performFresh default) (List.replicate 5 (.cached 0)) timed
    t.cpu.cop0 Cop0Reg.Count = 5 ∧ t.cpu.ip7 = true := by
  have words : ∀ a ∈ List.replicate 5 (CpuAct.cached 0), a.isWord = true ∨ a.OnDevice := by
    intro a member
    rw [List.eq_of_mem_replicate member]
    exact Or.inl rfl
  have idle (s : Sys) : (CpuAct.cached 0).LeavesTimer s := by
    intro insn executes writes
    rw [show insn = 0 from executes.symm] at writes
    exact absurd writes.1.1 (by decide)
  have leaves : Along (CpuAct.performFresh default) CpuAct.LeavesTimer
      (List.replicate 5 (.cached 0)) timed := ⟨idle _, idle _, idle _, idle _, idle _, trivial⟩
  have ticks := (timer_interrupt default { sys := timed } rfl).1 _ words leaves
  exact ⟨ticks.count, ticks.ip7.mpr (Or.inr ⟨3, by decide, by decide, rfl⟩)⟩

end Runs

end Cpu

end N64
