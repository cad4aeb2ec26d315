import N64Emu.CpuActs

/-!
# What a run executes

`run` performs steps and the words of cached blocks. The acts it performs are
listed in order; they are as many as it counts, and no more than it was asked.
-/

set_option autoImplicit false

namespace N64

open Words Runs

namespace CpuAct

def isWord : CpuAct → Bool
  | .step => true
  | .cached _ => true
  | _ => false

def performFresh (fp : HostFpu) (a : CpuAct) (s : Sys) : Sys :=
  { a.perform fp { s with log := [] } with log := [] }

end CpuAct

namespace Cpu

/-- The words `blockInsns` executes. -/
def blockActs (fp : HostFpu) : List U32 → U64 → Machine → List CpuAct
  | [], _, _ => []
  | insn :: rest, expectedPc, m =>
    if m.sys.cpu.pc ≠ expectedPc then []
    else
      let (going, s) := blockInsn fp { m.sys with log := [] } insn
      .cached insn :: if going then blockActs fp rest (expectedPc + 4) (m.commit s) else []

/-- What one pass of `run` executes. -/
def passActs (fp : HostFpu) (n taken : ℕ) (m : Machine) : List CpuAct :=
  if m.enabled ∧ !m.sys.cpu.branchPending then
    let (blk, m) := findBlock m
    match blk with
    | some blk =>
      if !blk.insns.isEmpty ∧ taken + blk.insns.length ≤ n then
        if (executeBlock fp m blk).1 = 0 then [.step] else blockActs fp blk.insns blk.startPc m
      else [.step]
    | none => [.step]
  else [.step]

def loopActs (fp : HostFpu) (n : ℕ) : ℕ → ℕ → Machine → List CpuAct
  | 0, _, _ => []
  | fuel+1, taken, m =>
    if taken < n ∧ !m.sys.cpu.halted then
      let (did, m') := runPass fp n taken m
      passActs fp n taken m ++ loopActs fp n fuel (taken + did) m'
    else []

/-- What `run` executes. -/
def runActs (fp : HostFpu) (n : ℕ) (m : Machine) : List CpuAct := loopActs fp n n 0 m

/-- `r` counts the acts and holds the system they lead to. -/
structure Performed (fp : HostFpu) (m : Machine) (acts : List CpuAct) (r : ℕ × Machine) : Prop where
  count : r.1 = acts.length
  words : ∀ a ∈ acts, a.isWord = true
  sys : r.2.sys = Runs.run (CpuAct.performFresh fp) acts m.sys

section Acts

variable {fp : HostFpu} {m : Machine}

theorem performed_nil : Performed fp m [] (0, m) :=
  ⟨rfl, fun _ h => absurd h List.not_mem_nil, rfl⟩

theorem performed_step : Performed fp m [.step] (1, m.perform (step fp)) := by
  refine ⟨rfl, ?_, rfl⟩
  intro a h
  rw [List.mem_singleton.mp h]
  rfl

theorem Performed.start {m' : Machine} {acts : List CpuAct} {r : ℕ × Machine}
    (h : Performed fp m' acts r) (same : m'.sys = m.sys) : Performed fp m acts r :=
  ⟨h.count, h.words, by rw [← same]; exact h.sys⟩

theorem Performed.cons {a : CpuAct} {m' : Machine} {acts : List CpuAct} {r : ℕ × Machine}
    (word : a.isWord = true) (first : m'.sys = a.performFresh fp m.sys)
    (h : Performed fp m' acts r) :
    Performed fp m (a :: acts) (r.1 + 1, r.2) := by
  refine ⟨by rw [h.count, List.length_cons], ?_, ?_⟩
  · intro b member
    rcases List.mem_cons.mp member with rfl | later
    · exact word
    · exact h.words b later
  · rw [run_cons, ← first]
    exact h.sys

theorem Performed.append {acts acts' : List CpuAct} {r r' : ℕ × Machine}
    (h : Performed fp m acts r) (k : Performed fp r.2 acts' r') :
    Performed fp m (acts ++ acts') (r.1 + r'.1, r'.2) := by
  refine ⟨by rw [h.count, k.count, List.length_append], ?_, ?_⟩
  · intro a member
    rcases List.mem_append.mp member with first | second
    · exact h.words a first
    · exact k.words a second
  · rw [run_append, ← h.sys]
    exact k.sys

theorem blockInsns_performed (insns : List U32) (expectedPc : U64) (m : Machine) :
    Performed fp m (blockActs fp insns expectedPc m) (blockInsns fp insns expectedPc m) := by
  induction insns generalizing expectedPc m with
  | nil => exact performed_nil
  | cons insn rest ih =>
    rw [blockActs, blockInsns]
    by_cases here : m.sys.cpu.pc = expectedPc
    · rw [if_neg (by simpa using here), if_neg (by simpa using here)]
      have word : (CpuAct.cached insn).isWord = true := rfl
      have first : (m.commit (blockInsn fp { m.sys with log := [] } insn).2).sys =
        (CpuAct.cached insn).performFresh fp m.sys := rfl
      cases going : (blockInsn fp { m.sys with log := [] } insn).1 with
      | true =>
        simp only [going, if_true]
        exact (ih (expectedPc + 4) _).cons word first
      | false =>
        simp only [going, Bool.false_eq_true, if_false]
        exact performed_nil.cons word first
    · rw [if_pos here, if_pos here]
      exact performed_nil

theorem blockInsns_none (insns : List U32) (expectedPc : U64)
    (nothing : (blockInsns fp insns expectedPc m).1 = 0) :
    (blockInsns fp insns expectedPc m).2 = m := by
  cases insns with
  | nil => rfl
  | cons insn rest =>
    rw [blockInsns] at nothing ⊢
    split at nothing
    case isTrue away => rw [if_pos away]
    case isFalse =>
      dsimp only at nothing
      split at nothing <;> simp at nothing

theorem runPass_performed (n taken : ℕ) (m : Machine) :
    Performed fp m (passActs fp n taken m) (runPass fp n taken m) := by
  rw [passActs, runPass]
  by_cases cached : m.enabled ∧ !m.sys.cpu.branchPending
  · rw [if_pos cached, if_pos cached]
    have same := findBlock_sys m
    cases found : findBlock m with
    | mk blk m' =>
      rw [found] at same
      have step' : Performed fp m' [.step] (1, m'.perform (step fp)) := performed_step
      have stepped := step'.start same
      cases blk with
      | none => exact stepped
      | some blk =>
        dsimp only
        by_cases fits : !blk.insns.isEmpty ∧ taken + blk.insns.length ≤ n
        · rw [if_pos fits, if_pos fits]
          have executed : Performed fp m' (blockActs fp blk.insns blk.startPc m')
            (executeBlock fp m' blk) := blockInsns_performed _ _ _
          have block := executed.start same
          by_cases idle : (executeBlock fp m' blk).1 = 0
          · have still : (executeBlock fp m' blk).2 = m' := blockInsns_none _ _ idle
            rw [if_pos idle, if_pos idle, still]
            exact stepped
          · rw [if_neg idle, if_neg idle]
            exact block
        · rw [if_neg fits, if_neg fits]
          exact stepped
  · rw [if_neg cached, if_neg cached]
    exact performed_step

theorem runLoop_performed (n fuel taken : ℕ) (m : Machine) :
    ∃ did, (runLoop fp n fuel taken m).1 = taken + did ∧
      Performed fp m (loopActs fp n fuel taken m) (did, (runLoop fp n fuel taken m).2) := by
  induction fuel generalizing taken m with
  | zero => exact ⟨0, rfl, performed_nil⟩
  | succ fuel ih =>
    rw [runLoop, loopActs]
    by_cases going : taken < n ∧ !m.sys.cpu.halted
    · rw [if_pos going, if_pos going]
      have pass : Performed fp m (passActs fp n taken m) (runPass fp n taken m) :=
        runPass_performed n taken m
      obtain ⟨did, total, rest⟩ := ih (taken + (runPass fp n taken m).1) (runPass fp n taken m).2
      refine ⟨(runPass fp n taken m).1 + did, ?_, pass.append rest⟩
      rw [← Nat.add_assoc]
      exact total
    · rw [if_neg going, if_neg going]
      exact ⟨0, rfl, performed_nil⟩

theorem run_performed (fp : HostFpu) (n : ℕ) (m : Machine) :
    Performed fp m (runActs fp n m) (run fp n m) := by
  obtain ⟨did, total, performed⟩ : ∃ did, (run fp n m).1 = 0 + did ∧
      Performed fp m (runActs fp n m) (did, (run fp n m).2) := runLoop_performed n n 0 m
  have count : (run fp n m).1 = did := total.trans (Nat.zero_add did)
  exact ⟨count.trans performed.count, performed.words, performed.sys⟩

theorem blockInsns_count (insns : List U32) (expectedPc : U64) (m : Machine) :
    (blockInsns fp insns expectedPc m).1 ≤ insns.length := by
  induction insns generalizing expectedPc m with
  | nil => exact Nat.le_refl 0
  | cons insn rest ih =>
    rw [blockInsns, List.length_cons]
    split
    · exact Nat.zero_le _
    · dsimp only
      split
      · exact Nat.succ_le_succ (ih _ _)
      · exact Nat.succ_le_succ (Nat.zero_le _)

theorem runPass_count (n taken : ℕ) (m : Machine) (room : taken < n) :
    0 < (runPass fp n taken m).1 ∧ taken + (runPass fp n taken m).1 ≤ n := by
  have one : 0 < 1 ∧ taken + 1 ≤ n := ⟨by decide, room⟩
  rw [runPass]
  split
  · dsimp only
    split
    · split
      case isTrue blk _ fits =>
        split
        case isTrue => exact one
        case isFalse nonzero =>
          have most : (executeBlock fp (findBlock m).2 blk).1 ≤ blk.insns.length :=
            blockInsns_count _ _ _
          dsimp only at nonzero ⊢
          omega
      case isFalse => exact one
    · exact one
  · exact one

theorem runLoop_count (n fuel taken : ℕ) (m : Machine) (start : taken ≤ n) :
    (runLoop fp n fuel taken m).1 ≤ n := by
  induction fuel generalizing taken m with
  | zero => exact start
  | succ fuel ih =>
    rw [runLoop]
    split
    case isTrue going => exact ih _ _ (runPass_count n taken m going.1).2
    case isFalse => exact start

theorem run_count (fp : HostFpu) (n : ℕ) (m : Machine) : (run fp n m).1 ≤ n :=
  runLoop_count n n 0 m (Nat.zero_le n)

theorem runLoop_ends (n fuel taken : ℕ) (m : Machine) (start : taken ≤ n)
    (enough : n ≤ taken + fuel) :
    (runLoop fp n fuel taken m).1 = n ∨ (runLoop fp n fuel taken m).2.sys.cpu.halted = true := by
  induction fuel generalizing taken m with
  | zero => exact Or.inl (Nat.le_antisymm start enough)
  | succ fuel ih =>
    rw [runLoop]
    split
    case isTrue going =>
      have pass : 0 < (runPass fp n taken m).1 ∧ taken + (runPass fp n taken m).1 ≤ n :=
        runPass_count n taken m going.1
      have left : n ≤ taken + (runPass fp n taken m).1 + fuel := by omega
      exact ih _ _ pass.2 left
    case isFalse stopped =>
      by_cases full : taken < n
      · right
        simpa [full] using stopped
      · left
        exact Nat.le_antisymm start (Nat.le_of_not_lt full)

/-- A run ends when it has executed what it was asked or the CPU halts. -/
theorem run_ends (fp : HostFpu) (n : ℕ) (m : Machine) :
    (run fp n m).1 = n ∨ (run fp n m).2.sys.cpu.halted = true :=
  runLoop_ends n n 0 m (Nat.zero_le n) (Nat.le_add_left n 0)

end Acts

end Cpu

end N64
