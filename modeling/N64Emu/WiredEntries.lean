import N64Emu.Clocks
import N64Emu.InterruptReturn

/-!
# Wired TLB entries

Random stays between Wired and the last index, at every step and in the middle
of an instruction. The only TLB writes are at Index by TLBWI and at Random, so
the entries below Wired are written by TLBWI alone.
-/

set_option autoImplicit false

namespace N64

open Words Runs

namespace Cpu

structure WiredSafe (c : Cpu) : Prop where
  wired : (c.cop0 Cop0Reg.Wired).toNat ≤ (c.cop0 Cop0Reg.Random).toNat
  last : (c.cop0 Cop0Reg.Random).toNat ≤ 31

def KeepsWired (c d : Cpu) : Prop :=
  ∀ i : BitVec 5, i.toNat < (c.cop0 Cop0Reg.Wired).toNat → d.tlb i = c.tlb i

section Registers

variable {c d : Cpu} {executes : U32 → Prop}

theorem KeepsClocks.wiredSafe (h : KeepsClocks c d) (safe : WiredSafe c) : WiredSafe d := by
  have random : d.cop0 Cop0Reg.Random = c.cop0 Cop0Reg.Random := h.regs _ (by decide)
  have wired : d.cop0 Cop0Reg.Wired = c.cop0 Cop0Reg.Wired := h.regs _ (by decide)
  refine ⟨?_, ?_⟩
  · rw [wired, random]
    exact safe.wired
  · rw [random]
    exact safe.last

theorem index_le (v : U32) : (v &&& TLB_INDEX_MASK).toNat ≤ 31 := by
  rw [BitVec.toNat_and]
  exact Nat.and_le_right

theorem index_of_le {v : U32} (small : v.toNat ≤ 31) : v &&& TLB_INDEX_MASK = v := by
  apply BitVec.eq_of_toNat_eq
  rw [BitVec.toNat_and]
  exact Nat.and_two_pow_sub_one_of_lt_two_pow (n := 5) (by omega)

theorem WiredSafe.same (safe : WiredSafe c) (wired : d.cop0 Cop0Reg.Wired = c.cop0 Cop0Reg.Wired)
    (random : d.cop0 Cop0Reg.Random = c.cop0 Cop0Reg.Random) : WiredSafe d := by
  refine ⟨?_, ?_⟩
  · rw [wired, random]
    exact safe.wired
  · rw [random]
    exact safe.last

theorem WiredSafe.setOther (safe : WiredSafe c) {i : BitVec 5} (v : U32)
    (wired : i ≠ Cop0Reg.Wired) (random : i ≠ Cop0Reg.Random) : WiredSafe (c.setCop0Reg i v) := by
  apply safe.same
  · rw [cop0_setCop0Reg, if_neg wired.symm]
  · rw [cop0_setCop0Reg, if_neg random.symm]

theorem wiredSafe_setCop0Value (i : BitVec 5) (v : U32) (safe : WiredSafe c) :
    WiredSafe (c.setCop0Value i v) := by
  by_cases wired : i = Cop0Reg.Wired
  · subst wired
    have random : (c.setCop0Value Cop0Reg.Wired v).cop0 Cop0Reg.Random = 31 := rfl
    have limit : (c.setCop0Value Cop0Reg.Wired v).cop0 Cop0Reg.Wired = v &&& TLB_INDEX_MASK := rfl
    refine ⟨?_, ?_⟩
    · rw [random, limit]
      exact index_le v
    · rw [random]
      decide
  · by_cases random : i = Cop0Reg.Random
    · rw [setCop0Value, if_pos (Or.inl random)]
      exact safe
    · have one (w : U32) : WiredSafe (c.setCop0Reg i w) := safe.setOther w wired random
      simp only [setCop0Value, if_neg wired]
      split_ifs
      · exact safe
      · exact one _
      · exact one _
      · exact one _
      · exact one _
      · exact one _
      · exact (one _).setOther _ (by decide) (by decide)
      · exact one _
      · exact one _

theorem wiredSafe_bumpCount (safe : WiredSafe c) : WiredSafe c.bumpCount := by
  have counted (v : U32) : WiredSafe (c.setCop0Reg Cop0Reg.Count v) :=
    safe.setOther v (by decide) (by decide)
  simp only [bumpCount]
  split
  · exact (counted _).setOther _ (by decide) (by decide)
  · exact counted _

theorem wiredSafe_advanceCount (safe : WiredSafe c) : WiredSafe c.advanceCount := by
  have bumped := wiredSafe_bumpCount safe
  simp only [advanceCount]
  generalize c.bumpCount = b at bumped
  have low := bumped.wired
  have high := bumped.last
  have wired (v : U32) : (b.setCop0Reg Cop0Reg.Random v).cop0 Cop0Reg.Wired =
    b.cop0 Cop0Reg.Wired := rfl
  have random (v : U32) : (b.setCop0Reg Cop0Reg.Random v).cop0 Cop0Reg.Random = v := rfl
  rw [index_of_le high, index_of_le (Nat.le_trans low high)]
  by_cases least : b.cop0 Cop0Reg.Random ≤ b.cop0 Cop0Reg.Wired
  · rw [if_pos least]
    refine ⟨?_, ?_⟩
    · rw [wired, random]
      exact Nat.le_trans low high
    · rw [random]
      decide
  · have above : (b.cop0 Cop0Reg.Wired).toNat < (b.cop0 Cop0Reg.Random).toNat :=
      Nat.lt_of_not_le least
    have less : (b.cop0 Cop0Reg.Random - 1).toNat = (b.cop0 Cop0Reg.Random).toNat - 1 := by
      apply BitVec.toNat_sub_of_le
      exact Nat.one_le_of_lt above
    rw [if_neg least]
    refine ⟨?_, ?_⟩
    · rw [wired, random, less]
      omega
    · rw [random, less]
      omega

theorem wiredSafe_retire (safe : WiredSafe c) : WiredSafe c.retire := by
  have zeroed : WiredSafe { c with gpr := Function.update c.gpr 0 0 } := ⟨safe.wired, safe.last⟩
  have counted := wiredSafe_advanceCount zeroed
  exact ⟨counted.wired, counted.last⟩

theorem Clocked.wiredSafe (h : Clocked executes c d) (safe : WiredSafe c) : WiredSafe d := by
  obtain ⟨e, moved, retired⟩ := h
  have left : WiredSafe e := by
    rcases moved with same | ⟨insn, v, b, _, _, before, set⟩
    · exact same.wiredSafe safe
    · exact set.wiredSafe (wiredSafe_setCop0Value _ v (before.wiredSafe safe))
  have ended := wiredSafe_retire left
  refine ⟨?_, ?_⟩
  · rw [retired.cop0]
    exact ended.wired
  · rw [retired.cop0]
    exact ended.last

end Registers

section Acts

variable {fp : HostFpu} {s t : Sys} {insn : U32}

theorem wiredSafe_perform (a : CpuAct) (safe : WiredSafe s.cpu) :
    WiredSafe (a.perform fp s).cpu := by
  cases a with
  | step =>
    cases halted : s.cpu.halted with
    | true =>
      have idle : step fp s = s.onCpu fun c => { c with cycles := c.cycles + 1 } := by
        rw [step, if_pos halted]
      show WiredSafe (step fp s).cpu
      rw [idle]
      exact ⟨safe.wired, safe.last⟩
    | false => exact (step_clocked fp halted).wiredSafe safe
  | cached insn => exact (blockInsn_clocked fp s insn).wiredSafe safe
  | device a => exact (keepsClocks_offLine (frame_perform a s).cpu).wiredSafe safe
  | rcpInterrupt level => exact (keepsClocks_setRcpInterrupt level).wiredSafe safe
  | setCop0 i value =>
    show WiredSafe (setCop0 s i value).cpu
    rw [setCop0_cpu]
    exact wiredSafe_setCop0Value i value safe
  | setGpr i value => exact (straight_writeGpr i value).clocks.wiredSafe safe
  | _ => exact ⟨safe.wired, safe.last⟩

/-- An instruction writes the TLB at Index, if it is TLBWI, or at Random. -/
def WritesTlb (insn : U32) (c d : Cpu) : Prop :=
  d.tlb = c.tlb ∨ ∃ index entry, (isTlbWriteIndexed insn ∨ index = c.cop0 Cop0Reg.Random) ∧
    d.tlb = Function.update c.tlb (index.setWidth 5) entry

theorem cop0Only_tlb {c d : Cpu} (h : Cop0Only c d) : d.tlb = c.tlb := by
  rw [h]

theorem raised_tlb (c : Cpu) (code ce : U32) (bad : U64) (refill : Bool) :
    (c.raiseException code bad ce refill).tlb = c.tlb := by
  rw [raiseException_with]

theorem effect_tlb (h : s.Effect insn t) : WritesTlb insn s.cpu t.cpu := by
  cases h with
  | cpu h =>
    cases h with
    | straight same => exact Or.inl same.tlb
    | branch same => exact Or.inl same.tlb
    | raised fcr31 unknown llBit miss => exact Or.inl (raised_tlb _ _ _ _ _)
  | load _ _ same => exact Or.inl same.tlb
  | linked _ _ _ same => exact Or.inl same.tlb
  | @store _ _ _ _ t _ before wrote =>
    have stored : t.cpu.tlb = s.cpu.tlb :=
      cop0Only_tlb (cop0Only_of_offLine (stored_cpu before wrote))
    exact Or.inl stored
  | conditional _ _ _ _ wrote =>
    have kept := cop0Only_tlb (cop0Only_of_offLine wrote.frame.cpu)
    exact Or.inl ((straight_writeGpr _ _).tlb.trans kept)
  | refused _ same => exact Or.inl same.tlb
  | setCop0 _ _ v =>
    rw [setCop0_cpu]
    exact Or.inl (cop0Only_tlb (cop0Only_setCop0Value _ v))
  | tlbRead => exact Or.inl rfl
  | tlbWrite _ index source => exact Or.inr ⟨index, _, source.imp_left And.right, rfl⟩
  | tlbProbe => exact Or.inl (cop0Only_tlb cop0Only_tlbProbe)
  | eret => exact Or.inl rfl

theorem retire_tlb (c : Cpu) : c.retire.tlb = c.tlb := by
  rw [retire_with]

theorem advancePc_tlb (c : Cpu) (pc : U64) (slot : Bool) : (c.advancePc pc slot).tlb = c.tlb := by
  unfold advancePc
  split_ifs <;> rfl

theorem finish_tlb (h : Finish insn s t) : WritesTlb insn s.cpu t.cpu := by
  have entered : s.cpu.enterStep.tlb = s.cpu.tlb := by
    unfold enterStep
    split <;> rfl
  cases h with
  | faulted =>
    refine Or.inl ?_
    exact (retire_tlb _).trans ((raised_tlb _ _ _ _ _).trans entered)
  | @completed e effect =>
    have ended : (e.cpu.advancePc s.cpu.pc s.cpu.branchPending).retire.tlb = e.cpu.tlb :=
      (retire_tlb _).trans (advancePc_tlb _ _ _)
    rcases effect_tlb effect with same | ⟨index, entry, source, set⟩
    · exact Or.inl (ended.trans (same.trans entered))
    · refine Or.inr ⟨index, entry, ?_, ?_⟩
      · rw [Sys.onCpu_cpu, enterStep_cop0] at source
        exact source
      · rw [Sys.onCpu_cpu, entered] at set
        exact ended.trans set

theorem WritesTlb.keeps {c d : Cpu} (h : WritesTlb insn c d) (safe : WiredSafe c)
    (other : ¬ isTlbWriteIndexed insn) : KeepsWired c d := by
  intro i below
  rcases h with same | ⟨index, entry, source, set⟩
  · rw [same]
  · have random := source.resolve_left other
    have apart : i ≠ index.setWidth 5 := by
      intro same
      have low := safe.wired
      have high := safe.last
      rw [same, random, BitVec.toNat_setWidth, Nat.mod_eq_of_lt (by omega)] at below
      omega
    rw [set, Function.update_of_ne apart]

theorem keepsWired_same {c d : Cpu} (h : d.tlb = c.tlb) : KeepsWired c d := by
  intro i _
  rw [h]

theorem keepsWired_step (safe : WiredSafe s.cpu)
    (other : ∀ insn, CpuAct.step.Executes s insn → ¬ isTlbWriteIndexed insn) :
    KeepsWired s.cpu (step fp s).cpu := by
  have effect := step_cases fp s
  generalize step fp s = t at effect ⊢
  cases effect with
  | halted => exact keepsWired_same rfl
  | interrupt => exact keepsWired_same ((retire_tlb _).trans (raised_tlb _ _ _ _ _))
  | fetchFault => exact keepsWired_same ((retire_tlb _).trans (raised_tlb _ _ _ _ _))
  | @executed running insn p u t aligned translated read _ finish =>
    have value : (Bus.read32 s p).1 = insn :=
      (congrArg Prod.fst (read32_onCpu s p markSlot)).symm.trans (congrArg Prod.fst read)
    have written := finish_tlb finish
    rw [fetched_cpu read] at written
    exact written.keeps ⟨safe.wired, safe.last⟩
      (other insn ⟨running, p, aligned, translated, value⟩)

theorem keepsWired_blockInsn (safe : WiredSafe s.cpu) (other : ¬ isTlbWriteIndexed insn) :
    KeepsWired s.cpu (blockInsn fp s insn).2.cpu := by
  have effect := blockInsn_cases fp s insn
  generalize (blockInsn fp s insn).2 = t at effect ⊢
  cases effect with
  | interrupt => exact keepsWired_same ((retire_tlb _).trans (raised_tlb _ _ _ _ _))
  | executed _ finish =>
    have written := finish_tlb finish
    exact written.keeps ⟨safe.wired, safe.last⟩ other

theorem keepsWired_perform {a : CpuAct} (safe : WiredSafe s.cpu)
    (other : ∀ insn, a.Executes s insn → ¬ isTlbWriteIndexed insn) :
    KeepsWired s.cpu (a.perform fp s).cpu := by
  cases a with
  | step => exact keepsWired_step safe other
  | cached insn => exact keepsWired_blockInsn safe (other insn rfl)
  | device a => exact keepsWired_same (cop0Only_tlb (cop0Only_of_offLine (frame_perform a s).cpu))
  | rcpInterrupt level =>
    have only := cop0Only_of_offLine (offLine_setRcpInterrupt s.cpu level)
    exact keepsWired_same (cop0Only_tlb only)
  | setCop0 i value =>
    apply keepsWired_same
    show (setCop0 s i value).cpu.tlb = _
    rw [setCop0_cpu]
    exact cop0Only_tlb (cop0Only_setCop0Value i value)
  | setGpr i value => exact keepsWired_same (straight_writeGpr i value).tlb
  | _ => exact keepsWired_same rfl

/-- From a reset on, Random is never below Wired, and no act but a TLBWI writes
an entry below Wired. -/
theorem wired_entries_safe (fp : HostFpu) (s₀ : Sys) (acts : List CpuAct) :
    let s := Runs.run (CpuAct.perform fp) acts s₀.reset
    (s.cpu.cop0 Cop0Reg.Wired).toNat ≤ (s.cpu.cop0 Cop0Reg.Random).toNat ∧
      (s.cpu.cop0 Cop0Reg.Random).toNat ≤ 31 ∧
      ∀ a : CpuAct, (∀ insn, a.Executes s insn → ¬ isTlbWriteIndexed insn) →
        ∀ i : BitVec 5, i.toNat < (s.cpu.cop0 Cop0Reg.Wired).toNat →
          (a.perform fp s).cpu.tlb i = s.cpu.tlb i := by
  intro s
  have safe : WiredSafe s.cpu := run_preserves (P := fun s : Sys => WiredSafe s.cpu)
    (fun a _ h => wiredSafe_perform a h) acts ⟨Nat.zero_le _, Nat.le_refl 31⟩
  refine ⟨safe.wired, safe.last, ?_⟩
  intro a other
  exact keepsWired_perform safe other

/-- A TLBWR with thirty entries wired. -/
theorem wired_entries_safe_tlbwr :
    let s := Runs.run (CpuAct.perform default) [.setCop0 Cop0Reg.Wired 30] ({} : Sys).reset
    ((CpuAct.cached 0x42000006).perform default s).cpu.tlb 29 = s.cpu.tlb 29 := by
  intro s
  have safe := wired_entries_safe default {} [.setCop0 Cop0Reg.Wired 30]
  apply safe.2.2 (.cached 0x42000006)
  · intro insn executes writes
    rw [show insn = 0x42000006 from executes.symm] at writes
    exact absurd writes.2.2 (by decide)
  · decide

end Acts

end Cpu

end N64
