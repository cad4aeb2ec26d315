import N64Emu.BlockSteps
import N64Emu.CacheInvariant
import N64Emu.InterruptReturn
import N64Emu.Reservation
import N64Emu.TimerInterrupt
import N64Emu.UserMode

/-!
# Cached translations

A block is found by its virtual address and runs without a translation. A slot
stays good while the mapping, the address space and the mode stay, or when the
cache is flushed. ERET changes the mode and flushes nothing.
-/

set_option autoImplicit false

namespace N64

open Words Loops Insn Runs

namespace BlockCache

/-- Every valid slot of `d` has the content it had in `c`. -/
def Shrinks (c d : BlockCache) : Prop :=
  ∀ i, (d.table i).valid = true → (d.table i).content = (c.table i).content

def Emptied (c : BlockCache) : Prop := ∀ i < kDirectTableSize, (c.table i).valid = false

section Shrinks

variable {c d e : BlockCache}

theorem shrinks_refl (c : BlockCache) : Shrinks c c := fun _ _ => rfl

theorem Shrinks.trans (h : Shrinks c d) (k : Shrinks d e) : Shrinks c e := by
  intro i valid
  have later := k i valid
  have before : (d.table i).valid = true := (content_eq later).1.symm.trans valid
  exact later.trans (h i before)

theorem Shrinks.emptied (h : Shrinks c d) (empty : c.Emptied) : d.Emptied := by
  intro i inside
  by_contra live
  have valid : (d.table i).valid = true := by simpa using live
  have before : (c.table i).valid = true := (content_eq (h i valid)).1.symm.trans valid
  rw [empty i inside] at before
  cases before

theorem shrinks_invalidateSlot (c : BlockCache) (i : ℕ) : Shrinks c (c.invalidateSlot i) := by
  unfold invalidateSlot
  by_cases invalid : (!(c.table i).valid) = true
  · rw [if_pos invalid]
    exact shrinks_refl c
  · rw [if_neg invalid]
    intro j valid
    by_cases here : j = i
    · subst here
      simp [setSlot] at valid
    · simp only [setSlot, Function.update_of_ne here]
      exact content_unmark i j

theorem shrinks_invalidateWord (paddr pEnd word : ℕ) (c : BlockCache) :
    Shrinks c (invalidateWord paddr pEnd word c) := by
  dsimp only [invalidateWord]
  split
  · exact shrinks_invalidateSlot c _
  · exact shrinks_refl c

theorem shrinks_invalidateAliased (paddr pEnd : ℕ) (t : BlockCache × ℕ) :
    Shrinks t.1 (invalidateAliased paddr pEnd t).1 := by
  dsimp only [invalidateAliased]
  split
  · exact shrinks_invalidateSlot t.1 _
  · exact shrinks_refl t.1

theorem emptied_clear (c : BlockCache) : c.clear.Emptied := by
  intro i inside
  simp [clear, inside]

theorem shrinks_clear (c : BlockCache) : Shrinks c c.clear := by
  intro i valid
  by_cases inside : i < kDirectTableSize
  · rw [emptied_clear c i inside] at valid
    cases valid
  · simp only [clear, if_neg inside]

theorem shrinks_invalidate (c : BlockCache) (paddr : PhysicalAddress) (size : U32) :
    Shrinks c (c.invalidate paddr size) := by
  unfold invalidate
  split_ifs
  · exact shrinks_clear c
  · exact shrinks_clear c
  · have direct := upTo_rel Shrinks shrinks_refl (fun h k => h.trans k)
      ((paddr.toNat + size.toNat - 1) / 4 + 1 - (paddr.toNat / 4 - kMaxBlockInsns)) c
      fun i t => shrinks_invalidateWord paddr.toNat (paddr.toNat + size.toNat)
        (paddr.toNat / 4 - kMaxBlockInsns + i) t
    refine direct.trans ?_
    exact whileDo_rel (fun a b : BlockCache × ℕ => Shrinks a.1 b.1) (fun a => shrinks_refl a.1)
      (fun h k => h.trans k) _ _ fun t => shrinks_invalidateAliased _ _ t

theorem shrinks_onEvent (c : BlockCache) (e : Event) : Shrinks c (c.onEvent e) := by
  cases e with
  | notify p n =>
    dsimp only [onEvent]
    split
    · exact shrinks_invalidate c _ n
    · exact shrinks_refl c
  | flush => exact shrinks_clear c
  | load p n => exact shrinks_refl c
  | store p n => exact shrinks_refl c
  | wrote cell => exact shrinks_refl c

theorem shrinks_onEvents (es : List Event) (c : BlockCache) :
    Shrinks c (es.foldl onEvent c) := by
  induction es generalizing c with
  | nil => exact shrinks_refl c
  | cons e es ih => exact (shrinks_onEvent c e).trans (ih _)

theorem emptied_onEvents {es : List Event} (flush : Event.flush ∈ es) (c : BlockCache) :
    (es.foldl onEvent c).Emptied := by
  induction es generalizing c with
  | nil => cases flush
  | cons e es ih =>
    rcases List.mem_cons.mp flush with rfl | later
    · exact (shrinks_onEvents es _).emptied (emptied_clear c)
    · exact ih later _

theorem content_insert (c : BlockCache) (vaddr : U64) (blk : BasicBlock) (i : ℕ) :
    ((c.insert vaddr blk).table i).content =
      if i = slotIndex vaddr then (true, vaddr, blk) else (c.table i).content := by
  have filled : ((c.insert vaddr blk).table i).content =
      (((c.unmarkPhysicallyAliased (slotIndex vaddr)).setSlot (slotIndex vaddr)
        (((c.unmarkPhysicallyAliased (slotIndex vaddr)).table (slotIndex vaddr)).filled
          vaddr blk)).table i).content := by
    dsimp only [insert]
    split
    · rfl
    · rw [content_mark]
      rfl
  rw [filled]
  split
  case isTrue here =>
    subst here
    simp only [setSlot, Function.update_self]
    rfl
  case isFalse apart =>
    simp only [setSlot, Function.update_of_ne apart]
    exact content_unmark _ i

end Shrinks

end BlockCache

namespace Cpu

def Opens (mode : ℕ) (v : U32) : Prop :=
  mode = 0 ∨ v.toNat < 0x80000000 ∨ mode = 1 ∧ 0xC0000000 ≤ v.toNat ∧ v.toNat < 0xE0000000

/-- The same TLB and the same address space. -/
structure SameSpace (c d : Cpu) : Prop where
  tlb : d.tlb = c.tlb
  asid : d.cop0 Cop0Reg.EntryHi &&& 0xFF = c.cop0 Cop0Reg.EntryHi &&& 0xFF

section Spaces

variable {c d e : Cpu}

theorem SameSpace.trans (h : SameSpace c d) (k : SameSpace d e) : SameSpace c e :=
  ⟨k.tlb.trans h.tlb, k.asid.trans h.asid⟩

theorem opens_of_translates {vaddr : U64} {isStore : Bool} {p : PhysicalAddress}
    (translated : c.translateAddress vaddr isStore = .ok p) :
    Opens c.mode (vaddr.setWidth 32) := by
  unfold translateAddress at translated
  dsimp only at translated
  unfold Opens
  split_ifs at translated <;> omega

theorem SameSpace.translates (h : SameSpace c d) {vaddr : U64} {isStore : Bool}
    {p : PhysicalAddress} (translated : c.translateAddress vaddr isStore = .ok p)
    (opens : Opens d.mode (vaddr.setWidth 32)) : d.translateAddress vaddr isStore = .ok p := by
  have before := opens_of_translates translated
  have entries : d.tlbEntries = c.tlbEntries := by rw [tlbEntries, tlbEntries, h.tlb]
  unfold Opens at opens before
  unfold translateAddress at translated ⊢
  dsimp only at translated ⊢
  rw [h.asid, entries]
  rw [if_neg (by omega)] at translated ⊢
  by_cases cached : 0x80000000 ≤ (vaddr.setWidth 32 : U32).toNat ∧
      (vaddr.setWidth 32 : U32).toNat ≤ 0x9FFFFFFF
  · rw [if_pos cached, if_neg (by omega)] at translated ⊢
    exact translated
  · rw [if_neg cached] at translated ⊢
    by_cases uncached : 0xA0000000 ≤ (vaddr.setWidth 32 : U32).toNat ∧
        (vaddr.setWidth 32 : U32).toNat ≤ 0xBFFFFFFF
    · rw [if_pos uncached, if_neg (by omega)] at translated ⊢
      exact translated
    · rw [if_neg uncached] at translated ⊢
      exact translated

theorem mode_of_status (h : d.status = c.status) : d.mode = c.mode := by
  rw [mode, mode, h]

theorem Confined.sameSpace (h : Confined c d) : SameSpace c d :=
  ⟨h.tlb, by rw [h.regs Cop0Reg.EntryHi (by decide) (by decide) (by decide)]⟩

theorem Confined.mode_eq (h : Confined c d) : d.mode = c.mode :=
  mode_of_status (h.regs Cop0Reg.Status (by decide) (by decide) (by decide))

/-- An exception is taken in kernel mode and the address space of the CPU. -/
theorem sameSpace_raiseException (code ce : U32) (bad : U64) (refill : Bool) :
    SameSpace c (c.raiseException code bad ce refill) ∧
      (c.raiseException code bad ce refill).mode = 0 := by
  refine ⟨⟨?_, ?_⟩, ?_⟩
  · rw [raiseException_with]
  · have apart : Cop0Reg.EntryHi ≠ Cop0Reg.Status ∧ Cop0Reg.EntryHi ≠ Cop0Reg.Cause ∧
        Cop0Reg.EntryHi ≠ Cop0Reg.EPC ∧ Cop0Reg.EntryHi ≠ Cop0Reg.BadVAddr ∧
        Cop0Reg.EntryHi ≠ Cop0Reg.Context := by decide
    have entry : (enterCause { c with exceptionCount := c.exceptionCount + 1 } code ce).cop0
        Cop0Reg.EntryHi = c.cop0 Cop0Reg.EntryHi := by
      simp only [enterCause]
      split_ifs <;> simp [cop0_setCop0Reg, apart]
    have page : (bad.setWidth 32 &&& 0xFFFFE000) &&& (0xFF : U32) = 0 := by
      rw [BitVec.and_assoc]
      exact BitVec.and_zero
    rw [raiseException_eq]
    show (c.entered code ce bad).cop0 Cop0Reg.EntryHi &&& 0xFF = _
    rw [entered, cop0_setCop0Reg, if_neg apart.1]
    simp only [enterBadVaddr]
    split_ifs
    · simp only [cop0_setCop0Reg, if_true, apart, if_false, entry]
      rw [or_and_of_disjoint _ page, BitVec.and_assoc, BitVec.and_self]
    · simp only [cop0_setCop0Reg, if_true, apart, if_false, entry]
      rw [or_and_of_disjoint _ page, BitVec.and_assoc, BitVec.and_self]
    · simp only [cop0_setCop0Reg, apart, if_false, entry]
    · rw [entry]
  · have level : (c.raiseException code bad ce refill).status = c.status ||| SR_EXL := by
      rw [raiseException_eq]
      exact entered_status c code ce bad
    have set : (c.status ||| SR_EXL) &&& (SR_EXL ||| SR_ERL) ≠ 0 := by
      intro clear
      have bit := congrArg (fun x => x.getLsbD 1) clear
      simp [SR_EXL, SR_ERL] at bit
    rw [mode, level, if_pos set]

end Spaces

end Cpu

/-- The mapping stays, and the mode stays or becomes kernel mode; or the cache
is flushed. -/
inductive Remaps (s t : Sys) : Prop
  | kept (space : Cpu.SameSpace s.cpu t.cpu)
      (mode : t.cpu.mode = s.cpu.mode ∨ t.cpu.mode = 0)
  | flushed (flush : Event.flush ∈ t.log)

open Cpu

section Remapping

variable {c d : Cpu} {s t u : Sys} {insn : U32}

theorem remaps_confined (h : Confined s.cpu t.cpu) : Remaps s t :=
  .kept h.sameSpace (Or.inl h.mode_eq)

theorem remaps_raised {code ce : U32} {bad : U64} {refill : Bool} (before : Confined s.cpu c)
    (after : Confined (c.raiseException code bad ce refill) t.cpu) : Remaps s t := by
  obtain ⟨space, kernel⟩ := sameSpace_raiseException (c := c) code ce bad refill
  refine .kept ((before.sameSpace.trans space).trans after.sameSpace) (Or.inr ?_)
  rw [after.mode_eq, kernel]

theorem sameSpace_setCop0Value {i : BitVec 5} (v : U32)
    (other : ¬(i = Cop0Reg.EntryHi ∨ i = Cop0Reg.Status)) :
    SameSpace c (c.setCop0Value i v) ∧ (c.setCop0Value i v).mode = c.mode := by
  obtain ⟨space, level⟩ := not_or.mp other
  have kept (j : BitVec 5) (apart : i ≠ j) (random : j ≠ Cop0Reg.Random)
      (cause : j ≠ Cop0Reg.Cause) : (c.setCop0Value i v).cop0 j = c.cop0 j := by
    simp only [setCop0Value]
    split_ifs <;> simp [cop0_setCop0Reg, Ne.symm apart, random, cause]
  have tlb : (c.setCop0Value i v).tlb = c.tlb := by rw [cop0Only_setCop0Value i v]
  refine ⟨⟨tlb, ?_⟩, ?_⟩
  · rw [kept _ space (by decide) (by decide)]
  · exact mode_of_status (kept _ level (by decide) (by decide))

theorem remaps_setCop0 (i : BitVec 5) (v : U32) : Remaps s (setCop0 s i v) := by
  unfold setCop0
  dsimp only
  split
  case isTrue => exact .flushed (List.mem_append_right _ (List.mem_singleton_self _))
  case isFalse other =>
    obtain ⟨space, same⟩ := sameSpace_setCop0Value (c := s.cpu) v other
    exact .kept space (Or.inl same)

theorem effect_remaps (h : s.Effect insn t) :
    Remaps s t ∨ s.cpu.coprocessorUsable 0 = true ∧ isEret insn := by
  cases h with
  | cpu h =>
    cases h with
    | straight same => exact Or.inl (remaps_confined same.confined)
    | branch same => exact Or.inl (remaps_confined same.confined)
    | raised fcr31 unknown llBit =>
      have stopped : Confined s.cpu (s.cpu.atFault fcr31 unknown llBit) := confined_same rfl rfl
      exact Or.inl (remaps_raised stopped (confined_same rfl rfl))
  | load _ _ same => exact Or.inl (remaps_confined same.confined)
  | linked _ _ _ same =>
    refine Or.inl (remaps_confined ?_)
    exact confined_same same.tlb same.cop0
  | store _ before wrote =>
    have written := confined_of_offLine (stored_cpu before wrote)
    refine Or.inl (remaps_confined ?_)
    exact written.trans (confined_same rfl rfl)
  | conditional _ _ _ _ wrote =>
    have cleared : Confined s.cpu s.cpu.clearLlBit := confined_same rfl rfl
    have written : Confined s.cpu.clearLlBit _ := confined_of_offLine wrote.frame.cpu
    refine Or.inl (remaps_confined ?_)
    exact (cleared.trans written).trans (straight_writeGpr _ _).confined
  | refused _ same =>
    refine Or.inl (remaps_confined ?_)
    exact confined_same same.tlb same.cop0
  | setCop0 _ _ v => exact Or.inl (remaps_setCop0 _ v)
  | tlbRead => exact Or.inl (.flushed (List.mem_append_right _ (List.mem_singleton_self _)))
  | tlbWrite => exact Or.inl (.flushed (List.mem_append_right _ (List.mem_singleton_self _)))
  | tlbProbe =>
    have index (v : U32) : SameSpace s.cpu (s.cpu.setCop0Reg Cop0Reg.Index v) ∧
        (s.cpu.setCop0Reg Cop0Reg.Index v).mode = s.cpu.mode := ⟨⟨rfl, rfl⟩, rfl⟩
    have probed : SameSpace s.cpu s.cpu.tlbProbe ∧ s.cpu.tlbProbe.mode = s.cpu.mode := by
      unfold tlbProbe
      dsimp only
      split
      · exact index _
      · exact index _
    exact Or.inl (.kept probed.1 (Or.inl probed.2))
  | eret usable code => exact Or.inr ⟨usable, code⟩

theorem Remaps.after (h : Remaps s t) (same : Confined t.cpu u.cpu)
    (logged : ∀ e ∈ t.log, e ∈ u.log) : Remaps s u := by
  cases h with
  | kept space mode =>
    refine .kept (space.trans same.sameSpace) ?_
    rw [same.mode_eq]
    exact mode
  | flushed flush => exact .flushed (logged _ flush)

theorem Remaps.before (h : Confined s.cpu t.cpu) (k : Remaps t u) : Remaps s u := by
  cases k with
  | kept space mode =>
    refine .kept (h.sameSpace.trans space) ?_
    rw [← h.mode_eq]
    exact mode
  | flushed flush => exact .flushed flush

theorem finish_remaps (h : Finish insn s t) :
    Remaps s t ∨ s.cpu.coprocessorUsable 0 = true ∧ isEret insn := by
  have entered : Confined s.cpu s.cpu.enterStep := confined_enterStep
  cases h with
  | faulted fcr31 unknown llBit miss =>
    rename_i code ce bad refill
    have stopped : Confined s.cpu.enterStep (s.cpu.enterStep.atFault fcr31 unknown llBit) :=
      confined_same rfl rfl
    have left : Confined
        ((s.cpu.enterStep.atFault fcr31 unknown llBit).raiseException code bad ce refill) _ :=
      confined_retire
    exact Or.inl (remaps_raised (entered.trans stopped) (left.trans (confined_same rfl rfl)))
  | completed effect =>
    rcases effect_remaps effect with remaps | ⟨usable, code⟩
    · left
      have closed := remaps.before (s := s) entered
      exact closed.after ((confined_advancePc _ _).trans confined_retire) fun _ => id
    · right
      have able : s.cpu.enterStep.coprocessorUsable 0 = s.cpu.coprocessorUsable 0 := by
        unfold coprocessorUsable kernelMode status
        rw [enterStep_cop0]
      exact ⟨able.symm.trans usable, code⟩

theorem remaps_interrupt (s : Sys) :
    Remaps s (s.onCpu fun c => (c.raise ExcCode.Int).retire) := by
  have whole : Confined s.cpu s.cpu := confined_same rfl rfl
  exact remaps_raised whole confined_retire

theorem read32_log (s : Sys) (p : PhysicalAddress) : (Bus.read32 s p).2.log = s.log := by
  rcases read32_cases s p with same | ⟨-, taken⟩
  · rw [same]
  · rw [taken]

theorem step_remaps {fp : HostFpu} (h : StepEffect fp s t) : Remaps s t ∨
    ∃ insn, CpuAct.step.Executes s insn ∧ s.cpu.coprocessorUsable 0 = true ∧ isEret insn := by
  cases h with
  | halted =>
    refine Or.inl (remaps_confined ?_)
    exact confined_same rfl rfl
  | interrupt => exact Or.inl (remaps_interrupt s)
  | fetchFault =>
    have marked : Confined s.cpu s.cpu.markSlot := confined_same rfl rfl
    exact Or.inl (remaps_raised marked confined_retire)
  | @executed running insn p u t aligned translated read ran finish =>
    have cpu := fetched_cpu read
    have marked : Confined s.cpu u.cpu := by
      rw [cpu]
      exact confined_same rfl rfl
    rcases finish_remaps finish with remaps | ⟨usable, code⟩
    · left
      have closed := remaps.before marked
      have same : Confined t.cpu t.cpu := confined_same rfl rfl
      exact closed.after same fun e member => List.mem_append_left _ member
    · right
      refine ⟨insn, (step_executes_iff running aligned translated read insn).mpr rfl, ?_, code⟩
      rw [cpu] at usable
      exact usable

theorem cached_remaps {fp : HostFpu} (h : CachedEffect fp s insn t) :
    Remaps s t ∨ s.cpu.coprocessorUsable 0 = true ∧ isEret insn := by
  cases h with
  | interrupt => exact Or.inl (remaps_interrupt s)
  | executed ran finish =>
    have marked : Confined s.cpu s.cpu.markSlot := confined_same rfl rfl
    rcases finish_remaps finish with remaps | eret
    · exact Or.inl (remaps.before (t := s.onCpu markSlot) marked)
    · exact Or.inr eret

end Remapping

def CpuAct.Returns (s : Sys) (a : CpuAct) : Prop :=
  ∃ insn, a.Executes s insn ∧ isEret insn ∧ ¬s.cpu.TakesInterrupt ∧
    s.cpu.coprocessorUsable 0 = true

section Acts

variable {fp : HostFpu} {s u : Sys} {a : CpuAct} {insn : U32}

theorem act_remaps (fp : HostFpu) (a : CpuAct) (other : ¬a.Returns s) :
    Remaps s (a.perform fp s) := by
  cases a with
  | step =>
    rcases step_remaps (step_cases fp s) with remaps | ⟨insn, executes, usable, code⟩
    · exact remaps
    · by_cases taken : s.cpu.TakesInterrupt
      · have interrupted := step_interrupted fp executes.1 taken.1 taken.2
        show Remaps s (step fp s)
        rw [interrupted]
        exact remaps_interrupt s
      · exact absurd ⟨insn, executes, code, taken, usable⟩ other
  | cached insn =>
    rcases cached_remaps (blockInsn_cases fp s insn) with remaps | ⟨usable, code⟩
    · exact remaps
    · by_cases taken : s.cpu.TakesInterrupt
      · show Remaps s (blockInsn fp s insn).2
        rw [blockInsn_taken fp insn taken]
        exact remaps_interrupt s
      · exact absurd ⟨insn, rfl, code, taken, usable⟩ other
  | device a => exact remaps_confined (confined_of_offLine (frame_perform a s).cpu)
  | rcpInterrupt level =>
    exact remaps_confined (confined_of_offLine (offLine_setRcpInterrupt s.cpu level))
  | setGpr i value => exact remaps_confined (straight_writeGpr i value).confined
  | setHiLo hi lo => exact remaps_confined (straight_setHiLo hi lo).confined
  | setCop0 i value => exact remaps_setCop0 i value
  | setPc pc =>
    refine remaps_confined ?_
    exact confined_same rfl rfl
  | setFpr i value =>
    refine remaps_confined ?_
    exact confined_same rfl rfl
  | setHalted halted =>
    refine remaps_confined ?_
    exact confined_same rfl rfl

theorem finishStep_eret (fp : HostFpu) (cpu : u.cpu = s.cpu.markSlot) (code : isEret insn)
    (usable : s.cpu.coprocessorUsable 0 = true) :
    finishStep fp u u.cpu.pc u.cpu.branchPending u.cpu.exceptionCount insn =
      { u with cpu := returning s.cpu } := by
  have able : (u.onCpu enterStep).cpu.coprocessorUsable 0 = true := by
    rw [Sys.onCpu_cpu, cpu]
    unfold coprocessorUsable kernelMode status at usable ⊢
    rw [enterStep_cop0]
    exact usable
  have executed : execute fp (u.onCpu enterStep) insn =
      u.onCpu fun c => c.enterStep.doEret := execute_isEret fp code able
  have counted : u.cpu.enterStep.doEret.exceptionCount = u.cpu.exceptionCount :=
    enterStep_exceptionCount _
  rw [finishStep, executed]
  simp only [Sys.onCpu_cpu, counted, ne_eq, not_true_eq_false, if_false]
  rw [returning, ← cpu]
  rw [show s.cpu.pc = u.cpu.pc by rw [cpu]; rfl,
    show s.cpu.branchPending = u.cpu.branchPending by rw [cpu]; rfl]
  rfl

theorem act_returns (fp : HostFpu) (returns : a.Returns s) :
    (a.perform fp s).cpu = returning s.cpu ∧
      ∀ c : BlockCache, (a.perform fp s).log.foldl BlockCache.onEvent c =
        s.log.foldl BlockCache.onEvent c := by
  obtain ⟨insn, executes, code, nothing, usable⟩ := returns
  cases a with
  | step =>
    obtain ⟨running, p, aligned, translated, word⟩ := executes
    have read : Bus.read32 (s.onCpu markSlot) p = (insn, (Bus.read32 s p).2.onCpu markSlot) := by
      rw [read32_onCpu, ← word]
      rfl
    have cpu := fetched_cpu read
    have log : ((Bus.read32 s p).2.onCpu markSlot).log = s.log := read32_log s p
    generalize (Bus.read32 s p).2.onCpu markSlot = u at read cpu log
    have fetched := stepInsn_fetched fp aligned translated read
    have went : step fp s = { u with cpu := returning s.cpu }.emitAll [.load p 4] := by
      rw [step_executes running nothing, fetched, ← finishStep_eret fp cpu code usable, cpu]
      rfl
    show (step fp s).cpu = _ ∧ ∀ c : BlockCache, (step fp s).log.foldl _ c = _
    rw [went]
    refine ⟨rfl, ?_⟩
    intro c
    show (u.log ++ [Event.load p 4]).foldl BlockCache.onEvent c = _
    rw [log, List.foldl_append]
    rfl
  | cached other =>
    obtain rfl : other = insn := executes
    have went : (blockInsn fp s other).2 = { s with cpu := returning s.cpu } := by
      rw [blockInsn_executes fp other nothing]
      exact finishStep_eret fp (u := s.onCpu markSlot) rfl code usable
    show (blockInsn fp s other).2.cpu = _ ∧
      ∀ c : BlockCache, (blockInsn fp s other).2.log.foldl _ c = _
    rw [went]
    exact ⟨rfl, fun _ => rfl⟩
  | _ => cases executes

theorem returning_space (c : Cpu) :
    SameSpace c (returning c) ∧ (returning c).mode = c.doEret.mode := by
  have entered : c.markSlot.enterStep.cop0 = c.cop0 := enterStep_cop0 _
  have tlb : c.markSlot.enterStep.tlb = c.tlb := by
    unfold enterStep
    split <;> rfl
  have left : Confined c.markSlot.enterStep.doEret (returning c) :=
    (confined_advancePc _ _).trans confined_retire
  have returned : SameSpace c c.markSlot.enterStep.doEret := by
    have apart : Cop0Reg.EntryHi ≠ Cop0Reg.Status := by decide
    refine ⟨tlb, ?_⟩
    simp only [doEret, cop0_setCop0Reg, if_neg apart, entered]
  refine ⟨returned.trans left.sameSpace, ?_⟩
  rw [left.mode_eq]
  apply mode_of_status
  simp only [doEret, status, cop0_setCop0Reg, if_true, entered]
  rfl

end Acts

namespace Machine

/-- Every valid slot starts where a fetch at its address would read now. -/
def Translated (m : Machine) : Prop :=
  ∀ i < BlockCache.kDirectTableSize, (m.cache.table i).valid = true →
    m.sys.cpu.translateAddress (m.cache.table i).block.startPc false =
      .ok (m.cache.table i).block.paddr

end Machine

/-- What happens to a machine: a block is looked up or compiled, or the system
acts. -/
inductive MachineAct where
  | find
  | act (a : CpuAct)

namespace MachineAct

def perform (fp : HostFpu) : MachineAct → Machine → Machine
  | .find, m => (findBlock m).2
  | .act a, m => m.perform (a.perform fp)

/-- An ERET returns to a mode that may fetch from every valid slot. -/
def Admits : MachineAct → Machine → Prop
  | .find, _ => True
  | .act a, m => a.Returns m.sys → ∀ i < BlockCache.kDirectTableSize,
      (m.cache.table i).valid = true →
        Opens m.sys.cpu.doEret.mode ((m.cache.table i).block.startPc.setWidth 32)

end MachineAct

section Machines

variable {fp : HostFpu} {m : Machine} {t : Sys} {a : CpuAct}

theorem translated_of_emptied (empty : m.cache.Emptied) : m.Translated := by
  intro i inside valid
  rw [empty i inside] at valid
  cases valid

theorem Machine.Translated.commit (h : m.Translated) (space : SameSpace m.sys.cpu t.cpu)
    (opens : ∀ i < BlockCache.kDirectTableSize, (m.cache.table i).valid = true →
      Opens t.cpu.mode ((m.cache.table i).block.startPc.setWidth 32)) :
    (m.commit t).Translated := by
  intro i inside valid
  have same := BlockCache.shrinks_onEvents t.log m.cache i valid
  obtain ⟨live, -, block⟩ := BlockCache.content_eq same
  have before : (m.cache.table i).valid = true := live.symm.trans valid
  change t.cpu.translateAddress
    ((t.log.foldl BlockCache.onEvent m.cache).table i).block.startPc false =
    .ok ((t.log.foldl BlockCache.onEvent m.cache).table i).block.paddr
  rw [block]
  exact space.translates (h i inside before) (opens i inside before)

theorem translated_remaps (h : m.Translated) (remaps : Remaps { m.sys with log := [] } t) :
    (m.commit t).Translated := by
  cases remaps with
  | kept space mode =>
    apply h.commit space
    intro i inside valid
    rcases mode with same | kernel
    · rw [same]
      exact opens_of_translates (h i inside valid)
    · exact Or.inl kernel
  | flushed flush => exact translated_of_emptied (BlockCache.emptied_onEvents flush m.cache)

/-- An ERET keeps the cache as it is, and so the good slots exactly where the
new mode opens their segments. -/
theorem translated_returns (fp : HostFpu) (h : m.Translated) (returns : a.Returns m.sys) :
    (m.perform (a.perform fp)).Translated ↔
      ∀ i < BlockCache.kDirectTableSize, (m.cache.table i).valid = true →
        Opens m.sys.cpu.doEret.mode ((m.cache.table i).block.startPc.setWidth 32) := by
  have fresh : a.Returns { m.sys with log := [] } := by
    obtain ⟨insn, executes, rest⟩ := returns
    exact ⟨insn, executes_relog.mpr executes, rest⟩
  obtain ⟨cpu, cache⟩ := act_returns fp fresh
  obtain ⟨space, mode⟩ := returning_space m.sys.cpu
  have left : (a.perform fp { m.sys with log := [] }).cpu = returning m.sys.cpu := cpu
  have kept : (m.perform (a.perform fp)).cache = m.cache := cache m.cache
  constructor
  · intro good i inside valid
    have translated := good i inside (by rw [kept]; exact valid)
    rw [kept] at translated
    have opens := opens_of_translates translated
    rw [show (m.perform (a.perform fp)).sys.cpu = returning m.sys.cpu from left, mode] at opens
    exact opens
  · intro opens
    apply h.commit (t := a.perform fp { m.sys with log := [] })
    · rw [left]
      exact space
    · rw [left, mode]
      exact opens

theorem translated_act (fp : HostFpu) (h : m.Translated) :
    (m.perform (a.perform fp)).Translated ↔ (MachineAct.act a).Admits m := by
  by_cases returns : a.Returns m.sys
  · rw [translated_returns fp h returns]
    exact ⟨fun opens _ => opens, fun admits => admits returns⟩
  · have other : ¬a.Returns { m.sys with log := [] } := by
      rintro ⟨insn, executes, rest⟩
      exact returns ⟨insn, executes_relog.mp executes, rest⟩
    have remaps : Remaps { m.sys with log := [] } (a.perform fp { m.sys with log := [] }) :=
      act_remaps fp a other
    exact ⟨fun _ here => absurd here returns, fun _ => translated_remaps h remaps⟩

theorem translated_find (h : m.Translated) : (findBlock m).2.Translated := by
  unfold findBlock
  split
  · exact h
  · dsimp only [BlockCache.compile]
    split
    · exact h
    case h_2 p translated =>
      split
      · exact h
      · intro i inside valid
        have content := BlockCache.content_insert m.cache m.sys.cpu.pc
          (BlockCache.buildBlock m.sys m.sys.cpu.pc p) i
        by_cases here : i = BlockCache.slotIndex m.sys.cpu.pc
        · rw [if_pos here] at content
          obtain ⟨-, -, block⟩ := BlockCache.content_eq
            (b := ⟨m.sys.cpu.pc, BlockCache.buildBlock m.sys m.sys.cpu.pc p, true, none⟩) content
          dsimp only
          rw [block]
          exact translated
        · rw [if_neg here] at content
          obtain ⟨live, -, block⟩ := BlockCache.content_eq content
          dsimp only
          rw [block]
          exact h i inside (live.symm.trans valid)

theorem translated_perform (fp : HostFpu) (a : MachineAct) (m : Machine) (h : m.Translated) :
    (a.perform fp m).Translated ↔ a.Admits m := by
  cases a with
  | find => exact ⟨fun _ => trivial, fun _ => translated_find h⟩
  | act a => exact translated_act fp h

end Machines

/-- A call of the host: the CPU runs, or something else acts on the system. -/
inductive MachineCall where
  | run (n : ℕ)
  | act (a : CpuAct)

namespace MachineCall

def perform (fp : HostFpu) : MachineCall → Machine → Machine
  | .run n, m => (Cpu.run fp n m).2
  | .act a, m => m.perform (a.perform fp)

end MachineCall

section Calls

variable (fp : HostFpu)

/-- What one pass of `run` does. -/
def passMoves (n taken : ℕ) (m : Machine) : List MachineAct :=
  (if m.enabled ∧ !m.sys.cpu.branchPending then [.find] else []) ++
    (passActs fp n taken m).map .act

def loopMoves (n : ℕ) : ℕ → ℕ → Machine → List MachineAct
  | 0, _, _ => []
  | fuel+1, taken, m =>
    if taken < n ∧ !m.sys.cpu.halted then
      let (did, m') := runPass fp n taken m
      passMoves fp n taken m ++ loopMoves n fuel (taken + did) m'
    else []

def callMoves (m : Machine) : MachineCall → List MachineAct
  | .run n => loopMoves fp n n 0 m
  | .act a => [.act a]

def callsMoves : List MachineCall → Machine → List MachineAct
  | [], _ => []
  | call :: calls, m => callMoves fp m call ++ callsMoves calls (call.perform fp m)

theorem blockActs_moves (insns : List U32) (expectedPc : U64) (m : Machine) :
    Runs.run (MachineAct.perform fp) ((blockActs fp insns expectedPc m).map .act) m =
      (blockInsns fp insns expectedPc m).2 := by
  induction insns generalizing expectedPc m with
  | nil => rfl
  | cons insn rest ih =>
    rw [blockActs, blockInsns]
    by_cases here : m.sys.cpu.pc = expectedPc
    · rw [if_neg (by simpa using here), if_neg (by simpa using here)]
      cases going : (blockInsn fp { m.sys with log := [] } insn).1 with
      | true =>
        simp only [going, if_true, List.map_cons]
        exact ih (expectedPc + 4) _
      | false =>
        simp only [going, Bool.false_eq_true, if_false]
        rfl
    · rw [if_pos here, if_pos here]
      rfl

theorem passMoves_run (n taken : ℕ) (m : Machine) :
    Runs.run (MachineAct.perform fp) (passMoves fp n taken m) m = (runPass fp n taken m).2 := by
  rw [passMoves, passActs, runPass]
  by_cases cached : m.enabled ∧ !m.sys.cpu.branchPending
  · rw [if_pos cached, if_pos cached, if_pos cached, run_append]
    have looked : Runs.run (MachineAct.perform fp) [.find] m = (findBlock m).2 := rfl
    rw [looked]
    cases findBlock m with
    | mk blk m' =>
      cases blk with
      | none => rfl
      | some blk =>
        dsimp only
        by_cases fits : !blk.insns.isEmpty ∧ taken + blk.insns.length ≤ n
        · rw [if_pos fits, if_pos fits]
          by_cases idle : (executeBlock fp m' blk).1 = 0
          · have still : (executeBlock fp m' blk).2 = m' := blockInsns_none _ _ idle
            rw [if_pos idle, if_pos idle, still]
            rfl
          · rw [if_neg idle, if_neg idle]
            exact blockActs_moves fp _ _ m'
        · rw [if_neg fits, if_neg fits]
          rfl
  · rw [if_neg cached, if_neg cached, if_neg cached]
    rfl

theorem loopMoves_run (n fuel taken : ℕ) (m : Machine) :
    Runs.run (MachineAct.perform fp) (loopMoves fp n fuel taken m) m =
      (runLoop fp n fuel taken m).2 := by
  induction fuel generalizing taken m with
  | zero => rfl
  | succ fuel ih =>
    rw [loopMoves, runLoop]
    by_cases going : taken < n ∧ !m.sys.cpu.halted
    · rw [if_pos going, if_pos going]
      dsimp only
      rw [run_append, passMoves_run]
      exact ih _ _
    · rw [if_neg going, if_neg going]
      rfl

theorem callsMoves_run (calls : List MachineCall) (m : Machine) :
    Runs.run (MachineAct.perform fp) (callsMoves fp calls m) m =
      Runs.run (MachineCall.perform fp) calls m := by
  induction calls generalizing m with
  | nil => rfl
  | cons call calls ih =>
    rw [callsMoves, run_append, run_cons]
    have first : Runs.run (MachineAct.perform fp) (callMoves fp m call) m =
        call.perform fp m := by
      cases call with
      | run n => exact loopMoves_run fp n n 0 m
      | act a => rfl
    rw [first]
    exact ih _

/-- From an empty cache, every state that runs reach has only slots whose
translation is still that of their address exactly when every ERET returns to
a mode that may fetch from all of them. -/
theorem cached_translations_iff (calls : List MachineCall) (m : Machine)
    (empty : m.cache.Emptied) :
    let moves := callsMoves fp calls m
    Runs.run (MachineAct.perform fp) moves m = Runs.run (MachineCall.perform fp) calls m ∧
      ((∀ k, (Runs.run (MachineAct.perform fp) (moves.take k) m).Translated) ↔
        Along (MachineAct.perform fp) MachineAct.Admits moves m) := by
  refine ⟨callsMoves_run fp calls m, ?_⟩
  exact reached_iff_along (K := fun _ => True) (G := Machine.Translated) (fun _ _ => id)
    (fun a n _ good => translated_perform fp a n good) _ trivial (translated_of_emptied empty)

end Calls

/-- A kernel at `0x80000000` about to return with an ERET to a program in the
mode that `status` names. -/
def kernelReturn (status : U32) : Machine :=
  { sys :=
      { cpu :=
          { pc := 0xFFFFFFFF80000000
            cop0 := fun i => if i = Cop0Reg.Status then status else 0 }
        bus.rdramSize := 8
        bus.rdram := fun i => if i = 0 then 0x42 else if i = 3 then 0x18 else 0 } }

/-- The ERET to kernel mode keeps the block good. -/
theorem cached_translations_kernel : (Cpu.run default 1 (kernelReturn 2)).2.Translated := by
  obtain ⟨ran, law⟩ := cached_translations_iff default [.run 1] (kernelReturn 2) fun _ _ => rfl
  have moves : callsMoves default [.run 1] (kernelReturn 2) =
      [.find, .act (.cached 0x42000018)] := by
    rfl
  rw [moves] at ran law
  have good := law.mpr ⟨trivial, fun _ _ _ _ => Or.inl rfl, trivial⟩ 2
  have whole : Runs.run (MachineAct.perform default)
      [.find, .act (.cached 0x42000018)] (kernelReturn 2) =
      (Cpu.run default 1 (kernelReturn 2)).2 := ran
  rw [← whole]
  exact good

/-- An ERET to user mode leaves the block of the kernel valid. -/
theorem eret_keeps_slot :
    ¬∀ (fp : HostFpu) (n : ℕ) (m : Machine), m.enabled = true → m.cache.Emptied →
      (Cpu.run fp n m).2.Translated := by
  intro claim
  have slot := claim default 1 (kernelReturn 0x12) rfl (fun _ _ => rfl) 0 (by decide)
    (by decide +kernel)
  revert slot
  decide +kernel

end N64
