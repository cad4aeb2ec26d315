import N64Emu.CpuActs

/-!
# Delay slots

Which branch owns the delay slot a state is in, told from the words that were
executed, and that `branch_pending_` says the same.
-/

set_option autoImplicit false

namespace N64

open Words Cpu

/-- The act completes a branch word and goes on at the word after it. -/
structure CpuAct.Branches (fp : HostFpu) (s : Sys) (a : CpuAct) : Prop where
  executes : ∃ insn, a.Executes s insn ∧ isBranchOrJump insn = true
  completes : (a.perform fp s).cpu.exceptionCount = s.cpu.exceptionCount
  goesOn : (a.perform fp s).cpu.pc = s.cpu.pc + 4

open Classical in
/-- The branch whose delay slot comes next; a branch in a delay slot has none. -/
noncomputable def CpuAct.slotAfter (fp : HostFpu) (s : Sys) (owner : Option U64) (a : CpuAct) :
    Option U64 :=
  if a.Idle s then owner
  else if owner = none ∧ a.Branches fp s then some s.cpu.pc else none

/-- A step with the owner of the delay slot beside the machine. -/
noncomputable def CpuAct.track (fp : HostFpu) (a : CpuAct) (x : Option U64 × Sys) :
    Option U64 × Sys :=
  (a.slotAfter fp x.2 x.1, a.perform fp x.2)

/-- The branch whose delay slot a run from `s` ends in. -/
noncomputable def slotOwner (fp : HostFpu) (acts : List CpuAct) (s : Sys) : Option U64 :=
  (Runs.run (CpuAct.track fp) acts (none, s)).1

/-- `branch_pending_` is set in the delay slot of the branch `owner`. -/
def OwnsSlot (owner : Option U64) (c : Cpu) : Prop :=
  match owner with
  | none => c.branchPending = false
  | some branch => c.branchPending = true ∧ c.pc = branch + 4

theorem track_machine (fp : HostFpu) (acts : List CpuAct) (x : Option U64 × Sys) :
    (Runs.run (CpuAct.track fp) acts x).2 = Runs.run (CpuAct.perform fp) acts x.2 := by
  induction acts generalizing x with
  | nil => rfl
  | cons a acts ih => exact ih _

namespace Cpu

theorem enterStep_pc (c : Cpu) : c.enterStep.pc = c.pc := by
  unfold enterStep
  split <;> rfl

theorem enterStep_branchPending (c : Cpu) : c.enterStep.branchPending = c.branchPending := by
  unfold enterStep
  cases pending : c.branchPending <;> simp [pending]

@[simp]
theorem advancePc_exceptionCount (c : Cpu) (pc : U64) (slot : Bool) :
    (c.advancePc pc slot).exceptionCount = c.exceptionCount := by
  simp only [advancePc]
  split_ifs <;> rfl

theorem add_eight_ne (pc : U64) : pc + 8 ≠ pc + 4 := by
  intro same
  exact absurd ((BitVec.add_right_inj pc).mp same) (by decide)

/-- A completed word leaves a branch pending when it is a branch outside a
delay slot that does not skip its own. -/
theorem advancePc_pending {s e : Sys} {insn : U32} (effect : (s.onCpu enterStep).Effect insn e)
    (jumps : isBranchOrJump insn = true → Jumps s.cpu e.cpu)
    (same : e.cpu.exceptionCount = s.cpu.exceptionCount) :
    (e.cpu.advancePc s.cpu.pc s.cpu.branchPending).branchPending = true ↔
      s.cpu.branchPending = false ∧ isBranchOrJump insn = true ∧
        (e.cpu.advancePc s.cpu.pc s.cpu.branchPending).pc = s.cpu.pc + 4 := by
  cases slot : s.cpu.branchPending with
  | true => simp [advancePc]
  | false =>
    cases pending : e.cpu.branchPending with
    | true =>
      have settled : (s.onCpu enterStep).cpu.branchPending = false :=
        (enterStep_branchPending s.cpu).trans slot
      have branch : isBranchOrJump insn = true := by
        rcases effect_pending effect pending with before | branch
        · rw [settled] at before
          cases before
        · exact branch
      simp [advancePc, pending, branch]
    | false =>
      simp only [advancePc, pending, Bool.false_eq_true, if_false, false_iff, true_and]
      rintro ⟨branch, next⟩
      rcases jumps branch with raised | set | skips
      · exact raised same
      · rw [pending] at set
        cases set
      · rw [skips] at next
        exact add_eight_ne s.cpu.pc next

theorem finishStep_pending (fp : HostFpu) (s : Sys) (insn : U32) {t : Sys}
    (ran : t = finishStep fp s s.cpu.pc s.cpu.branchPending s.cpu.exceptionCount insn) :
    t.cpu.branchPending = true ↔ s.cpu.branchPending = false ∧ isBranchOrJump insn = true ∧
      t.cpu.exceptionCount = s.cpu.exceptionCount ∧ t.cpu.pc = s.cpu.pc + 4 := by
  subst ran
  simp only [finishStep]
  split
  case isTrue raised =>
    constructor
    · intro pending
      exact absurd pending Bool.false_ne_true
    · rintro ⟨_, _, same, _⟩
      simp only [Sys.onCpu_cpu, retire_exceptionCount] at same
      exact absurd same raised
  case isFalse completed =>
    have same := not_not.mp completed
    have effect : (s.onCpu enterStep).Effect insn (execute fp (s.onCpu enterStep) insn) :=
      effect_execute fp
    have jumps : isBranchOrJump insn = true →
        Jumps s.cpu (execute fp (s.onCpu enterStep) insn).cpu := by
      intro branch
      have jump := jumps_execute fp (s.onCpu enterStep) branch
      simp only [Jumps, Sys.onCpu, enterStep_pc, enterStep_exceptionCount] at jump ⊢
      exact jump
    have pending := advancePc_pending effect jumps same
    simp only [Sys.onCpu_cpu, retire_branchPending, retire_pc, retire_exceptionCount,
      advancePc_exceptionCount]
    rw [pending]
    simp [same]

end Cpu

section Run

theorem read32_onCpu (s : Sys) (p : PhysicalAddress) (f : Cpu → Cpu) :
    Bus.read32 (s.onCpu f) p = Prod.map id (Sys.onCpu · f) (Bus.read32 s p) := by
  simp only [Bus.read32, Bus.readMmio32, apply_ite (Prod.map id (Sys.onCpu · f))]
  rfl

theorem read32_relog (s : Sys) (p : PhysicalAddress) (log : List Event) :
    Bus.read32 { s with log := log } p =
      Prod.map id (fun t : Sys => { t with log := log }) (Bus.read32 s p) := by
  simp only [Bus.read32, Bus.readMmio32,
    apply_ite (Prod.map id (fun t : Sys => { t with log := log }))]
  rfl

theorem executes_relog {a : CpuAct} {s : Sys} {insn : U32} :
    a.Executes { s with log := [] } insn ↔ a.Executes s insn := by
  cases a with
  | step => simp only [CpuAct.Executes, Cpu.Fetches, read32_relog, Prod.map_fst, id]
  | _ => rfl

variable {fp : HostFpu} {s : Sys} {owner : Option U64}

theorem ownsSlot_of_executed {a : CpuAct} (insn : U32) (owns : OwnsSlot owner s.cpu)
    (executes : ∀ word, a.Executes s word ↔ word = insn) (busy : ¬ a.Idle s)
    (pending : (a.perform fp s).cpu.branchPending = true ↔ s.cpu.branchPending = false ∧
      isBranchOrJump insn = true ∧
      (a.perform fp s).cpu.exceptionCount = s.cpu.exceptionCount ∧
      (a.perform fp s).cpu.pc = s.cpu.pc + 4) :
    OwnsSlot (a.slotAfter fp s owner) (a.perform fp s).cpu := by
  have free : owner = none ↔ s.cpu.branchPending = false := by
    cases owner with
    | none => simpa [OwnsSlot] using owns
    | some branch => simp [owns.1]
  have branches : owner = none ∧ a.Branches fp s ↔ (a.perform fp s).cpu.branchPending = true := by
    rw [pending, free]
    constructor
    · rintro ⟨settled, ⟨word, runs, branch⟩, same, next⟩
      rw [(executes word).mp runs] at branch
      exact ⟨settled, branch, same, next⟩
    · rintro ⟨settled, branch, same, next⟩
      exact ⟨settled, ⟨insn, (executes insn).mpr rfl, branch⟩, same, next⟩
  unfold CpuAct.slotAfter
  rw [if_neg busy]
  by_cases set : owner = none ∧ a.Branches fp s
  · rw [if_pos set]
    exact ⟨branches.mp set, set.2.goesOn⟩
  · rw [if_neg set]
    exact Bool.eq_false_iff.mpr fun taken => set (branches.mpr taken)

theorem ownsSlot_of_raised {a : CpuAct} (busy : ¬ a.Idle s)
    (raised : (a.perform fp s).cpu.exceptionCount ≠ s.cpu.exceptionCount)
    (settled : (a.perform fp s).cpu.branchPending = false) :
    OwnsSlot (a.slotAfter fp s owner) (a.perform fp s).cpu := by
  unfold CpuAct.slotAfter
  rw [if_neg busy, if_neg fun h => raised h.2.completes]
  exact settled

theorem OwnsSlot.kept {c d : Cpu} (owns : OwnsSlot owner c) (pc : d.pc = c.pc)
    (pending : d.branchPending = c.branchPending) : OwnsSlot owner d := by
  unfold OwnsSlot at owns ⊢
  rw [pc, pending]
  exact owns

theorem ownsSlot_of_idle {a : CpuAct} (owns : OwnsSlot owner s.cpu) (idle : a.Idle s)
    (pc : (a.perform fp s).cpu.pc = s.cpu.pc)
    (pending : (a.perform fp s).cpu.branchPending = s.cpu.branchPending) :
    OwnsSlot (a.slotAfter fp s owner) (a.perform fp s).cpu := by
  unfold CpuAct.slotAfter
  rw [if_pos idle]
  exact owns.kept pc pending

theorem step_executes_iff {insn : U32} {p : PhysicalAddress} {u : Sys}
    (running : s.cpu.halted = false) (aligned : s.cpu.pc &&& 3 = 0)
    (translated : s.cpu.translateAddress s.cpu.pc false = .ok p)
    (read : Bus.read32 (s.onCpu markSlot) p = (insn, u)) (w : U32) :
    CpuAct.step.Executes s w ↔ w = insn := by
  have word : (Bus.read32 s p).1 = insn :=
    (congrArg Prod.fst (read32_onCpu s p markSlot)).symm.trans (congrArg Prod.fst read)
  constructor
  · rintro ⟨-, q, -, other, fetched⟩
    rw [other] at translated
    cases translated
    exact fetched.symm.trans word
  · rintro rfl
    exact ⟨running, p, aligned, translated, word⟩

theorem ownsSlot_step (owns : OwnsSlot owner s.cpu) :
    OwnsSlot (CpuAct.step.slotAfter fp s owner) (step fp s).cpu := by
  have effect := step_cases fp s
  by_cases stopped : s.cpu.halted = true
  · have went : step fp s = s.onCpu fun c => { c with cycles := c.cycles + 1 } := by
      unfold step
      rw [if_pos stopped]
    exact ownsSlot_of_idle (a := .step) owns stopped (congrArg (·.cpu.pc) went)
      (congrArg (·.cpu.branchPending) went)
  · generalize result : step fp s = t at effect
    have perform : CpuAct.step.perform fp s = t := result
    rw [← perform]
    cases effect with
    | halted halted => exact absurd halted stopped
    | interrupt _ settled =>
      exact ownsSlot_of_raised stopped (by simp [perform, raise])
        (by simp [perform, raise, raiseException])
    | fetchFault =>
      exact ownsSlot_of_raised stopped (by simp [perform, markSlot])
        (by simp [perform, raiseException])
    | executed running aligned translated read ran finish =>
      rename_i insn p u t
      have cpu := fetched_cpu read
      refine ownsSlot_of_executed insn owns ?_ stopped ?_
      · exact step_executes_iff running aligned translated read
      · have pending := finishStep_pending fp u insn ran
        rw [cpu] at pending
        rw [perform]
        exact pending

theorem ownsSlot_cached (insn : U32) (owns : OwnsSlot owner s.cpu) :
    OwnsSlot ((CpuAct.cached insn).slotAfter fp s owner) (blockInsn fp s insn).2.cpu := by
  have busy : ¬ (CpuAct.cached insn).Idle s := id
  have effect := blockInsn_cases fp s insn
  generalize result : (blockInsn fp s insn).2 = t at effect
  have perform : (CpuAct.cached insn).perform fp s = t := result
  rw [← perform]
  cases effect with
  | interrupt settled pending =>
    exact ownsSlot_of_raised busy (by simp [perform, raise])
      (by simp [perform, raise, raiseException])
  | executed ran finish =>
    refine ownsSlot_of_executed insn owns (fun w => eq_comm) busy ?_
    have pending := finishStep_pending fp (s.onCpu markSlot) insn ran
    rw [perform]
    exact pending

theorem ownsSlot_perform (a : CpuAct) (owns : OwnsSlot owner s.cpu) :
    OwnsSlot (a.slotAfter fp s owner) (a.perform fp s).cpu := by
  cases a with
  | step => exact ownsSlot_step owns
  | cached insn => exact ownsSlot_cached insn owns
  | device a =>
    have kept := cop0Only_of_offLine (frame_perform a s).cpu
    exact ownsSlot_of_idle owns trivial kept.pc kept.branchPending
  | rcpInterrupt level =>
    have kept : Cop0Only s.cpu (s.cpu.setRcpInterrupt level) := by cases level <;> rfl
    exact ownsSlot_of_idle owns trivial kept.pc kept.branchPending
  | setPc pc =>
    unfold CpuAct.slotAfter
    rw [if_neg (by exact id), if_neg fun h => h.2.executes.elim fun _ runs => runs.1]
    rfl
  | setGpr i value =>
    have kept := straight_writeGpr (c := s.cpu) i value
    exact ownsSlot_of_idle owns trivial kept.pc kept.branchPending
  | setHiLo hi lo => exact ownsSlot_of_idle owns trivial rfl rfl
  | setFpr i value => exact ownsSlot_of_idle owns trivial rfl rfl
  | setCop0 i value =>
    have kept : Cop0Only s.cpu (setCop0 s i value).cpu := by
      rw [setCop0_cpu]
      exact cop0Only_setCop0Value i value
    exact ownsSlot_of_idle owns trivial kept.pc kept.branchPending
  | setHalted halted => exact ownsSlot_of_idle owns trivial rfl rfl

/-- In every run `branch_pending_` is set exactly in the delay slot of the owner. -/
theorem ownsSlot_run (fp : HostFpu) (s : Sys) (acts : List CpuAct) :
    OwnsSlot (slotOwner fp acts s.reset) (Runs.run (CpuAct.perform fp) acts s.reset).cpu := by
  have kept : ∀ (a : CpuAct) (x : Option U64 × Sys),
      OwnsSlot x.1 x.2.cpu → OwnsSlot (a.track fp x).1 (a.track fp x).2.cpu :=
    fun a _ owns => ownsSlot_perform a owns
  have all := Runs.run_preserves (P := fun x : Option U64 × Sys => OwnsSlot x.1 x.2.cpu)
    kept acts (s := (none, s.reset)) rfl
  rw [track_machine] at all
  exact all

end Run

end N64
