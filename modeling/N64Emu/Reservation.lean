import N64Emu.DelaySlot
import N64Emu.LowMasks

/-!
# The load-linked reservation

What LL, SC and ERET do to the reservation, and that nothing else sets it. So a
reservation that is held in a run was taken by the last LL, and no store,
exception, ERET or conditional store came after it.
-/

set_option autoImplicit false

namespace N64

open Words Insn Runs

def Event.NoStore (e : Event) : Prop := ∀ p size, e ≠ .store p size

theorem Event.noStore_of_device {e : Event} (device : e.isDevice = true) : e.NoStore := by
  rintro p size rfl
  cases device

theorem Frame.noStore {ps : List Part} {s t : Sys} (h : Frame ps s t) :
    Appended Event.NoStore s.log t.log :=
  h.appended.imp fun _ => Event.noStore_of_device

namespace Cpu

/-- What SC and SCD do. -/
inductive Conditional (insn : U32) (s : Sys) : Sys → Prop
  | faulted {d : Cpu} (raised : d.exceptionCount ≠ s.cpu.exceptionCount) :
      Conditional insn s { s with cpu := d }
  | granted {p : PhysicalAddress} {size : ℕ} {t : Sys} (reserved : s.cpu.llBit = true)
      (same : p.setWidth 64 = s.cpu.llAddr)
      (wrote : Sys.Wrote p ((s.onCpu clearLlBit).emit (.store p size)) size t) :
      Conditional insn s (t.onCpu (·.writeGpr (rt insn) 1))
  | refused : Conditional insn s (s.onCpu fun c => c.clearLlBit.writeGpr (rt insn) 0)

section Instructions

variable {fp : HostFpu} {s e : Sys} {insn : U32}

theorem storeConditional_cases {α : Type} {size : ℕ} {write : Sys → U32 → α → Sys}
    (typed : TypedWrite size write) (value : α) :
    Conditional insn s (storeConditional write size s insn value) := by
  simp only [storeConditional]
  cases h : (s.onCpu clearLlBit).cpu.probeWrite (s.cpu.effective insn) (BitVec.ofNat 64 size) with
  | error d =>
    obtain ⟨code, refill, miss, rfl⟩ := probe_error h
    apply Conditional.faulted
    simp [clearLlBit]
  | ok p =>
    simp only [Sys.access]
    split
    case isTrue held => exact .granted held.1 held.2 (typed _ p value)
    case isFalse => exact .refused

theorem execute_conditional (fp : HostFpu) (s : Sys) (code : isStoreConditional insn) :
    Conditional insn s (execute fp s insn) := by
  rcases code with sc | scd
  · rw [execute_of_code fp s .SC (by rw [sc]; rfl)]
    exact storeConditional_cases typed_write32 _
  · rw [execute_of_code fp s .SCD (by rw [scd]; rfl)]
    exact storeConditional_cases typed_write64 _

theorem loadLinked_cases {α : Type} {size : ℕ} {read : Sys → U32 → α × Sys} (conv : α → U64)
    (completes : (loadLinked read size s insn conv).cpu.exceptionCount = s.cpu.exceptionCount) :
    ∃ p, s.cpu.translateAddress (s.cpu.effective insn) false = .ok p ∧
      (loadLinked read size s insn conv).cpu.llAddr = p.setWidth 64 := by
  unfold loadLinked at completes ⊢
  cases h : s.cpu.probeRead (s.cpu.effective insn) (BitVec.ofNat 64 size) with
  | error d =>
    obtain ⟨code, refill, miss, rfl⟩ := probe_error h
    rw [h] at completes
    simp [Sys.access] at completes
  | ok p => exact ⟨p, probe_ok h, rfl⟩

theorem execute_linked (code : isLoadLinked insn)
    (completes : (execute fp s insn).cpu.exceptionCount = s.cpu.exceptionCount) :
    ∃ p, s.cpu.translateAddress (s.cpu.effective insn) false = .ok p ∧
      (execute fp s insn).cpu.llAddr = p.setWidth 64 := by
  rcases code with ll | lld
  · rw [execute_of_code fp s .LL (by rw [ll]; rfl)] at completes ⊢
    exact loadLinked_cases _ completes
  · rw [execute_of_code fp s .LLD (by rw [lld]; rfl)] at completes ⊢
    exact loadLinked_cases _ completes

theorem co_rs (co : insn &&& (1#32 <<< 25) ≠ 0) : 16 ≤ (rs insn).toNat := by
  have bit := (LowMasks.bit_ne_zero_iff (n := 25) insn (by decide)).mp co
  have field : (rs insn).toNat = insn.toNat / 2 ^ 21 % 2 ^ 5 := by
    rw [rs, BitVec.extractLsb'_toNat, Nat.shiftRight_eq_div_pow]
  omega

theorem execute_isEret (fp : HostFpu) (code : isEret insn)
    (usable : s.cpu.coprocessorUsable 0 = true) : execute fp s insn = s.onCpu doEret := by
  obtain ⟨group, co, field⟩ := code
  have top := co_rs co
  rw [execute_of_code fp s .COP0 (by rw [group]; rfl)]
  dsimp only [executeOp]
  unfold execCop0
  rw [if_neg (by rw [usable]; simp)]
  split
  case h_5 =>
    rw [field]
    rfl
  case h_6 => rw [if_pos co, if_pos field]
  all_goals omega

theorem execute_of_isEret (code : isEret insn)
    (completes : (execute fp s insn).cpu.exceptionCount = s.cpu.exceptionCount) :
    (execute fp s insn).cpu.llBit = false := by
  by_cases usable : s.cpu.coprocessorUsable 0 = true
  · rw [execute_isEret fp code usable]
    rfl
  · rw [execute_of_code fp s .COP0 (by rw [code.1]; rfl)] at completes
    dsimp only [executeOp] at completes
    unfold execCop0 at completes
    rw [if_pos (by simpa using usable)] at completes
    simp [raiseUnusable] at completes

theorem noStore_load (s : Sys) (p : PhysicalAddress) (size : ℕ) :
    Appended Event.NoStore s.log (s.emit (.load p size)).log :=
  Appended.one (e := .load p size) fun _ _ same => Event.noConfusion same

theorem noStore_flush (s : Sys) : Appended Event.NoStore s.log (s.emit .flush).log :=
  Appended.one (e := .flush) fun _ _ same => Event.noConfusion same

theorem noStore_setCop0 (s : Sys) (i : BitVec 5) (v : U32) :
    Appended Event.NoStore s.log (setCop0 s i v).log := by
  unfold setCop0
  dsimp only
  split_ifs
  · exact noStore_flush _
  · exact Appended.refl

theorem effect_held (h : s.Effect insn e) (other : ¬isLoadLinked insn)
    (held : e.cpu.llBit = true) : s.cpu.llBit = true ∧ e.cpu.llAddr = s.cpu.llAddr ∧
      Appended Event.NoStore s.log e.log := by
  cases h with
  | cpu h =>
    cases h with
    | straight same => exact ⟨same.llBit ▸ held, same.llAddr, Appended.refl⟩
    | branch same => exact ⟨same.llBit ▸ held, same.llAddr, Appended.refl⟩
    | raised => exact absurd held (by simp [raiseException])
  | load _ read same =>
    exact ⟨same.llBit ▸ held, same.llAddr, (noStore_load s _ _).trans read.noStore⟩
  | linked code => exact absurd code other
  | store => cases held
  | conditional _ _ _ _ wrote =>
    have dropped := (cop0Only_of_offLine wrote.frame.cpu).llBit
    have kept := (straight_writeGpr _ _).llBit.symm.trans held
    rw [dropped] at kept
    cases kept
  | refused _ same =>
    have dropped := same.llBit.symm.trans held
    cases dropped
  | setCop0 _ _ v =>
    rw [setCop0_cpu] at held ⊢
    have same := cop0Only_setCop0Value (c := s.cpu) (rd insn) v
    exact ⟨same.llBit ▸ held, same.llAddr, noStore_setCop0 s (rd insn) v⟩
  | tlbRead => exact ⟨held, rfl, noStore_flush _⟩
  | tlbWrite => exact ⟨held, rfl, noStore_flush _⟩
  | tlbProbe =>
    have same : Cop0Only s.cpu s.cpu.tlbProbe := cop0Only_tlbProbe
    exact ⟨same.llBit ▸ held, same.llAddr, Appended.refl⟩
  | eret => cases held

end Instructions

end Cpu

/-- What an act does: it raises, it executes nothing, or it executes a word. -/
inductive CpuAct.Outcome (fp : HostFpu) (a : CpuAct) (s : Sys) : Sys → Prop
  | raised {t : Sys} (dropped : t.cpu.llBit = false)
      (counted : t.cpu.exceptionCount ≠ s.cpu.exceptionCount) (cell : t.cell = s.cell)
      (quiet : Appended Event.NoStore s.log t.log) : Outcome fp a s t
  | idle {t : Sys} (nothing : ∀ insn, ¬a.Executes s insn)
      (held : t.cpu.llBit = true → s.cpu.llBit = true ∧ t.cpu.llAddr = s.cpu.llAddr)
      (completes : t.cpu.exceptionCount = s.cpu.exceptionCount)
      (quiet : Appended Event.NoStore s.log t.log) : Outcome fp a s t
  | ran {insn : U32} {u : Sys} {marks : List Event} (word : ∀ w, a.Executes s w ↔ w = insn)
      (cpu : u.cpu = s.cpu.markSlot.enterStep) (cell : u.cell = s.cell)
      (quiet : Appended Event.NoStore s.log u.log)
      (completes : (Cpu.execute fp u insn).cpu.exceptionCount = s.cpu.exceptionCount)
      (loads : ∀ e ∈ marks, e.NoStore) :
      Outcome fp a s (((Cpu.execute fp u insn).onCpu fun c =>
        (c.advancePc s.cpu.pc s.cpu.branchPending).retire).emitAll marks)

section Outcomes

open Cpu

variable {fp : HostFpu} {s u : Sys} {insn : U32}

theorem finishStep_ran (fp : HostFpu) (u : Sys) (insn : U32) :
    (∃ d : Cpu, d.llBit = false ∧ d.exceptionCount ≠ u.cpu.exceptionCount ∧
      finishStep fp u u.cpu.pc u.cpu.branchPending u.cpu.exceptionCount insn =
        { u with cpu := d }) ∨
    (execute fp (u.onCpu enterStep) insn).cpu.exceptionCount = u.cpu.exceptionCount ∧
      finishStep fp u u.cpu.pc u.cpu.branchPending u.cpu.exceptionCount insn =
        (execute fp (u.onCpu enterStep) insn).onCpu fun c =>
          (c.advancePc u.cpu.pc u.cpu.branchPending).retire := by
  have effect : (u.onCpu enterStep).Effect insn (execute fp (u.onCpu enterStep) insn) :=
    effect_execute fp
  have entered : (u.onCpu enterStep).cpu.exceptionCount = u.cpu.exceptionCount :=
    enterStep_exceptionCount u.cpu
  simp only [finishStep]
  rcases effect_cases effect with same | ⟨fcr31, unknown, llBit, code, ce, bad, refill, -, raised⟩
  · right
    rw [if_neg (by rw [same, entered]; simp)]
    exact ⟨same.trans entered, rfl⟩
  · left
    have counted : (execute fp (u.onCpu enterStep) insn).cpu.exceptionCount ≠
        u.cpu.exceptionCount := by
      rw [raised]
      simp [Sys.onCpu, atFault]
    rw [if_pos counted, raised]
    refine ⟨_, ?_, ?_, rfl⟩
    · simp [raiseException]
    · simp [atFault]

theorem read32_cell (s : Sys) (p : PhysicalAddress) : (Bus.read32 s p).2.cell = s.cell := by
  rcases read32_cases s p with same | ⟨-, taken⟩
  · rw [same]
  · rw [taken]
    rfl

theorem outcome_step (fp : HostFpu) (s : Sys) :
    CpuAct.Outcome fp .step s (CpuAct.step.perform fp s) := by
  have effect := step_cases fp s
  change CpuAct.Outcome fp .step s (step fp s)
  generalize step fp s = t at effect ⊢
  cases effect with
  | halted stopped =>
    apply CpuAct.Outcome.idle
    · rintro insn ⟨running, -⟩
      rw [stopped] at running
      cases running
    · exact fun held => ⟨held, rfl⟩
    · rfl
    · exact Appended.refl
  | interrupt =>
    apply CpuAct.Outcome.raised
    · simp [raise, raiseException]
    · simp [raise]
    · rfl
    · exact Appended.refl
  | fetchFault =>
    apply CpuAct.Outcome.raised
    · simp [raiseException]
    · simp [markSlot]
    · rfl
    · exact Appended.refl
  | @executed running insn p u t aligned translated read ran =>
    have cpu := fetched_cpu read
    have result : (Bus.read32 (s.onCpu markSlot) p).2 = u := by rw [read]
    have cell : u.cell = s.cell := by
      rw [← result]
      exact read32_cell _ p
    have frame : Frame [] (s.onCpu markSlot) u := by
      rw [← result]
      exact frame_read32 _ p
    have fetched : Appended Event.NoStore s.log u.log := frame.noStore (s := s.onCpu markSlot)
    have loads : ∀ e ∈ [Event.load p 4], e.NoStore := by
      intro e member
      rw [List.mem_singleton.mp member]
      exact fun _ _ same => Event.noConfusion same
    rcases finishStep_ran fp u insn with ⟨d, dropped, counted, raised⟩ | ⟨completes, done⟩
    · rw [ran, raised]
      apply CpuAct.Outcome.raised dropped
      · rw [cpu] at counted
        exact counted
      · exact cell
      · exact fetched.trans ⟨_, rfl, loads⟩
    · rw [ran, done, cpu]
      rw [cpu] at completes
      apply CpuAct.Outcome.ran (u := u.onCpu enterStep)
      · exact step_executes_iff running aligned translated read
      · rw [Sys.onCpu_cpu, cpu]
      · exact cell
      · exact fetched
      · exact completes
      · exact loads

theorem outcome_cached (fp : HostFpu) (s : Sys) (insn : U32) :
    CpuAct.Outcome fp (.cached insn) s ((CpuAct.cached insn).perform fp s) := by
  have effect := blockInsn_cases fp s insn
  change CpuAct.Outcome fp (.cached insn) s (blockInsn fp s insn).2
  generalize (blockInsn fp s insn).2 = t at effect ⊢
  cases effect with
  | interrupt =>
    apply CpuAct.Outcome.raised
    · simp [raise, raiseException]
    · simp [raise]
    · rfl
    · exact Appended.refl
  | executed ran =>
    rcases finishStep_ran fp (s.onCpu markSlot) insn with ⟨d, dropped, counted, raised⟩ |
      ⟨completes, done⟩
    · have result : t = { s.onCpu markSlot with cpu := d } := ran.trans raised
      rw [result]
      exact .raised dropped counted rfl Appended.refl
    · have result : t = ((execute fp ((s.onCpu markSlot).onCpu enterStep) insn).onCpu fun c =>
          (c.advancePc s.cpu.pc s.cpu.branchPending).retire).emitAll [] := by
        rw [Sys.emitAll, List.append_nil]
        exact ran.trans done
      rw [result]
      apply CpuAct.Outcome.ran (u := (s.onCpu markSlot).onCpu enterStep)
      · exact fun w => eq_comm
      · rfl
      · rfl
      · exact Appended.refl
      · exact completes
      · exact fun e nothing => absurd nothing List.not_mem_nil

theorem outcome_perform (fp : HostFpu) (a : CpuAct) (s : Sys) :
    a.Outcome fp s (a.perform fp s) := by
  cases a with
  | step => exact outcome_step fp s
  | cached insn => exact outcome_cached fp s insn
  | device a =>
    have frame := frame_perform a s
    have same := cop0Only_of_offLine frame.cpu
    exact .idle (fun _ => id) (fun held => ⟨same.llBit ▸ held, same.llAddr⟩) same.exceptionCount
      frame.noStore
  | rcpInterrupt level =>
    have same : Cop0Only s.cpu (s.cpu.setRcpInterrupt level) := by cases level <;> rfl
    exact .idle (fun _ => id) (fun held => ⟨same.llBit ▸ held, same.llAddr⟩) same.exceptionCount
      Appended.refl
  | setPc pc =>
    exact .idle (fun _ => id) (fun held => absurd held Bool.false_ne_true) rfl Appended.refl
  | setGpr i value =>
    have same := straight_writeGpr (c := s.cpu) i value
    exact .idle (fun _ => id) (fun held => ⟨same.llBit ▸ held, same.llAddr⟩) same.exceptionCount
      Appended.refl
  | setHiLo hi lo => exact .idle (fun _ => id) (fun held => ⟨held, rfl⟩) rfl Appended.refl
  | setFpr i value => exact .idle (fun _ => id) (fun held => ⟨held, rfl⟩) rfl Appended.refl
  | setCop0 i value =>
    have same : Cop0Only s.cpu (setCop0 s i value).cpu := by
      rw [setCop0_cpu]
      exact cop0Only_setCop0Value i value
    apply CpuAct.Outcome.idle (fun _ => id) (fun held => ⟨same.llBit ▸ held, same.llAddr⟩)
      same.exceptionCount
    exact noStore_setCop0 s i value
  | setHalted halted => exact .idle (fun _ => id) (fun held => ⟨held, rfl⟩) rfl Appended.refl

end Outcomes

namespace CpuAct

/-- The act completes an LL or LLD at the physical address `p`. -/
def Links (fp : HostFpu) (p : PhysicalAddress) (a : CpuAct) (s : Sys) : Prop :=
  ∃ insn, a.Executes s insn ∧ isLoadLinked insn ∧
    (a.perform fp s).cpu.exceptionCount = s.cpu.exceptionCount ∧
    s.cpu.translateAddress (s.cpu.effective insn) false = .ok p

/-- The act completes a store, takes an exception or an interrupt, or executes
ERET, SC or SCD. -/
def Disturbs (fp : HostFpu) (a : CpuAct) (s : Sys) : Prop :=
  (∃ es p size, (a.perform fp s).log = s.log ++ es ∧ .store p size ∈ es) ∨
    (a.perform fp s).cpu.exceptionCount ≠ s.cpu.exceptionCount ∨
    ∃ insn, a.Executes s insn ∧ (isEret insn ∨ isStoreConditional insn)

def Calm (fp : HostFpu) (a : CpuAct) (s : Sys) : Prop :=
  ¬a.Disturbs fp s ∧ ∀ p, ¬a.Links fp p s

/-- The act executes an SC or SCD that stores at `p` and writes 1. -/
def Succeeds (fp : HostFpu) (p : PhysicalAddress) (a : CpuAct) (s : Sys) : Prop :=
  ∃ insn, a.Executes s insn ∧ isStoreConditional insn ∧
    (∃ es size, (a.perform fp s).log = s.log ++ es ∧ .store p size ∈ es) ∧
    (rt insn ≠ 0 → (a.perform fp s).cpu.gpr (rt insn) = 1)

end CpuAct

section Exclusive

open Cpu

variable {fp : HostFpu} {a : CpuAct} {s t u : Sys} {insn : U32}

theorem no_store (quiet : Appended Event.NoStore s.log t.log) {es : List Event}
    (logged : t.log = s.log ++ es) (p : PhysicalAddress) (size : ℕ) : .store p size ∉ es := by
  obtain ⟨fs, other, nothing⟩ := quiet
  have same := List.append_cancel_left (other.symm.trans logged)
  intro member
  exact nothing _ (same ▸ member) p size rfl

theorem entered_llBit (cpu : u.cpu = s.cpu.markSlot.enterStep) : u.cpu.llBit = s.cpu.llBit := by
  rw [cpu, enterStep]
  split <;> rfl

theorem entered_llAddr (cpu : u.cpu = s.cpu.markSlot.enterStep) :
    u.cpu.llAddr = s.cpu.llAddr := by
  rw [cpu, enterStep]
  split <;> rfl

theorem entered_exceptionCount (cpu : u.cpu = s.cpu.markSlot.enterStep) :
    u.cpu.exceptionCount = s.cpu.exceptionCount := by
  rw [cpu, enterStep]
  split <;> rfl

theorem entered_translates (cpu : u.cpu = s.cpu.markSlot.enterStep) (isStore : Bool) :
    u.cpu.translateAddress (u.cpu.effective insn) isStore =
      s.cpu.translateAddress (s.cpu.effective insn) isStore := by
  rw [cpu, enterStep]
  split <;> rfl

theorem advancePc_llBit (c : Cpu) (pc : U64) (slot : Bool) :
    (c.advancePc pc slot).llBit = c.llBit ∧ (c.advancePc pc slot).llAddr = c.llAddr := by
  unfold advancePc
  split_ifs <;> exact ⟨rfl, rfl⟩

theorem dropped_of_wrote {p : PhysicalAddress} {size : ℕ}
    (wrote : Sys.Wrote p ((u.onCpu clearLlBit).emit (.store p size)) size t) :
    t.cpu.llBit = false :=
  (cop0Only_of_offLine wrote.frame.cpu).llBit

theorem conditional_dropped (h : Conditional insn u t)
    (completes : t.cpu.exceptionCount = u.cpu.exceptionCount) : t.cpu.llBit = false := by
  cases h with
  | faulted raised => exact absurd completes raised
  | granted _ _ wrote => exact (straight_writeGpr _ _).llBit.trans (dropped_of_wrote wrote)
  | refused => exact (straight_writeGpr _ _).llBit

/-- An act after which a reservation is held took it or left it alone. -/
theorem outcome_held (h : a.Outcome fp s (a.perform fp s))
    (held : (a.perform fp s).cpu.llBit = true) :
    (∃ p, a.Links fp p s ∧ (a.perform fp s).cpu.llAddr = p.setWidth 64) ∨
      s.cpu.llBit = true ∧ (a.perform fp s).cpu.llAddr = s.cpu.llAddr ∧ a.Calm fp s := by
  have undisturbed (completes : (a.perform fp s).cpu.exceptionCount = s.cpu.exceptionCount)
      (quiet : Appended Event.NoStore s.log (a.perform fp s).log)
      (plain : ∀ insn, a.Executes s insn → ¬isEret insn ∧ ¬isStoreConditional insn) :
      ¬a.Disturbs fp s := by
    rintro (⟨es, p, size, logged, member⟩ | raised | ⟨insn, executes, eret | conditional⟩)
    · exact no_store quiet logged p size member
    · exact raised completes
    · exact (plain insn executes).1 eret
    · exact (plain insn executes).2 conditional
  generalize result : a.perform fp s = t at h held undisturbed ⊢
  cases h with
  | raised dropped =>
    rw [dropped] at held
    cases held
  | idle nothing kept completes quiet =>
    obtain ⟨before, address⟩ := kept held
    refine Or.inr ⟨before, address, ?_, ?_⟩
    · exact undisturbed completes quiet fun insn executes => absurd executes (nothing insn)
    · rintro p ⟨insn, executes, -⟩
      exact nothing insn executes
  | @ran insn u marks word cpu cell quiet completes loads =>
    have counted := completes.trans (entered_exceptionCount cpu).symm
    have bit := (retire_llBit _).trans (advancePc_llBit (execute fp u insn).cpu s.cpu.pc
      s.cpu.branchPending).1
    have address := (retire_llAddr _).trans (advancePc_llBit (execute fp u insn).cpu s.cpu.pc
      s.cpu.branchPending).2
    have held' : (execute fp u insn).cpu.llBit = true := bit.symm.trans held
    have same :
        ((execute fp u insn).cpu.advancePc s.cpu.pc s.cpu.branchPending).retire.exceptionCount =
        s.cpu.exceptionCount := by
      rw [retire_exceptionCount, advancePc_exceptionCount, completes]
    by_cases link : isLoadLinked insn
    · obtain ⟨p, translated, reserved⟩ := execute_linked link counted
      rw [entered_translates cpu] at translated
      refine Or.inl ⟨p, ⟨insn, (word insn).mpr rfl, link, ?_, translated⟩, address.trans reserved⟩
      rw [result]
      exact same
    · obtain ⟨before, kept, log⟩ := effect_held (effect_execute fp) link held'
      refine Or.inr ⟨(entered_llBit cpu).symm.trans before,
        address.trans (kept.trans (entered_llAddr cpu)), ?_, ?_⟩
      · apply undisturbed same ((quiet.trans log).trans ⟨marks, rfl, loads⟩)
        intro w executes
        cases (word w).mp executes
        constructor
        · intro eret
          rw [execute_of_isEret eret counted] at held'
          cases held'
        · intro conditional
          rw [conditional_dropped (execute_conditional fp u conditional) counted] at held'
          cases held'
      · rintro p ⟨w, executes, linked, -⟩
        cases (word w).mp executes
        exact link linked

theorem granted_log {p : PhysicalAddress} {size : ℕ} {marks : List Event}
    (quiet : Appended Event.NoStore s.log u.log)
    (wrote : Sys.Wrote p ((u.onCpu clearLlBit).emit (.store p size)) size t)
    (loads : ∀ e ∈ marks, e.NoStore) :
    ∃ es, t.log ++ marks = s.log ++ es ∧ .store p size ∈ es ∧
      ∀ q n, .store q n ∈ es → q = p := by
  obtain ⟨fs, before, first⟩ := quiet
  obtain ⟨ds, after, second⟩ := wrote.frame.noStore
  have logged : t.log = s.log ++ fs ++ [.store p size] ++ ds := by
    rw [after, ← before]
    rfl
  refine ⟨fs ++ [.store p size] ++ ds ++ marks, ?_, ?_, ?_⟩
  · rw [logged]
    simp only [List.append_assoc]
  · simp
  · intro q n member
    simp only [List.mem_append, List.mem_singleton] at member
    rcases member with ((early | here) | late) | last
    · exact absurd rfl (first _ early q n)
    · cases here
      rfl
    · exact absurd rfl (second _ late q n)
    · exact absurd rfl (loads _ last q n)

theorem retired_gpr (c : Cpu) (pc : U64) (slot : Bool) {reg : BitVec 5} (named : reg ≠ 0) :
    (c.advancePc pc slot).retire.gpr reg = c.gpr reg := by
  rw [retire_with]
  refine (Function.update_of_ne named _ _).trans ?_
  unfold advancePc
  split_ifs <;> rfl

theorem outcome_conditional (h : a.Outcome fp s (a.perform fp s)) (executes : a.Executes s insn)
    (code : isStoreConditional insn) :
    (∃ p, a.Succeeds fp p s ∧ (∀ q, a.Succeeds fp q s → q = p) ∧ s.cpu.llBit = true ∧
      p.setWidth 64 = s.cpu.llAddr) ∨
      (a.perform fp s).cell = s.cell ∧ Appended Event.NoStore s.log (a.perform fp s).log := by
  generalize result : a.perform fp s = t at h ⊢
  cases h with
  | raised _ _ cell quiet => exact Or.inr ⟨cell, quiet⟩
  | idle nothing => exact absurd executes (nothing insn)
  | @ran w u marks word cpu cell quiet completes loads =>
    cases (word insn).mp executes
    have counted := completes.trans (entered_exceptionCount cpu).symm
    have cases_ := execute_conditional fp u code
    generalize execute fp u insn = e at cases_ completes counted result ⊢
    cases cases_ with
    | faulted raised => exact absurd counted raised
    | @granted p size t reserved same wrote =>
      left
      obtain ⟨es, logged, member, only⟩ := granted_log quiet wrote loads
      have log : (a.perform fp s).log = s.log ++ es := by
        rw [result]
        exact logged
      refine ⟨p, ⟨insn, executes, code, ⟨es, size, log, member⟩, ?_⟩, ?_,
        (entered_llBit cpu).symm.trans reserved, same.trans (entered_llAddr cpu)⟩
      · intro named
        rw [result]
        refine (retired_gpr _ _ _ named).trans ?_
        rw [Sys.onCpu_cpu, writeGpr, if_pos named]
        exact Function.update_self _ _ _
      · rintro q ⟨-, -, -, ⟨fs, n, other, stores⟩, -⟩
        rw [List.append_cancel_left (log.symm.trans other)] at only
        exact only q n stores
    | refused =>
      right
      refine ⟨cell, quiet.trans ⟨marks, rfl, loads⟩⟩

theorem reservation_since (fp : HostFpu) (s : Sys) (acts : List CpuAct)
    (held : (run (CpuAct.perform fp) acts s.reset).cpu.llBit = true) :
    ∃ p, (run (CpuAct.perform fp) acts s.reset).cpu.llAddr = p.setWidth 64 ∧
      Since (CpuAct.perform fp) (CpuAct.Links fp p) (CpuAct.Calm fp) acts s.reset := by
  revert held
  apply run_history (P := fun (acts : List CpuAct) (t : Sys) => t.cpu.llBit = true → ∃ p,
    t.cpu.llAddr = p.setWidth 64 ∧
      Since (CpuAct.perform fp) (CpuAct.Links fp p) (CpuAct.Calm fp) acts s.reset)
  · intro held
    cases held
  · intro before a reserved held
    rcases outcome_held (outcome_perform fp a _) held with ⟨p, links, address⟩ |
      ⟨earlier, address, calm⟩
    · exact ⟨p, address, since_start links⟩
    · obtain ⟨p, reserved, since⟩ := reserved earlier
      exact ⟨p, address.trans reserved, since.concat calm⟩

/-- An SC or SCD succeeds only at the address of the last LL or LLD, with
nothing between them that ends the reservation; one that does not succeed
writes no memory. -/
theorem ll_sc_exclusive (fp : HostFpu) (s : Sys) (acts : List CpuAct) (a : CpuAct) :
    let t := run (CpuAct.perform fp) acts s.reset
    (∀ p, a.Succeeds fp p t →
      Since (CpuAct.perform fp) (CpuAct.Links fp p) (CpuAct.Calm fp) acts s.reset) ∧
    ∀ insn, a.Executes t insn → isStoreConditional insn → (¬∃ p, a.Succeeds fp p t) →
      (a.perform fp t).cell = t.cell ∧ Appended Event.NoStore t.log (a.perform fp t).log := by
  intro t
  have outcome := outcome_perform fp a t
  constructor
  · intro p success
    have once := success
    obtain ⟨insn, executes, code, ⟨es, size, logged, stores⟩, -⟩ := success
    rcases outcome_conditional outcome executes code with ⟨q, -, only, held, address⟩ |
      ⟨-, quiet⟩
    · obtain ⟨r, reserved, since⟩ := reservation_since fp s acts held
      have wide := congrArg (BitVec.setWidth 32) (address.trans reserved)
      have same : q = r := by simpa using wide
      rw [only p once, same]
      exact since
    · exact absurd stores (no_store quiet logged p size)
  · intro insn executes code failed
    rcases outcome_conditional outcome executes code with ⟨p, success, -⟩ | unchanged
    · exact absurd ⟨p, success⟩ failed
    · exact unchanged

/-- LL and then SC at the first word of the RAM. -/
theorem ll_sc_exclusive_pair :
    Since (CpuAct.perform default) (CpuAct.Links default 0) (CpuAct.Calm default)
      [.setGpr 1 0xFFFFFFFF80000000, .cached 0xC0220000] (Sys.reset {}) := by
  have law := ll_sc_exclusive default {} [.setGpr 1 0xFFFFFFFF80000000, .cached 0xC0220000]
    (.cached 0xE0220000)
  apply law.1 0
  refine ⟨0xE0220000, rfl, Or.inl (by decide),
    ⟨[.store 0 4, .notify 0 4, .wrote (.rdram 0), .wrote (.rdram 1),
    .wrote (.rdram 2), .wrote (.rdram 3)], 4, ?_, ?_⟩, ?_⟩
  · decide +kernel
  · decide
  · intro _
    decide +kernel

end Exclusive

end N64
