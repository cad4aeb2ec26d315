import N64Emu.Branches
import N64Emu.BlockWords
import N64Emu.BlockSteps
import N64Emu.LowMasks

/-!
# Branches and their delay slots

What each branch asks for, read before anything is written. One step carries
the branch out and a second one the word behind it; a likely branch that is not
taken needs the first step only.
-/

set_option autoImplicit false

namespace N64

open Words Insn LowMasks

/-- A branch as the instruction set describes it. -/
structure Branch where
  taken : Bool
  target : U64
  likely : Bool
  link : Option (BitVec 5)
  deriving DecidableEq

namespace Branch

def nullifies (b : Branch) : Bool := b.likely && !b.taken

def destination (b : Branch) (pc : U64) : U64 := if b.taken then b.target else pc + 8

end Branch

namespace Cpu

def relative (c : Cpu) (insn : U32) (taken likely : Bool) (link : Option (BitVec 5)) : Branch :=
  { taken := taken
    target := c.pc + 4 + (simm64 insn <<< 2)
    likely := likely
    link := link }

def regional (c : Cpu) (insn : U32) (link : Option (BitVec 5)) : Branch :=
  { taken := true
    target := ((c.pc + 4) &&& 0xFFFFFFFFF0000000) ||| ((target insn).setWidth 64 <<< 2)
    likely := false
    link := link }

def absolute (target : U64) (link : Option (BitVec 5)) : Branch :=
  { taken := true, target := target, likely := false, link := link }

/-- The branch that a word is, decided on the registers before the step. -/
def branchOf (c : Cpu) (insn : U32) : Option Branch :=
  let rs64 := c.gpr (rs insn)
  let rt64 := c.gpr (rt insn)
  let negative : Bool := rs64.toInt < 0
  let positive : Bool := 0 < rs64.toInt
  let condition := c.fcr31.getLsbD 23
  match op insn with
  | 0x00 =>
    match fn insn with
    | 0x08 => some (absolute rs64 none)
    | 0x09 => some (absolute rs64 (some (if rd insn = 0 then 31 else rd insn)))
    | _ => none
  | 0x01 =>
    match (rt insn).toNat with
    | 0x00 => some (c.relative insn negative false none)
    | 0x01 => some (c.relative insn (!negative) false none)
    | 0x02 => some (c.relative insn negative true none)
    | 0x03 => some (c.relative insn (!negative) true none)
    | 0x10 => some (c.relative insn negative false (some 31))
    | 0x11 => some (c.relative insn (!negative) false (some 31))
    | 0x12 => some (c.relative insn negative true (some 31))
    | 0x13 => some (c.relative insn (!negative) true (some 31))
    | _ => none
  | 0x02 => some (c.regional insn none)
  | 0x03 => some (c.regional insn (some 31))
  | 0x04 => some (c.relative insn (rs64 == rt64) false none)
  | 0x05 => some (c.relative insn (rs64 != rt64) false none)
  | 0x06 => some (c.relative insn (!positive) false none)
  | 0x07 => some (c.relative insn positive false none)
  | 0x14 => some (c.relative insn (rs64 == rt64) true none)
  | 0x15 => some (c.relative insn (rs64 != rt64) true none)
  | 0x16 => some (c.relative insn (!positive) true none)
  | 0x17 => some (c.relative insn positive true none)
  | 0x11 =>
    if rs insn = 0x08 then
      match (rt insn).toNat with
      | 0 => some (c.relative insn (!condition) false none)
      | 1 => some (c.relative insn condition false none)
      | 2 => some (c.relative insn (!condition) true none)
      | 3 => some (c.relative insn condition true none)
      | _ => none
    else none
  | _ => none

/-- The words the block cache takes for branches, without the BC1 words that
name no condition. -/
theorem branchOf_isSome_iff (c : Cpu) (insn : U32) : (c.branchOf insn).isSome = true ↔
    isBranchOrJump insn = true ∧ (op insn = 0x11 → (rt insn).toNat ≤ 3) := by
  unfold branchOf isBranchOrJump
  dsimp only
  generalize op insn = code
  split
  case h_1 =>
    split
    case h_1 field => simp [field]
    case h_2 field => simp [field]
    case h_3 jr jalr => simpa using ⟨jr, jalr⟩
  case h_2 =>
    generalize (rt insn).toNat = field
    split
    case h_9 => simp_all
    all_goals simp
  case h_13 =>
    by_cases branch : rs insn = 0x08
    · rw [if_pos branch]
      generalize (rt insn).toNat = field
      split
      case h_5 zero one two three =>
        have large : ¬field ≤ 3 := by
          intro small
          have cases : field = 0 ∨ field = 1 ∨ field = 2 ∨ field = 3 := by omega
          rcases cases with rfl | rfl | rfl | rfl
          · exact zero rfl
          · exact one rfl
          · exact two rfl
          · exact three rfl
        simp [large]
      all_goals simp [branch]
    · rw [if_neg branch]
      simpa using fun here => absurd here branch
  case h_14 => simp_all
  all_goals simp

def linked (c : Cpu) (link : Option (BitVec 5)) : Cpu :=
  match link with
  | none => c
  | some reg => c.link reg

end Cpu

namespace Branch

def perform (b : Branch) (c : Cpu) : Cpu :=
  if b.taken then (c.linked b.link).branchAbs b.target
  else if b.likely then (c.linked b.link).nullify
  else (c.linked b.link).branchAbs (c.pc + 8)

def leave (b : Branch) (c : Cpu) : Cpu :=
  if b.nullifies then
    { c.linked b.link with pc := c.pc + 8, nextPc := c.pc + 8 + 4, branchPending := false }
  else
    { c.linked b.link with pc := c.pc + 4, nextPc := b.destination c.pc, branchPending := true }

end Branch

namespace Cpu

section Execute

variable {c : Cpu} {insn : U32} {b : Branch}

theorem linked_kept (link : Option (BitVec 5)) : Straight c (c.linked link) := by
  cases link with
  | none => exact Straight.refl
  | some reg => exact straight_writeGpr reg _

theorem perform_relative (taken likely : Bool) (link : Option (BitVec 5)) :
    (c.relative insn taken likely link).perform c =
      if likely then (c.linked link).branchLikelyIf taken insn
      else (c.linked link).branchIf taken insn := by
  have pc := (linked_kept (c := c) link).pc
  unfold relative Branch.perform branchLikelyIf branchIf branchRel branchAbs
  rw [pc]
  cases likely <;> cases taken <;> rfl

theorem negative_eq (x : U64) : decide (x.toInt < 0) = x.msb := by
  rw [BitVec.msb_eq_toInt]

theorem positive_eq (x : U64) : decide (0 < x.toInt) = BitVec.slt 0 x := rfl

theorem not_positive_eq (x : U64) : (!decide (0 < x.toInt)) = x.sle 0 := by
  rw [BitVec.sle, ← decide_not]
  apply decide_eq_decide.mpr
  exact Int.not_lt

theorem condition_eq (x : U32) : decide (x &&& Fpu.kFcr31Condition ≠ 0) = x.getLsbD 23 := by
  have bit : x &&& Fpu.kFcr31Condition ≠ 0 ↔ x.toNat / 2 ^ 23 % 2 = 1 :=
    bit_ne_zero_iff (n := 23) x (by decide)
  rw [decide_eq_decide.mpr bit, BitVec.getLsbD, Nat.testBit_eq_decide_div_mod_eq]

/-- Unless the jump is in the last word of its region, both regions are one. -/
theorem jumpTarget_regional (aligned : c.pc &&& 3 = 0)
    (inside : c.pc.toNat % 2 ^ 28 ≠ 2 ^ 28 - 4) (link : Option (BitVec 5)) :
    c.jumpTarget insn = (c.regional insn link).target := by
  have offset : (c.pc &&& 3).toNat = c.pc.toNat % 4 := toNat_and_low (n := 2) c.pc (by decide)
  rw [aligned] at offset
  change 0 = c.pc.toNat % 4 at offset
  have region : c.pc &&& ~~~low 64 28 = (c.pc + 4) &&& ~~~low 64 28 := by
    rw [andNot_low_eq_iff, BitVec.toNat_add]
    change _ = (c.pc.toNat + 4) % 2 ^ 64 / 2 ^ 28
    have below := c.pc.isLt
    omega
  exact congrArg (· ||| ((target insn).setWidth 64 <<< 2)) region

/-- A jump that is executed outside the last word of a region. -/
def JumpsInside (c : Cpu) (insn : U32) : Prop :=
  op insn = 0x02 ∨ op insn = 0x03 → c.pc.toNat % 2 ^ 28 ≠ 2 ^ 28 - 4

theorem perform_onCpu {s : Sys} {f g : Cpu → Cpu} (same : f s.cpu = g s.cpu) :
    s.onCpu f = s.onCpu g := by
  rw [Sys.onCpu, same]
  rfl

theorem execSpecial_branch (decoded : c.branchOf insn = some b) (code : op insn = 0x00) :
    c.execSpecial insn = b.perform c := by
  simp only [branchOf, code] at decoded
  split at decoded
  case h_1 field =>
    cases decoded
    simp only [execSpecial, field, SpecialFn.ofCode]
    rfl
  case h_2 field =>
    cases decoded
    simp only [execSpecial, field, SpecialFn.ofCode]
    rfl
  case h_3 => cases decoded

theorem execRegimm_relative {r : RegimmRt} (code : RegimmRt.ofCode (rt insn).toNat = some r)
    (taken likely : Bool) (link : Option (BitVec 5))
    (same : c.execRegimmRt r insn = if likely then (c.linked link).branchLikelyIf taken insn
      else (c.linked link).branchIf taken insn) :
    c.execRegimm insn = (c.relative insn taken likely link).perform c := by
  rw [perform_relative, execRegimm, code]
  exact same

theorem execRegimm_branch (decoded : c.branchOf insn = some b) (code : op insn = 0x01) :
    c.execRegimm insn = b.perform c := by
  simp only [branchOf, code, negative_eq] at decoded
  split at decoded
  case h_9 => cases decoded
  all_goals
    rename_i field
    cases decoded
    exact execRegimm_relative (by rw [field]; rfl) _ _ _ rfl

/-- The condition bit against the bit of the word that it is compared with. -/
theorem branchCop1_relative {n : ℕ} (small : n ≤ 3) : c.branchCop1 n insn =
    (c.relative insn (c.fcr31.getLsbD 23 == n.testBit 0) (n.testBit 1) none).perform c := by
  rw [perform_relative, branchCop1, if_neg (Nat.not_lt.mpr small), ← condition_eq]
  rfl

theorem execCop1_branch (fp : HostFpu) (usable : c.coprocessorUsable 1 = true)
    (decoded : c.branchOf insn = some b) (code : op insn = 0x11) :
    execCop1 fp c insn = b.perform c := by
  simp only [branchOf, code] at decoded
  by_cases branch : rs insn = 0x08
  · have run : execCop1 fp c insn = c.branchCop1 (rt insn).toNat insn := by
      have group : Fpu.Cop1Rs.ofCode (rs insn).toNat = some .BC1 := by
        rw [branch]
        rfl
      simp only [execCop1, usable, group]
      rfl
    rw [if_pos branch] at decoded
    rw [run]
    split at decoded
    case h_5 => cases decoded
    all_goals
      rename_i field
      cases decoded
      rw [field, branchCop1_relative (by decide)]
      cases c.fcr31.getLsbD 23 <;> rfl
  · rw [if_neg branch] at decoded
    cases decoded

theorem execute_branch (fp : HostFpu) {s : Sys} (decoded : s.cpu.branchOf insn = some b)
    (aligned : s.cpu.pc &&& 3 = 0) (inside : s.cpu.JumpsInside insn)
    (usable : op insn = 0x11 → s.cpu.coprocessorUsable 1 = true) :
    execute fp s insn = s.onCpu b.perform := by
  have relative (o : Op) (code : Op.ofCode (op insn) = some o) (taken likely : Bool)
      (same : executeOp fp s o insn = s.onCpu fun c =>
        if likely then (c.linked none).branchLikelyIf taken insn
        else (c.linked none).branchIf taken insn) :
      execute fp s insn = s.onCpu (s.cpu.relative insn taken likely none).perform := by
    rw [execute_of_code fp s o code, same]
    exact perform_onCpu (perform_relative taken likely none).symm
  have before := decoded
  simp only [branchOf, not_positive_eq] at decoded
  simp only [positive_eq] at decoded
  split at decoded
  case h_1 code =>
    rw [execute_of_code fp s .SPECIAL (by rw [code]; rfl)]
    exact perform_onCpu (f := (·.execSpecial insn)) (execSpecial_branch before code)
  case h_2 code =>
    rw [execute_of_code fp s .REGIMM (by rw [code]; rfl)]
    exact perform_onCpu (f := (·.execRegimm insn)) (execRegimm_branch before code)
  case h_3 code =>
    cases decoded
    rw [execute_of_code fp s .J (by rw [code]; rfl)]
    apply perform_onCpu (f := fun c => c.branchAbs (c.jumpTarget insn))
    rw [jumpTarget_regional aligned (inside (Or.inl code)) none]
    rfl
  case h_4 code =>
    cases decoded
    rw [execute_of_code fp s .JAL (by rw [code]; rfl)]
    apply perform_onCpu (f := fun c => (c.link 31).branchAbs (c.jumpTarget insn))
    rw [jumpTarget_regional aligned (inside (Or.inr code)) (some 31)]
    rfl
  case h_13 code =>
    rw [execute_of_code fp s .COP1 (by rw [code]; rfl)]
    exact perform_onCpu (f := (execCop1 fp · insn)) (execCop1_branch fp (usable code) before code)
  case h_14 => cases decoded
  all_goals
    rename_i code
    cases decoded
    exact relative _ (by rw [code]; rfl) _ _ rfl

end Execute

section Fetch

variable {s : Sys} {insn : U32}

theorem fetchReturns_cases {v : U64} (word : FetchReturns s v insn) :
    ∃ p, v &&& 3 = 0 ∧ s.cpu.translateAddress v false = .ok p ∧
      Bus.read32 s p = (insn, (fetch s v).2) ∧ (fetch s v).2.cpu = s.cpu := by
  obtain ⟨counted, value⟩ := word
  rcases fetch_cases s v with ⟨code, refill, _, raised⟩ | ⟨p, aligned, translated, read⟩
  · rw [raised] at counted
    simp [Sys.onCpu] at counted
  · rw [read] at value ⊢
    exact ⟨p, aligned, translated, Prod.ext value rfl, frame_cpu (frame_read32 s p)⟩

theorem step_returns (fp : HostFpu) (running : s.cpu.halted = false)
    (untaken : ¬s.cpu.TakesInterrupt) (word : FetchReturns s s.cpu.pc insn) :
    step fp s = (finishStep fp ((fetch s s.cpu.pc).2.onCpu markSlot) s.cpu.pc s.cpu.branchPending
      s.cpu.exceptionCount insn).emitAll (fetchEvents s.cpu s.cpu.pc) := by
  obtain ⟨p, aligned, translated, read, -⟩ := fetchReturns_cases word
  have marked : Bus.read32 (s.onCpu markSlot) p =
      (insn, (fetch s s.cpu.pc).2.onCpu markSlot) := by
    rw [read32_onCpu, read]
    rfl
  rw [step_executes running untaken, stepInsn_fetched fp aligned translated marked, fetchEvents,
    translated]

end Fetch

/-- A CPU that goes on at `pc`, with no branch pending. -/
def arrive (c : Cpu) (pc : U64) : Cpu :=
  { c with pc := pc, nextPc := pc + 4, branchPending := false }

section Leave

variable {c d : Cpu} {b : Branch}

theorem linked_eq (link : Option (BitVec 5)) : c.linked link =
    { c with
        gpr := match link with
          | none => c.gpr
          | some reg => if reg ≠ 0 then Function.update c.gpr reg (c.pc + 8) else c.gpr } := by
  cases link with
  | none => rfl
  | some reg =>
    unfold linked Cpu.link writeGpr
    dsimp only
    by_cases kept : reg ≠ 0
    · rw [if_pos kept, if_pos kept]
    · rw [if_neg kept, if_neg kept]

theorem entered_eq (settled : c.branchPending = false) : c.markSlot.enterStep =
    { c with inDelaySlot := false, nextPc := c.pc + 4, branchPending := false } := by
  unfold enterStep markSlot
  rw [settled]
  rfl

theorem bumpCount_mark (c : Cpu) (slot : Bool) :
    { c with inDelaySlot := slot }.bumpCount = { c.bumpCount with inDelaySlot := slot } := by
  let mark : Cpu → Cpu := fun d => { d with inDelaySlot := slot }
  change (mark c).bumpCount = mark c.bumpCount
  unfold bumpCount
  dsimp only
  rw [apply_ite mark]
  rfl

theorem retire_mark (c : Cpu) (slot : Bool) : { c with inDelaySlot := slot }.retire = c.retire := by
  have counted := bumpCount_mark { c with gpr := Function.update c.gpr 0 0 } slot
  unfold retire advanceCount
  dsimp only at counted ⊢
  rw [counted]
  rfl

theorem leave_perform (settled : c.branchPending = false) :
    ((b.perform c.markSlot.enterStep).advancePc c.pc false).retire = (b.leave c).retire := by
  rw [← retire_mark (b.leave c) false, entered_eq settled]
  apply congrArg retire
  unfold Branch.perform Branch.leave Branch.nullifies Branch.destination
  rw [linked_eq, linked_eq]
  cases b.link <;> cases b.taken <;> cases b.likely <;> rfl

theorem perform_exceptionCount : (b.perform c).exceptionCount = c.exceptionCount := by
  have kept := (linked_kept (c := c) b.link).exceptionCount
  unfold Branch.perform
  split_ifs
  · exact kept
  · exact kept
  · exact kept

theorem leave_link {reg : BitVec 5} (link : b.link = some reg) (named : reg ≠ 0) :
    (b.leave c).retire.gpr reg = c.pc + 8 := by
  have linked : (b.leave c).gpr reg = c.pc + 8 := by
    unfold Branch.leave
    rw [link, linked_eq]
    dsimp only
    rw [if_pos named]
    split_ifs
    · exact Function.update_self _ _ _
    · exact Function.update_self _ _ _
  rw [retire_with]
  exact (Function.update_of_ne named _ _).trans linked

theorem branchOf_link {insn : U32} {reg : BitVec 5} (decoded : c.branchOf insn = some b)
    (link : b.link = some reg) : reg ≠ 0 := by
  simp only [branchOf] at decoded
  repeat' split at decoded
  all_goals cases decoded
  all_goals cases link
  all_goals first
    | decide
    | assumption

end Leave

section Steps

variable {fp : HostFpu} {s : Sys} {insn : U32} {b : Branch}

theorem effect_nextPc {e : Sys} (h : s.Effect insn e) (plain : isBranchOrJump insn = false)
    (stays : ¬isEret insn) (counted : e.cpu.exceptionCount = s.cpu.exceptionCount) :
    e.cpu.nextPc = s.cpu.nextPc := by
  cases h with
  | cpu h =>
    cases h with
    | straight same => exact same.nextPc
    | branch _ jumps =>
      rw [plain] at jumps
      cases jumps
    | raised => exact absurd counted (by simp [atFault])
  | load _ _ same => exact same.nextPc
  | linked _ _ _ same => exact same.nextPc
  | store _ before wrote => exact (cop0Only_of_offLine (stored_cpu before wrote)).nextPc
  | conditional _ _ _ _ wrote =>
    have kept := (cop0Only_of_offLine wrote.frame.cpu).nextPc
    exact (straight_writeGpr _ _).nextPc.trans kept
  | refused _ same => exact same.nextPc
  | setCop0 _ _ v =>
    rw [setCop0_cpu]
    exact (cop0Only_setCop0Value _ v).nextPc
  | tlbRead => rfl
  | tlbWrite => rfl
  | tlbProbe => exact cop0Only_tlbProbe.nextPc
  | eret _ code => exact absurd code stays

theorem step_branch (fp : HostFpu) (running : s.cpu.halted = false)
    (settled : s.cpu.branchPending = false) (quiet : ¬s.cpu.Interrupted)
    (word : FetchReturns s s.cpu.pc insn) (decoded : s.cpu.branchOf insn = some b)
    (inside : s.cpu.JumpsInside insn)
    (usable : op insn = 0x11 → s.cpu.coprocessorUsable 1 = true) :
    step fp s = ((fetch s s.cpu.pc).2.onCpu fun c => (b.leave c).retire).emitAll
      (fetchEvents s.cpu s.cpu.pc) := by
  obtain ⟨p, aligned, -, -, cpu⟩ := fetchReturns_cases word
  rw [step_returns fp running (fun taken => quiet taken.2) word]
  generalize (fetch s s.cpu.pc).2 = u at cpu ⊢
  apply congrArg (Sys.emitAll · _)
  have entered : ((u.onCpu markSlot).onCpu enterStep).cpu = s.cpu.markSlot.enterStep := by
    rw [← cpu]
    rfl
  have same := entered_eq settled
  have executed : execute fp ((u.onCpu markSlot).onCpu enterStep) insn =
      ((u.onCpu markSlot).onCpu enterStep).onCpu b.perform := by
    apply execute_branch fp
    · rw [entered, same]
      exact decoded
    · rw [entered, same]
      exact aligned
    · rw [entered, same]
      exact inside
    · rw [entered, same]
      exact usable
  have counted : (b.perform s.cpu.markSlot.enterStep).exceptionCount = s.cpu.exceptionCount := by
    rw [perform_exceptionCount, same]
  rw [finishStep, executed]
  dsimp only
  rw [Sys.onCpu_cpu, entered, counted, if_neg (not_not.mpr rfl)]
  have left := leave_perform (b := b) settled
  change { u with cpu := ((b.perform u.cpu.markSlot.enterStep).advancePc s.cpu.pc
    s.cpu.branchPending).retire } = { u with cpu := (b.leave u.cpu).retire }
  rw [cpu, settled, left]

theorem step_slot (fp : HostFpu) (running : s.cpu.halted = false)
    (pending : s.cpu.branchPending = true) (word : FetchReturns s s.cpu.pc insn)
    (plain : isBranchOrJump insn = false) (stays : ¬isEret insn)
    (completes : (step fp s).cpu.exceptionCount = s.cpu.exceptionCount) :
    step fp s = ((execute fp ((fetch s s.cpu.pc).2.onCpu markSlot) insn).onCpu fun c =>
      (c.arrive s.cpu.nextPc).retire).emitAll (fetchEvents s.cpu s.cpu.pc) := by
  obtain ⟨p, -, -, -, cpu⟩ := fetchReturns_cases word
  have untaken : ¬s.cpu.TakesInterrupt := by
    intro taken
    rw [taken.1] at pending
    cases pending
  rw [step_returns fp running untaken word] at completes ⊢
  generalize (fetch s s.cpu.pc).2 = u at cpu completes ⊢
  apply congrArg (Sys.emitAll · _)
  have entered : (u.onCpu markSlot).onCpu enterStep = u.onCpu markSlot := by
    have settled : u.cpu.markSlot.enterStep = u.cpu.markSlot := by
      unfold enterStep
      rw [if_pos (show u.cpu.markSlot.branchPending = true by rw [cpu]; exact pending)]
    rw [Sys.onCpu, Sys.onCpu_cpu, settled]
    rfl
  have effect : (u.onCpu markSlot).Effect insn (execute fp (u.onCpu markSlot) insn) :=
    effect_execute fp
  rw [finishStep, entered] at completes ⊢
  generalize execute fp (u.onCpu markSlot) insn = e at effect completes ⊢
  dsimp only at completes ⊢
  by_cases counted : e.cpu.exceptionCount ≠ s.cpu.exceptionCount
  · rw [if_pos counted] at completes
    change e.cpu.retire.exceptionCount = s.cpu.exceptionCount at completes
    rw [retire_exceptionCount] at completes
    exact absurd completes counted
  · have same := not_not.mp counted
    have next : e.cpu.nextPc = s.cpu.nextPc := by
      rw [effect_nextPc effect plain stays (by rw [same, Sys.onCpu_cpu, cpu]; rfl), Sys.onCpu_cpu,
        cpu]
      rfl
    rw [if_neg counted, pending, ← next]
    rfl

/-- Two steps execute a branch and then the word behind it once, and go on at
the target or behind both; a likely branch that is not taken is one step that
skips the word. -/
theorem branch_two_steps (fp : HostFpu) (s : Sys) (insn : U32) (b : Branch)
    (running : s.cpu.halted = false) (settled : s.cpu.branchPending = false)
    (quiet : ¬s.cpu.Interrupted) (word : FetchReturns s s.cpu.pc insn)
    (decoded : s.cpu.branchOf insn = some b) (inside : s.cpu.JumpsInside insn)
    (usable : op insn = 0x11 → s.cpu.coprocessorUsable 1 = true) :
    step fp s = ((fetch s s.cpu.pc).2.onCpu fun c => (b.leave c).retire).emitAll
      (fetchEvents s.cpu s.cpu.pc) ∧
    (∀ reg, b.link = some reg → (step fp s).cpu.gpr reg = s.cpu.pc + 8) ∧
    (b.nullifies = true → (step fp s).cpu.pc = s.cpu.pc + 8 ∧
      (step fp s).cpu.branchPending = false) ∧
    (b.nullifies = false → (step fp s).cpu.pc = s.cpu.pc + 4 ∧
      ∀ d, FetchReturns (step fp s) (s.cpu.pc + 4) d → isBranchOrJump d = false → ¬isEret d →
        (step fp (step fp s)).cpu.exceptionCount = (step fp s).cpu.exceptionCount →
        step fp (step fp s) =
          ((execute fp ((fetch (step fp s) (s.cpu.pc + 4)).2.onCpu markSlot) d).onCpu fun c =>
            (c.arrive (b.destination s.cpu.pc)).retire).emitAll
              (fetchEvents (step fp s).cpu (s.cpu.pc + 4)) ∧
        (step fp (step fp s)).cpu.pc = b.destination s.cpu.pc ∧
        (step fp (step fp s)).cpu.branchPending = false) := by
  have first := step_branch fp running settled quiet word decoded inside usable
  obtain ⟨-, -, -, -, cpu⟩ := fetchReturns_cases word
  have left : (step fp s).cpu = (b.leave s.cpu).retire := by
    rw [first]
    change (b.leave (fetch s s.cpu.pc).2.cpu).retire = (b.leave s.cpu).retire
    rw [cpu]
  refine ⟨first, ?_, ?_, ?_⟩
  · intro reg link
    rw [left]
    exact leave_link link (branchOf_link decoded link)
  · intro skipped
    rw [left, retire_pc, retire_branchPending, Branch.leave, if_pos skipped]
    exact ⟨rfl, rfl⟩
  · intro kept
    have slot : (b.leave s.cpu).pc = s.cpu.pc + 4 ∧
        (b.leave s.cpu).nextPc = b.destination s.cpu.pc ∧
        (b.leave s.cpu).branchPending = true ∧ (b.leave s.cpu).halted = false := by
      rw [Branch.leave, if_neg (by rw [kept]; exact Bool.false_ne_true)]
      exact ⟨rfl, rfl, rfl, (linked_kept b.link).halted.trans running⟩
    generalize step fp s = t at left ⊢
    have pc : t.cpu.pc = s.cpu.pc + 4 := by
      rw [left, retire_pc, slot.1]
    refine ⟨pc, ?_⟩
    intro d next plain stays completes
    rw [← pc] at next ⊢
    have next' : t.cpu.nextPc = b.destination s.cpu.pc := by
      rw [left, retire_with]
      exact slot.2.1
    have second := step_slot fp (by rw [left, retire_with]; exact slot.2.2.2)
      (by rw [left, retire_branchPending, slot.2.2.1]) next plain stays completes
    rw [next'] at second
    refine ⟨second, ?_, ?_⟩
    · rw [second]
      exact retire_pc _
    · rw [second]
      exact retire_branchPending _

/-- A machine with a word at the start of its RAM, about to execute it. -/
def atWord (insn : U32) (halted : Bool) : Sys :=
  { cpu := { pc := 0xFFFFFFFF80000000, halted := halted }
    bus := { rdram := fun i => if i < 4 then insn.extractLsb' (24 - 8*i) 8 else 0 } }

/-- A taken BEQ and the empty word behind it. -/
theorem branch_two_steps_beq : (step default (step default (atWord 0x10000003 false))).cpu.pc =
    0xFFFFFFFF80000010 := by
  have law := branch_two_steps default (atWord 0x10000003 false) 0x10000003
    { taken := true, target := 0xFFFFFFFF80000010, likely := false, link := none }
    rfl rfl (fun pending => pending.1 rfl) ⟨by decide +kernel, by decide +kernel⟩
      (by decide +kernel)
    (fun jump => absurd jump (by decide)) (fun code => absurd code (by decide))
  exact ((law.2.2.2 rfl).2 0 ⟨by decide +kernel, by decide +kernel⟩ (by decide)
    (fun eret => absurd eret.1 (by decide)) (by decide +kernel)).2.1

/-- A halted CPU executes no branch, and BC1T traps where coprocessor 1 is not
usable. -/
theorem halted_or_unusable_differs :
    (∃ b, (atWord 0x10000003 true).cpu.branchPending = false ∧
      ¬(atWord 0x10000003 true).cpu.Interrupted ∧
      FetchReturns (atWord 0x10000003 true) (atWord 0x10000003 true).cpu.pc 0x10000003 ∧
      (atWord 0x10000003 true).cpu.branchOf 0x10000003 = some b ∧
      (step default (step default (atWord 0x10000003 true))).cpu.pc ≠
        b.destination (atWord 0x10000003 true).cpu.pc) ∧
    ∃ b, (atWord 0x45010003 false).cpu.branchPending = false ∧
      ¬(atWord 0x45010003 false).cpu.Interrupted ∧
      FetchReturns (atWord 0x45010003 false) (atWord 0x45010003 false).cpu.pc 0x45010003 ∧
      (atWord 0x45010003 false).cpu.branchOf 0x45010003 = some b ∧
      (step default (step default (atWord 0x45010003 false))).cpu.pc ≠
        b.destination (atWord 0x45010003 false).cpu.pc := by
  refine ⟨⟨{ taken := true, target := 0xFFFFFFFF80000010, likely := false, link := none }, rfl,
    fun pending => pending.1 rfl, ⟨by decide +kernel, by decide +kernel⟩, ?_, ?_⟩,
    ⟨{ taken := false, target := 0xFFFFFFFF80000010, likely := false, link := none }, rfl,
    fun pending => pending.1 rfl, ⟨by decide +kernel, by decide +kernel⟩, ?_, ?_⟩⟩
  · decide +kernel
  · decide +kernel
  · decide +kernel
  · decide +kernel

end Steps

end Cpu

end N64
