import N64Emu.Clocks
import N64Emu.Translation

/-!
# User mode

A step in user mode without coprocessor 0 raises an exception or leaves the
mapping and the mode alone. What it accesses on the bus, it reaches through the
TLB.
-/

set_option autoImplicit false

namespace N64

open Words Insn

namespace Cpu

structure UserMode (c : Cpu) : Prop where
  level : c.status &&& (SR_EXL ||| SR_ERL) = 0
  user : 2 ≤ ((c.status &&& SR_KSU) >>> 3).toNat
  unusable : c.status &&& (1#32 <<< 28) = 0

/-- A valid entry, global or of the current address space, maps an address
whose low half is a user address to `p`. -/
def MapsTo (c : Cpu) (isStore : Bool) (p : PhysicalAddress) : Prop :=
  ∃ (vaddr : U64) (i : BitVec 5), (vaddr.setWidth 32).toNat < 0x80000000 ∧
    (c.tlb i).hit (vaddr.setWidth 32) (c.cop0 Cop0Reg.EntryHi &&& 0xFF) = true ∧
    (c.tlb i).lo (vaddr.setWidth 32) &&& TLB_ENTRY_LO_VALID ≠ 0 ∧
    (isStore = true → (c.tlb i).lo (vaddr.setWidth 32) &&& TLB_ENTRY_LO_DIRTY ≠ 0) ∧
    p = (c.tlb i).paddr (vaddr.setWidth 32)

def Allows (c : Cpu) : Event → Prop
  | .load p _ => c.MapsTo false p
  | .store p _ => c.MapsTo true p
  | .wrote _ => True
  | .notify _ _ => True
  | .flush => True

/-- What a log got goes through the entries of `c`. -/
def Through (c : Cpu) (before after : List Event) : Prop := Appended c.Allows before after

/-- The mapping, the mode and every register but the counters and the
interrupt bits of Cause. -/
structure Confined (c d : Cpu) : Prop where
  tlb : d.tlb = c.tlb
  regs : ∀ i, i ≠ Cop0Reg.Count → i ≠ Cop0Reg.Random → i ≠ Cop0Reg.Cause → d.cop0 i = c.cop0 i
  cause : d.cop0 Cop0Reg.Cause &&& ~~~0xFF00 = c.cop0 Cop0Reg.Cause &&& ~~~0xFF00

section Confinement

variable {c d e : Cpu}

theorem UserMode.mode (user : c.UserMode) : 2 ≤ c.mode := by
  rw [Cpu.mode, if_neg (not_not.mpr user.level)]
  exact user.user

theorem UserMode.not_usable (user : c.UserMode) : c.coprocessorUsable 0 = false := by
  have supervised : c.kernelMode = false := by
    rw [kernelMode, if_neg (not_not.mpr user.level)]
    apply decide_eq_false
    intro kernel
    have above := user.user
    rw [kernel] at above
    exact absurd above (by decide)
  rw [coprocessorUsable, supervised, if_neg (by simp)]
  apply decide_eq_false
  exact not_not.mpr user.unusable

theorem UserMode.same (user : c.UserMode) (status : d.status = c.status) : d.UserMode := by
  refine ⟨?_, ?_, ?_⟩
  · rw [status]
    exact user.level
  · rw [status]
    exact user.user
  · rw [status]
    exact user.unusable

theorem Confined.userMode (h : Confined c d) (user : c.UserMode) : d.UserMode :=
  user.same (h.regs Cop0Reg.Status (by decide) (by decide) (by decide))

theorem Confined.trans (h : Confined c d) (k : Confined d e) : Confined c e := by
  refine ⟨k.tlb.trans h.tlb, ?_, k.cause.trans h.cause⟩
  intro i count random cause
  exact (k.regs i count random cause).trans (h.regs i count random cause)

theorem confined_same (tlb : d.tlb = c.tlb) (cop0 : d.cop0 = c.cop0) : Confined c d := by
  refine ⟨tlb, ?_, ?_⟩
  · intro i _ _ _
    rw [cop0]
  · rw [cop0]

theorem Quiet.confined (h : Quiet c d) : Confined c d := confined_same h.tlb h.cop0

theorem confined_setCause {v : U32} (h : v &&& ~~~0xFF00 = c.cop0 Cop0Reg.Cause &&& ~~~0xFF00) :
    Confined c (c.setCop0Reg Cop0Reg.Cause v) := by
  refine ⟨rfl, ?_, ?_⟩
  · intro i _ _ other
    rw [cop0_setCop0Reg, if_neg other]
  · rw [cop0_setCop0Reg, if_pos rfl, h]

theorem confined_offLine : Confined c c.offLine :=
  confined_setCause (andNot_and_of_disjoint _ rfl)

theorem confined_of_offLine (h : d.offLine = c.offLine) : Confined c d := by
  have down : Confined c c.offLine := confined_offLine
  have up : Confined d d.offLine := confined_offLine
  rw [h] at up
  refine ⟨up.tlb.symm.trans down.tlb, ?_, up.cause.symm.trans down.cause⟩
  intro i count random cause
  exact (up.regs i count random cause).symm.trans (down.regs i count random cause)

theorem confined_retire : Confined c c.retire := by
  refine ⟨?_, ?_, retire_cause_and c (by decide)⟩
  · rw [retire_with]
  · intro i count random cause
    exact retire_cop0 c ⟨count, random, cause⟩

theorem confined_advancePc (pc : U64) (slot : Bool) : Confined c (c.advancePc pc slot) := by
  unfold advancePc
  split_ifs
  · exact confined_same rfl rfl
  · exact confined_same rfl rfl
  · exact confined_same rfl rfl

end Confinement

section Accesses

variable {c d : Cpu} {s t u : Sys}

theorem translate_mapsTo (user : 2 ≤ c.mode) {vaddr : U64} {isStore : Bool} {p : PhysicalAddress}
    (translated : c.translateAddress vaddr isStore = .ok p) : c.MapsTo isStore p := by
  unfold translateAddress at translated
  dsimp only at translated
  by_cases kernel : 0x80000000 ≤ (vaddr.setWidth 32).toNat
  · rw [if_pos (Or.inl ⟨user, kernel⟩)] at translated
    cases translated
  · rw [if_neg (show ¬(c.mode ≥ 2 ∧ (vaddr.setWidth 32).toNat ≥ 0x80000000 ∨
        c.mode = 1 ∧ (vaddr.setWidth 32).toNat ≥ 0xE0000000) by omega),
      if_neg (fun cached => kernel cached.1), if_neg (by omega)] at translated
    split at translated
    case h_2 => cases translated
    case h_1 e found =>
      obtain ⟨i, rfl⟩ := mem_tlbEntries (List.mem_of_find?_eq_some found)
      have hit := List.find?_some found
      unfold translateEntry at translated
      split_ifs at translated with invalid clean
      cases translated
      refine ⟨vaddr, i, Nat.lt_of_not_le kernel, hit, invalid, ?_, rfl⟩
      intro store
      exact fun zero => clean ⟨store, zero⟩

variable {l m n : List Event}

theorem through_load {p : PhysicalAddress} {size : ℕ} (mapped : c.MapsTo false p) :
    Through c s.log (s.emit (.load p size)).log :=
  Appended.one (e := .load p size) mapped

theorem through_store {p : PhysicalAddress} {size : ℕ} (mapped : c.MapsTo true p) :
    Through c s.log (s.emit (.store p size)).log :=
  Appended.one (e := .store p size) mapped

theorem through_flush : Through c s.log (s.emit .flush).log :=
  Appended.one (e := .flush) trivial

theorem through_frame {ps : List Part} (frame : Frame ps s t) : Through c s.log t.log := by
  apply frame.appended.imp
  intro e device
  cases e with
  | load => cases device
  | store => cases device
  | wrote => trivial
  | notify => trivial
  | flush => trivial

theorem MapsTo.load {p : PhysicalAddress} (h : c.MapsTo true p) : c.MapsTo false p := by
  obtain ⟨vaddr, i, below, hit, valid, -, place⟩ := h
  exact ⟨vaddr, i, below, hit, valid, fun nothing => absurd nothing Bool.false_ne_true, place⟩

theorem through_before {p : PhysicalAddress} {size : ℕ} (mapped : c.MapsTo true p)
    (before : Sys.BeforeStore p size s u) : Through c s.log u.log := by
  cases before with
  | aligned => exact Appended.refl
  | merge read => exact (through_load mapped.load).trans (through_frame read)

theorem effect_through {insn : U32} (user : 2 ≤ s.cpu.mode) (h : s.Effect insn t) :
    Through s.cpu s.log t.log := by
  cases h with
  | cpu => exact Appended.refl
  | load translated read =>
    have fetched : Through s.cpu _ _ := through_frame read
    exact (through_load (translate_mapsTo user translated)).trans fetched
  | linked _ translated read =>
    have fetched : Through s.cpu _ _ := through_frame read
    exact (through_load (translate_mapsTo user translated)).trans fetched
  | store translated before wrote =>
    have mapped := translate_mapsTo user translated
    have written : Through s.cpu _ _ := through_frame wrote.frame
    exact ((through_before mapped before).trans (through_store mapped)).trans written
  | conditional _ _ _ translated wrote =>
    have mapped := translate_mapsTo user translated
    have written : Through s.cpu _ _ := through_frame wrote.frame
    exact (through_store (s := s.onCpu clearLlBit) mapped).trans written
  | refused => exact Appended.refl
  | setCop0 _ _ v =>
    unfold setCop0
    dsimp only
    split_ifs
    · exact through_flush
    · exact Appended.refl
  | tlbRead => exact through_flush
  | tlbWrite => exact through_flush
  | tlbProbe => exact Appended.refl
  | eret => exact Appended.refl

theorem effect_confined {insn : U32} (user : s.cpu.UserMode) (h : s.Effect insn t)
    (completes : t.cpu.exceptionCount = s.cpu.exceptionCount) : Confined s.cpu t.cpu := by
  have barred (usable : s.cpu.coprocessorUsable 0 = true) : Confined s.cpu t.cpu := by
    rw [user.not_usable] at usable
    cases usable
  cases h with
  | cpu h =>
    cases h with
    | straight same => exact same.confined
    | branch same => exact same.confined
    | raised => exact absurd completes (by simp [atFault])
  | load _ _ same => exact same.confined
  | linked _ _ _ same => exact confined_same same.tlb same.cop0
  | store _ before wrote =>
    exact (confined_of_offLine (stored_cpu before wrote)).trans (confined_same rfl rfl)
  | conditional _ _ _ _ wrote =>
    have written : Confined s.cpu.clearLlBit _ := confined_of_offLine wrote.frame.cpu
    have cleared : Confined s.cpu s.cpu.clearLlBit := confined_same rfl rfl
    exact (cleared.trans written).trans (straight_writeGpr _ _).confined
  | refused _ same => exact confined_same same.tlb same.cop0
  | setCop0 usable => exact barred usable
  | tlbRead usable => exact barred usable
  | tlbWrite usable => exact barred usable
  | tlbProbe usable => exact barred usable
  | eret usable => exact barred usable

theorem confined_enterStep : Confined c c.enterStep := by
  unfold enterStep
  split_ifs
  · exact confined_same rfl rfl
  · exact confined_same rfl rfl

/-- The entries that map are the same where the TLB and the address space are. -/
theorem Confined.through (h : Confined c d) (k : Through d l m) : Through c l m := by
  have same (isStore : Bool) (p : PhysicalAddress) : d.MapsTo isStore p → c.MapsTo isStore p := by
    rintro ⟨vaddr, i, maps⟩
    rw [h.tlb, h.regs Cop0Reg.EntryHi (by decide) (by decide) (by decide)] at maps
    exact ⟨vaddr, i, maps⟩
  apply k.imp
  intro e allows
  cases e with
  | load p size => exact same false p allows
  | store p size => exact same true p allows
  | wrote => trivial
  | notify => trivial
  | flush => trivial

theorem finish_confined {insn : U32} (user : s.cpu.UserMode) (h : Finish insn s t) :
    (t.cpu.exceptionCount ≠ s.cpu.exceptionCount ∨ Confined s.cpu t.cpu) ∧
      Through s.cpu s.log t.log := by
  have entered : Confined s.cpu s.cpu.enterStep := confined_enterStep
  have user' := entered.userMode user
  cases h with
  | faulted => 
    refine ⟨Or.inl ?_, Appended.refl⟩
    simp [atFault]
  | completed effect same =>
    have through := effect_through (s := s.onCpu enterStep) user'.mode effect
    refine ⟨Or.inr ?_, entered.through through⟩
    have counted : s.cpu.enterStep.exceptionCount = s.cpu.exceptionCount :=
      enterStep_exceptionCount s.cpu
    have kept := effect_confined (s := s.onCpu enterStep) user' effect (same.trans counted.symm)
    exact (entered.trans kept).trans ((confined_advancePc _ _).trans confined_retire)

end Accesses

/-- A step in user mode raises an exception or is confined, and what it reads
and writes it reaches through the TLB. -/
theorem user_mode_confined (fp : HostFpu) (s : Sys) (user : s.cpu.UserMode) :
    ((step fp s).cpu.exceptionCount ≠ s.cpu.exceptionCount ∨
      Confined s.cpu (step fp s).cpu ∧ (step fp s).cpu.UserMode) ∧
    Through s.cpu s.log (step fp s).log := by
  have effect := step_cases fp s
  generalize step fp s = t at effect ⊢
  cases effect with
  | halted => 
    have same : Confined s.cpu { s.cpu with cycles := s.cpu.cycles + 1 } := confined_same rfl rfl
    exact ⟨Or.inr ⟨same, same.userMode user⟩, Appended.refl⟩
  | interrupt =>
    refine ⟨Or.inl ?_, Appended.refl⟩
    simp [raise]
  | fetchFault =>
    refine ⟨Or.inl ?_, Appended.refl⟩
    simp [markSlot]
  | executed running aligned translated read ran finish =>
    rename_i insn p u t
    have cpu := fetched_cpu read
    have marked : Confined s.cpu u.cpu := by
      rw [cpu]
      exact confined_same rfl rfl
    have frame : Frame [] (s.onCpu markSlot) u := by
      have reads : Frame [] (s.onCpu markSlot) (Bus.read32 (s.onCpu markSlot) p).2 :=
        frame_read32 _ p
      rw [read] at reads
      exact reads
    have fetched : Through s.cpu (s.onCpu markSlot).log u.log := through_frame frame
    have user' := marked.userMode user
    obtain ⟨outcome, through⟩ := finish_confined user' finish
    have word : Through s.cpu t.log (t.log ++ [.load p 4]) :=
      Appended.one (e := .load p 4) (translate_mapsTo user.mode translated)
    refine ⟨?_, (fetched.trans (marked.through through)).trans word⟩
    rcases outcome with raised | kept
    · left
      rw [cpu] at raised
      exact raised
    · right
      have confined := marked.trans kept
      exact ⟨confined, confined.userMode user⟩

/-- A machine in user mode at `pc`, with the first page mapped by one entry. -/
def inUserMode (pc : U64) (entryHi entryLo : U32) : Sys :=
  { cpu :=
      { pc := pc
        cop0 := fun i => if i = Cop0Reg.Status then 0x10 else 0
        tlb := fun i =>
          if i = 0 then { entryHi := entryHi, entryLo0 := entryLo, entryLo1 := entryLo } else {} } }

theorem user_mode_confined_page :
    Through (inUserMode 0 0 2).cpu [] (step default (inUserMode 0 0 2)).log :=
  (user_mode_confined default (inUserMode 0 0 2) ⟨by decide, by decide, by decide⟩).2

/-- A fetch at an address of more than 32 bits goes through the global entry of
another address space. -/
theorem global_entry_differs :
    let s := inUserMode 0x100000000 5 3
    s.cpu.UserMode ∧ (step default s).cpu.exceptionCount = s.cpu.exceptionCount ∧
      Event.load 0 4 ∈ (step default s).log ∧ ¬s.cpu.pc.toNat < 0x80000000 ∧
      ∀ i v, (s.cpu.tlb i).lo v &&& TLB_ENTRY_LO_VALID ≠ 0 →
        (s.cpu.tlb i).entryHi &&& 0xFF ≠ s.cpu.cop0 Cop0Reg.EntryHi &&& 0xFF := by
  intro s
  refine ⟨⟨by decide, by decide, by decide⟩, by decide +kernel, by decide +kernel, by decide, ?_⟩
  intro i v valid
  by_cases first : i = 0
  · subst first
    decide
  · have empty : s.cpu.tlb i = {} := if_neg first
    rw [empty] at valid
    exact absurd (by unfold TlbEntry.lo; split_ifs <;> rfl) valid

end Cpu

end N64
