import N64Emu.CoherentRun

/-!
# Halting and resuming the RSP

The halt exit of `step` leaves the program counters where the instruction
entered it, so a resumed RSP starts at the instruction that halted it.
-/

set_option autoImplicit false

namespace N64

open Words Loops SpRegisters

namespace Rsp

def control (r : Rsp) : U32 × U32 × Bool := (r.pc, r.nextPc, r.branchPending)

def follower (r : Rsp) : U32 := if r.branchPending then r.nextPc else (r.pc + 4) &&& kImemMask

def IsBreak (insn : U32) : Prop := Insn.op insn = 0 ∧ Insn.fn insn = 0x0D

/-- A BREAK in the delay slot of a branch to that BREAK. -/
structure SelfBreak (r : Rsp) : Prop where
  isBreak : IsBreak (fetch r r.pc)
  inSlot : r.branchPending = true
  toSelf : r.nextPc = r.pc

end Rsp

open Rsp

section Steady

variable {s t u : Sys}

def Steady (s t : Sys) : Prop := control t.rsp = control s.rsp

theorem Steady.refl (s : Sys) : Steady s s := rfl

theorem Steady.trans (h : Steady s t) (k : Steady t u) : Steady s u := Eq.trans k h

theorem Steady.onBit {value mask : U32} {f : Sys → Sys} (h : Steady s t)
    (step : ∀ u, Steady u (f u)) : Steady s (onBit value mask f t) :=
  h.trans (onBit_rel Steady (Steady.refl t) (step t))

theorem steady_applyStatusWrite (s : Sys) (value : U32) :
    Steady s (SpRegs.applyStatusWrite s value) := by
  have flags : ∀ n t, Steady s t → Steady s (upTo (SpRegs.signalStep value) n t) := by
    intro n t h
    refine h.trans (upTo_rel Steady Steady.refl Steady.trans n t fun i u => ?_)
    unfold SpRegs.signalStep
    refine Steady.onBit (Steady.onBit (Steady.refl u) ?_) ?_
    · exact fun _ => rfl
    · exact fun _ => rfl
  refine flags 8 _ ?_
  refine Steady.onBit ?_ fun _ => rfl
  refine Steady.onBit ?_ fun _ => rfl
  refine Steady.onBit ?_ fun _ => rfl
  refine Steady.onBit ?_ fun _ => rfl
  refine Steady.onBit ?_ fun _ => rfl
  refine Steady.onBit ?_ fun _ => rfl
  refine Steady.onBit ?_ fun _ => rfl
  refine Steady.onBit ?_ fun _ => rfl
  exact (Steady.refl s).onBit fun _ => rfl

theorem steady_notify (s : Sys) (p : PhysicalAddress) (n : U32) :
    Steady s (s.notifyMemoryWrite p n) := by
  unfold Sys.notifyMemoryWrite
  split <;> rfl

theorem steady_dmaByte (toSp imem : Bool) (mem dram : U32) (i : ℕ) (s : Sys) :
    Steady s (SpRegs.dmaByte toSp imem mem dram i s) := by
  unfold SpRegs.dmaByte SpRegs.setSpmem Sys.setRdramByte
  split_ifs <;> rfl

theorem steady_dmaLine (toSp imem : Bool) (d : SpRegs.SpDmaLen) (x : SpRegs.DmaState) :
    Steady x.sys (SpRegs.dmaLine toSp imem d x).sys := by
  have moved := upTo_rel Steady Steady.refl Steady.trans d.length.toNat x.sys
    (steady_dmaByte toSp imem x.mem x.dram)
  cases toSp
  · exact moved.trans (steady_notify _ _ _)
  · exact moved.trans (steady_notify _ _ _)

theorem steady_doDma (s : Sys) (toSp : Bool) (lenReg : U32) :
    Steady s (SpRegs.doDma s toSp lenReg) := by
  have lines : ∀ imem x, Steady x.sys
      (upTo (fun _ t => SpRegs.dmaLine toSp imem (SpRegs.decodeLen lenReg) t)
        (SpRegs.decodeLen lenReg).count.toNat x).sys := by
    intro imem x
    exact upTo_rel (fun a b : SpRegs.DmaState => Steady a.sys b.sys) (fun _ => rfl)
      (fun h k => Steady.trans h k) _ x fun _ t => steady_dmaLine toSp imem _ t
  have copied : ∀ t imem, Steady t (SpRegs.copyToRsp t imem) := by
    intro t imem
    cases imem <;> rfl
  exact (lines _ _).trans (copied _ _)

theorem steady_spWrite (s : Sys) (offset value : U32) : Steady s (SpRegs.write s offset value) := by
  unfold SpRegs.write
  split
  · rfl
  · rfl
  · exact steady_doDma s true value
  · exact steady_doDma s false value
  · exact steady_applyStatusWrite s value
  · rfl
  · rfl

end Steady

section Halt

variable {s : Sys} {insn : U32}

namespace Rsp

theorem halted_of_frame {ps : List Part} {s t : Sys} (h : Frame ps s t) (out : Part.rspFlags ∉ ps) :
    t.rsp.halted = s.rsp.halted :=
  congrArg Prod.fst (h.parts .rspFlags out)

theorem steady_moveToCop0 (rdF : ℕ) (val : U32) (sp : rdF ≤ 7) :
    Steady s (moveToCop0 s rdF val) := by
  have written := steady_spWrite s (BitVec.ofNat 32 (rdF * 4)) val
  simp only [moveToCop0, if_pos sp]
  split
  · exact written
  · exact written

theorem execCop0_halts (halts : (execCop0 s insn).rsp.halted ≠ s.rsp.halted) :
    control (execCop0 s insn).rsp = control s.rsp := by
  unfold execCop0 at halts ⊢
  split_ifs at halts ⊢
  case pos =>
    have frame : Frame [] s (moveFromCop0 s (Insn.rd insn).toNat).2 := frame_moveFromCop0 s _
    have moved := halted_of_frame frame List.not_mem_nil
    exact absurd ((quiet_writeGpr _ _).halted.trans moved) halts
  case pos =>
    by_cases sp : (Insn.rd insn).toNat ≤ 7
    · exact steady_moveToCop0 _ _ sp
    · simp only [moveToCop0, if_neg sp] at halts ⊢
      split_ifs at halts ⊢
      · exact absurd (halted_of_frame (frame_dpWrite s _ _) (by decide)) halts
      · exact absurd rfl halts
  case neg => exact absurd rfl halts

/-- Only BREAK and a status write of MTC0 halt; they leave the counters alone, but
for the pending branch that BREAK drops. -/
theorem execute_halts (halts : (execute s insn).rsp.halted ≠ s.rsp.halted) :
    IsBreak insn ∧ control (execute s insn).rsp = (s.rsp.pc, s.rsp.nextPc, false) ∨
      ¬ IsBreak insn ∧ control (execute s insn).rsp = control s.rsp := by
  unfold execute at halts ⊢
  split at halts
  case h_1 code =>
    unfold execSpecial at halts ⊢
    split at halts
    case isTrue break_ =>
      refine Or.inl ⟨⟨code, break_⟩, ?_⟩
      rw [if_pos break_]
      simp only [doBreak, SpRegs.notifyBreak]
      split <;> rfl
    case isFalse => exact absurd (quiet_execSpecialReg insn).halted halts
  case h_2 code =>
    refine Or.inr ⟨?_, execCop0_halts halts⟩
    rintro ⟨zero, _⟩
    rw [zero] at code
    cases code
  case h_3 => exact absurd (halted_of_frame (frame_storeByte s _ _) (by decide)) halts
  case h_4 => exact absurd (halted_of_frame (frame_storeHalf s _ _) (by decide)) halts
  case h_5 => exact absurd (halted_of_frame (frame_storeWord s _ _) (by decide)) halts
  case h_6 => exact absurd (halted_of_frame (frame_storeWord s _ _) (by decide)) halts
  case h_7 => exact absurd (halted_of_frame (frame_storeWord s _ _) (by decide)) halts
  case h_8 => exact absurd (halted_of_frame (frame_execVectorMemory s _ _) (by decide)) halts
  case h_9 => exact absurd (halted_of_frame (frame_execVectorMemory s _ _) (by decide)) halts
  case h_10 => exact absurd (quiet_executeReg insn).halted halts

theorem step_running (running : s.rsp.halted = false) :
    let e := execute { s with rsp := enterStep s.rsp } (fetch s.rsp s.rsp.pc)
    (step s).rsp = if e.rsp.halted then retire e.rsp
      else retire (advancePc e.rsp s.rsp.pc s.rsp.branchPending) := by
  simp only [step, running, Bool.false_eq_true, if_false]
  split <;> rfl

/-- The halt exit of a step: the counters are those the instruction was entered with. -/
theorem step_halts (running : s.rsp.halted = false) (halts : (step s).rsp.halted = true) :
    (step s).rsp.pc = s.rsp.pc ∧
      (IsBreak (fetch s.rsp s.rsp.pc) ∧ (step s).rsp.branchPending = false ∨
        ¬ IsBreak (fetch s.rsp s.rsp.pc) ∧ (step s).rsp.branchPending = s.rsp.branchPending) := by
  have entered : (enterStep s.rsp).halted = false := quiet_enterStep.halted.trans running
  have pc : (enterStep s.rsp).pc = s.rsp.pc := by
    unfold enterStep
    dsimp only
    split <;> rfl
  have pending : (enterStep s.rsp).branchPending = s.rsp.branchPending := by
    cases slot : s.rsp.branchPending <;> simp [enterStep, slot]
  have went := step_running running
  have halted :
      (execute { s with rsp := enterStep s.rsp } (fetch s.rsp s.rsp.pc)).rsp.halted = true := by
    by_contra awake
    dsimp only at went
    rw [if_neg awake] at went
    rw [went, quiet_retire.halted, (quiet_advancePc _ _).halted] at halts
    exact awake halts
  dsimp only at went
  rw [if_pos halted] at went
  have kept : control (step s).rsp =
      control (execute { s with rsp := enterStep s.rsp } (fetch s.rsp s.rsp.pc)).rsp := by
    rw [went]
    rfl
  have changed : (execute { s with rsp := enterStep s.rsp } (fetch s.rsp s.rsp.pc)).rsp.halted ≠
      (enterStep s.rsp).halted := by
    rw [halted, entered]
    simp
  rcases execute_halts changed with ⟨break_, counters⟩ |
    ⟨other, counters⟩
  · rw [counters] at kept
    simp only [control, Prod.mk.injEq] at kept
    exact ⟨kept.1.trans pc, Or.inl ⟨break_, kept.2.2⟩⟩
  · rw [counters] at kept
    simp only [control, Prod.mk.injEq] at kept
    exact ⟨kept.1.trans pc, Or.inr ⟨other, kept.2.2.trans pending⟩⟩

theorem next_ne_pc (pc : U32) : (pc + 4) &&& kImemMask ≠ pc := by
  intro same
  have masked := congrArg (·.getLsbD 2) same
  have bit : (pc + 4).getLsbD 2 = pc.getLsbD 2 := by
    simpa only [BitVec.getLsbD_and, show kImemMask.getLsbD 2 = true from rfl,
      Bool.and_true] using masked
  simp only [BitVec.getLsbD, Nat.testBit_eq_decide_div_mod_eq, BitVec.toNat_add,
    show (4 : U32).toNat = 4 from rfl, decide_eq_decide] at bit
  omega

end Rsp

end Halt

section Run

/-- Anything but an RSP step that does not write SP_PC. -/
structure Elsewhere where
  change : Sys → Sys
  steady : ∀ s, Steady s (change s)

def Elsewhere.spWrite (offset value : U32) : Elsewhere :=
  ⟨fun s => SpRegs.write s offset value, fun s => steady_spWrite s offset value⟩

inductive RspAct where
  | step
  | elsewhere (e : Elsewhere)

/-- An act on the machine, with the state before the last executed instruction. -/
def RspAct.track : RspAct → Option Sys × Sys → Option Sys × Sys
  | .step, (last, s) => (if s.rsp.halted then last else some s, Rsp.step s)
  | .elsewhere e, (last, s) => (last, e.change s)

/-- Where the instruction after the one executed at `s` is, and that it is not in
a delay slot when the one at `s` halted. -/
def programOrder (s : Sys) : U32 × Bool :=
  if (Rsp.step s).rsp.halted then (follower s.rsp, false)
  else ((Rsp.step s).rsp.pc, (Rsp.step s).rsp.branchPending)

/-- An instruction that is executed is the next one in program order. -/
def InProgramOrder (a : RspAct) (x : Option Sys × Sys) : Prop :=
  a = .step → x.2.rsp.halted = false → ∀ s, x.1 = some s →
    (x.2.rsp.pc, x.2.rsp.branchPending) = programOrder s

/-- An instruction that is executed does not follow a halt, or follows the halt of
a BREAK in the delay slot of a branch to itself. -/
def ResumesSelfBreak (a : RspAct) (x : Option Sys × Sys) : Prop :=
  a = .step → x.2.rsp.halted = false → ∀ s, x.1 = some s →
    (Rsp.step s).rsp.halted = true → SelfBreak s.rsp

def Resting (x : Option Sys × Sys) : Prop :=
  ∀ s, x.1 = some s → s.rsp.halted = false ∧ Steady (Rsp.step s) x.2

theorem Resting.track (a : RspAct) (x : Option Sys × Sys) (h : Resting x) :
    Resting (a.track x) := by
  obtain ⟨last, s⟩ := x
  cases a with
  | step =>
    intro t eq
    cases halted : s.rsp.halted with
    | true =>
      simp only [RspAct.track, halted, if_true] at eq ⊢
      obtain ⟨running, steady⟩ := h t eq
      refine ⟨running, steady.trans ?_⟩
      simp only [Steady, Rsp.step, halted, if_true]
      rfl
    | false =>
      simp only [RspAct.track, halted, Bool.false_eq_true, if_false, Option.some.injEq] at eq ⊢
      subst eq
      exact ⟨halted, Steady.refl _⟩
  | elsewhere e =>
    intro t eq
    obtain ⟨running, steady⟩ := h t eq
    exact ⟨running, steady.trans (e.steady s)⟩

theorem selfBreak_iff {s u : Sys} (running : s.rsp.halted = false)
    (halts : (Rsp.step s).rsp.halted = true) (steady : Steady (Rsp.step s) u) :
    (u.rsp.pc, u.rsp.branchPending) = (follower s.rsp, false) ↔ SelfBreak s.rsp := by
  obtain ⟨pc, cases_⟩ := step_halts running halts
  simp only [Steady, Rsp.control, Prod.mk.injEq] at steady
  rw [steady.1, steady.2.2, pc, Prod.mk.injEq]
  constructor
  · rintro ⟨same, settled⟩
    have inSlot : s.rsp.branchPending = true := by
      by_contra outside
      rw [follower, if_neg outside] at same
      exact next_ne_pc _ same.symm
    rcases cases_ with ⟨break_, _⟩ | ⟨_, kept⟩
    · rw [follower, if_pos inSlot] at same
      exact ⟨break_, inSlot, same.symm⟩
    · rw [kept, inSlot] at settled
      cases settled
  · rintro ⟨break_, inSlot, toSelf⟩
    rw [follower, if_pos inSlot, toSelf]
    rcases cases_ with ⟨_, settled⟩ | ⟨other, _⟩
    · exact ⟨rfl, settled⟩
    · exact absurd break_ other

theorem inProgramOrder_iff (a : RspAct) (x : Option Sys × Sys) (h : Resting x) :
    InProgramOrder a x ↔ ResumesSelfBreak a x := by
  unfold InProgramOrder ResumesSelfBreak
  refine imp_congr_right fun _ => imp_congr_right fun _ => forall_congr' fun s =>
    imp_congr_right fun last => ?_
  obtain ⟨running, steady⟩ := h s last
  cases halts : (Rsp.step s).rsp.halted with
  | true =>
    simp only [programOrder, halts, if_true, forall_const]
    exact selfBreak_iff running halts steady
  | false =>
    simp only [Steady, Rsp.control, Prod.mk.injEq] at steady
    simp [programOrder, halts, steady]

/-- In a run each instruction executed is the next one in program order exactly
when no halt is resumed but that of a BREAK that its own branch leads back to. -/
theorem run_in_program_order_iff (s : Sys) (acts : List RspAct) :
    Runs.Along RspAct.track InProgramOrder acts (none, s) ↔
      Runs.Along RspAct.track ResumesSelfBreak acts (none, s) := by
  have start : Resting (none, s) := fun _ eq => absurd eq (by simp)
  generalize (none, s) = x at start
  induction acts generalizing x with
  | nil => exact Iff.rfl
  | cons a acts ih =>
    exact and_congr (inProgramOrder_iff a x start) (ih _ (start.track a x))

/-- A running RSP at a BREAK at address 0, in both copies of IMEM. -/
def atBreak : Sys :=
  { rsp := { imem := fun i => if i = 3 then 0x0D else 0, halted := false }
    bus := { spImem := fun i => if i = 3 then 0x0D else 0 } }

theorem break_resumes_at_itself :
    ¬ Runs.Along RspAct.track InProgramOrder
      [.step, .elsewhere (.spWrite 0x10 SpRegs.WrClearHalt), .step] (none, atBreak) := by
  rintro ⟨_, _, third, _⟩
  exact absurd (third rfl (by decide +kernel) atBreak (by simp [RspAct.track, atBreak]))
    (by decide +kernel)

end Run

end N64
