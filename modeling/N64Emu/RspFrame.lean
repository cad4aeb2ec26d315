import N64Emu.BusFrame

/-!
# Frames of the RSP step

Stores reach both copies of DMEM, MTC0 reaches the SP and DP registers, and a
break pushes the memories to the bus; nothing else of the machine changes.
-/

set_option autoImplicit false

namespace N64.Rsp

open Words Loops Insn

section Registers

variable (r : Rsp)

/-- What the scalar and vector registers leave alone in the RSP. -/
structure Quiet (r r' : Rsp) : Prop where
  dmem : r'.dmem = r.dmem
  imem : r'.imem = r.imem
  halted : r'.halted = r.halted
  broke : r'.broke = r.broke
  intrOnBreak : r'.intrOnBreak = r.intrOnBreak

variable {r}

theorem Quiet.refl : Quiet r r := ⟨rfl, rfl, rfl, rfl, rfl⟩

theorem Quiet.trans {r' r'' : Rsp} (h : Quiet r r') (k : Quiet r' r'') : Quiet r r'' :=
  ⟨k.dmem.trans h.dmem, k.imem.trans h.imem, k.halted.trans h.halted, k.broke.trans h.broke,
    k.intrOnBreak.trans h.intrOnBreak⟩

theorem quiet_writeGpr (idx : BitVec 5) (value : U32) : Quiet r (writeGpr r idx value) := by
  unfold writeGpr
  split
  · exact ⟨rfl, rfl, rfl, rfl, rfl⟩
  · exact Quiet.refl

theorem quiet_branchAbs (target : U32) : Quiet r (branchAbs r target) := ⟨rfl, rfl, rfl, rfl, rfl⟩

theorem quiet_branchRel (offImm : U32) : Quiet r (branchRel r offImm) := ⟨rfl, rfl, rfl, rfl, rfl⟩

theorem quiet_link (reg : BitVec 5) : Quiet r (link r reg) := quiet_writeGpr _ _

theorem quiet_branchIf (c : Prop) [Decidable c] (offImm : U32) :
    Quiet r (if c then branchRel r offImm else r) := by
  split
  · exact quiet_branchRel _
  · exact Quiet.refl

theorem quiet_execSpecialReg (insn : U32) : Quiet r (execSpecialReg r insn) := by
  simp only [execSpecialReg]
  split
  all_goals first
    | exact Quiet.refl
    | exact quiet_writeGpr _ _
    | exact quiet_branchAbs _
    | exact (quiet_link _).trans (quiet_branchAbs _)

theorem quiet_execRegimm (insn : U32) : Quiet r (execRegimm r insn) := by
  simp only [execRegimm]
  split
  · exact quiet_branchIf _ _
  · exact quiet_branchIf _ _
  · exact (quiet_link 31).trans (quiet_branchIf _ _)
  · exact (quiet_link 31).trans (quiet_branchIf _ _)
  · exact Quiet.refl

theorem quiet_execCop2 (insn : U32) : Quiet r (execCop2 r insn) := by
  simp only [execCop2]
  split
  · exact ⟨rfl, rfl, rfl, rfl, rfl⟩
  · split
    all_goals first
      | exact Quiet.refl
      | exact quiet_writeGpr _ _
      | exact ⟨rfl, rfl, rfl, rfl, rfl⟩

theorem quiet_executeReg (insn : U32) : Quiet r (executeReg r insn) := by
  simp only [executeReg]
  split
  case h_1 => exact quiet_execRegimm insn
  case h_3 => exact (quiet_link 31).trans (quiet_branchAbs _)
  case h_16 => exact quiet_execCop2 insn
  all_goals first
    | exact Quiet.refl
    | exact quiet_writeGpr _ _
    | exact quiet_branchAbs _
    | exact quiet_branchIf _ _

theorem quiet_enterStep : Quiet r (enterStep r) := by
  simp only [enterStep]
  split <;> exact ⟨rfl, rfl, rfl, rfl, rfl⟩

theorem quiet_advancePc (insnPc : U32) (delaySlot : Bool) :
    Quiet r (advancePc r insnPc delaySlot) := by
  simp only [advancePc]
  split_ifs <;> exact ⟨rfl, rfl, rfl, rfl, rfl⟩

theorem quiet_retire : Quiet r (retire r) := ⟨rfl, rfl, rfl, rfl, rfl⟩

end Registers

section Frames

variable {ps : List Part} (s : Sys)

theorem frame_quiet {r : Rsp} (h : Quiet s.rsp r) : Frame ps s { s with rsp := r } :=
  frame_setRsp s h.dmem h.imem h.halted h.broke h.intrOnBreak

def dmemParts : List Part := [.rspDmem, .busDmem]

theorem frame_mirrorDmem (off : U32) : Frame [.busDmem] s (mirrorDmem s off) :=
  (frame_pokeSpDmem s _ _).trans (frame_notifyMemoryWrite _ _ _)

theorem frame_storeByte (addr : U32) (v : U8) : Frame dmemParts s (storeByte s addr v) := by
  refine Frame.trans ?_ ((frame_mirrorDmem _ _).mono (by decide))
  exact (frame_pokeRspDmem s _ v).mono (by decide)

theorem frame_storeHalf (addr : U32) (v : U16) : Frame dmemParts s (storeHalf s addr v) := by
  refine Frame.trans ?_ (frame_notifyMemoryWrite _ _ _)
  refine Frame.trans ?_ (frame_notifyMemoryWrite _ _ _)
  refine Frame.trans ?_ ((frame_pokeSpDmem _ _ _).mono (by decide))
  refine Frame.trans ?_ ((frame_pokeSpDmem _ _ _).mono (by decide))
  refine Frame.trans ?_ ((frame_pokeRspDmem _ _ _).mono (by decide))
  exact (frame_pokeRspDmem s _ _).mono (by decide)

theorem frame_storeWord (addr : U32) (v : U32) : Frame dmemParts s (storeWord s addr v) := by
  refine Frame.trans ?_ (Frame.upTo _ _ fun i t => (frame_mirrorDmem t _).mono (by decide))
  refine Frame.trans ?_ ((frame_pokeRspDmem _ _ _).mono (by decide))
  refine Frame.trans ?_ ((frame_pokeRspDmem _ _ _).mono (by decide))
  refine Frame.trans ?_ ((frame_pokeRspDmem _ _ _).mono (by decide))
  exact (frame_pokeRspDmem s _ _).mono (by decide)

theorem frame_doBreak : Frame Part.all s (doBreak s) := by
  refine Frame.trans ?_ ((frame_notifyBreak _ _).mono (by decide))
  refine Frame.trans ?_ ((frame_pushMemToBus _).mono (by decide))
  refine Frame.quiet rfl rfl rfl rfl (Or.inl rfl) fun p out => absurd (Part.mem_all p) out

theorem frame_execSpecial (insn : U32) : Frame Part.all s (execSpecial s insn) := by
  unfold execSpecial
  split
  · exact frame_doBreak s
  · exact frame_quiet s (quiet_execSpecialReg insn)

theorem frame_moveFromCop0 (rdF : ℕ) : Frame ps s (moveFromCop0 s rdF).2 := by
  simp only [moveFromCop0]
  split_ifs
  · exact frame_readSemaphore s
  all_goals exact Frame.refl s

theorem frame_moveToCop0 (rdF : ℕ) (val : U32) : Frame Part.all s (moveToCop0 s rdF val) := by
  have sp : Frame Part.all s (SpRegs.write s (BitVec.ofNat 32 (rdF * 4)) val) :=
    (frame_spWrite s _ val).mono (by decide)
  simp only [moveToCop0]
  split_ifs
  · exact sp.trans ((frame_setRspFlags _ _ _ _).mono (by decide))
  · exact sp
  · exact (frame_dpWrite s _ val).mono (by decide)
  · exact Frame.refl s

theorem frame_execCop0 (insn : U32) : Frame Part.all s (execCop0 s insn) := by
  simp only [execCop0]
  split_ifs
  · refine Frame.trans ?_ (frame_quiet _ (quiet_writeGpr _ _))
    exact frame_moveFromCop0 s _
  · exact frame_moveToCop0 s _ _
  · exact Frame.refl s

theorem frame_transferByte (store : Bool) (vt : BitVec 5) (addr : U32) (byte : ℕ) :
    Frame dmemParts s (transferByte store vt addr byte s) := by
  cases store with
  | true => exact frame_storeByte s addr _
  | false => exact frame_quiet s ⟨rfl, rfl, rfl, rfl, rfl⟩

theorem frame_transferShifted (store : Bool) (vt : BitVec 5) (addr : U32) (lane : Fin 8)
    (shift : ℕ) : Frame dmemParts s (transferShifted store vt addr lane shift s) := by
  cases store with
  | true => exact frame_storeByte s addr _
  | false => exact frame_quiet s ⟨rfl, rfl, rfl, rfl, rfl⟩

theorem frame_transferTransposed (store : Bool) (vt : BitVec 5) (element : ℕ) (address : U32)
    (lane : ℕ) : Frame dmemParts s (transferTransposed store vt element address lane s) := by
  cases store with
  | true => exact frame_storeHalf s _ _
  | false => exact frame_quiet s ⟨rfl, rfl, rfl, rfl, rfl⟩

theorem frame_execVectorMemory (insn : U32) (store : Bool) :
    Frame dmemParts s (execVectorMemory s insn store) := by
  simp only [execVectorMemory]
  split
  · exact Frame.refl s
  · have shifted : ∀ (at_ : ℕ → U32) (lane : ℕ → Fin 8) (shift n : ℕ),
        Frame dmemParts s
          (upTo (fun i t => transferShifted store (rt insn) (at_ i) (lane i) shift t) n s) :=
      fun _ _ _ n => Frame.upTo n s fun _ t => frame_transferShifted t _ _ _ _ _
    have bytes : ∀ (st : Bool) (at_ : ℕ → U32) (byte : ℕ → ℕ) (n : ℕ),
        Frame dmemParts s
          (upTo (fun i t => transferByte st (rt insn) (at_ i) (byte i) t) n s) :=
      fun _ _ _ n => Frame.upTo n s fun _ t => frame_transferByte t _ _ _ _
    split_ifs
    · exact Frame.refl s
    · exact shifted _ _ _ _
    · exact shifted _ _ _ _
    · exact Frame.refl s
    · exact shifted _ _ _ _
    · exact shifted _ _ _ _
    · exact Frame.refl s
    · exact bytes _ _ _ _
    · exact Frame.upTo _ s fun _ t => frame_transferTransposed t _ _ _ _ _
    · refine Frame.upTo _ s fun i t => ?_
      split
      · exact frame_transferByte t _ _ _ _
      · exact Frame.refl t
    · exact bytes _ _ _ _
    · exact bytes _ _ _ _

theorem frame_execute (insn : U32) : Frame Part.all s (execute s insn) := by
  unfold execute
  split
  · exact frame_execSpecial s insn
  · exact frame_execCop0 s insn
  · exact (frame_storeByte s _ _).mono (by decide)
  · exact (frame_storeHalf s _ _).mono (by decide)
  · exact (frame_storeWord s _ _).mono (by decide)
  · exact (frame_storeWord s _ _).mono (by decide)
  · exact (frame_storeWord s _ _).mono (by decide)
  · exact (frame_execVectorMemory s insn false).mono (by decide)
  · exact (frame_execVectorMemory s insn true).mono (by decide)
  · exact frame_quiet s (quiet_executeReg insn)

theorem frame_step : Frame Part.all s (step s) := by
  have entered : Frame Part.all s { s with rsp := enterStep s.rsp } :=
    frame_quiet s quiet_enterStep
  simp only [step]
  split
  · exact frame_quiet s ⟨rfl, rfl, rfl, rfl, rfl⟩
  · have executed := entered.trans (frame_execute _ (fetch s.rsp s.rsp.pc))
    split
    · refine Frame.trans ?_ ((frame_pushMemToBus _).mono (by decide))
      exact executed.trans (frame_quiet _ quiet_retire)
    · exact executed.trans (frame_quiet _ ((quiet_advancePc _ _).trans quiet_retire))

end Frames

end N64.Rsp
