import N64Emu.Coherence
import N64Emu.Runs

/-!
# Coherence over runs of the devices

The RSP writes its own DMEM first and then copies the bytes to the bus one by
one, so inside a store the copies may differ at the bytes still in the queue.
-/

set_option autoImplicit false

namespace N64

open Words Loops SpRegisters

section Store

variable {s : Sys} {queue : List ℕ} {off : ℕ}

/-- The two copies of DMEM differ only at offsets in the queue. -/
def Awaits (queue : List ℕ) (s : Sys) : Prop :=
  ∀ i, s.bus.spDmem i ≠ s.rsp.dmem i → i ∈ queue

theorem awaits_nil_iff : Awaits [] s ↔ DmemAgree s := by
  constructor
  · intro h
    funext i
    by_contra differs
    exact absurd (h i differs) List.not_mem_nil
  · intro h i differs
    exact absurd (congrFun h i) differs

theorem Awaits.poke (h : Awaits queue s) (off : ℕ) (b : U8) :
    Awaits (off :: queue) (s.pokeRspDmem off b) := by
  intro i differs
  by_cases here : i = off
  · exact here ▸ List.mem_cons_self
  · refine List.mem_cons_of_mem _ (h i ?_)
    simpa [Sys.pokeRspDmem, Function.update_of_ne here] using differs

theorem Awaits.copy (queue : List ℕ) (h : Awaits (queue ++ [off]) s) :
    Awaits queue (s.pokeSpDmem off (s.rsp.dmem off)) := by
  intro i differs
  by_cases here : i = off
  · exact absurd (by simp [Sys.pokeSpDmem, here]) differs
  · have waiting := h i (by simpa [Sys.pokeSpDmem, Function.update_of_ne here] using differs)
    simpa [here] using waiting

theorem Awaits.notify (h : Awaits queue s) (p : PhysicalAddress) (n : U32) :
    Awaits queue (s.notifyMemoryWrite p n) := by
  unfold Sys.notifyMemoryWrite
  split
  · exact h
  · exact h

theorem Awaits.mirror (queue : List ℕ) {off : U32} (h : Awaits (queue ++ [off.toNat]) s) :
    Awaits queue (Rsp.mirrorDmem s off) :=
  (h.copy queue).notify _ _

end Store

namespace Coherent

variable {s : Sys} (k : Coherent s)
include k

theorem dmemStore {t : Sys} (h : Frame Rsp.dmemParts s t) (agree : Awaits [] t) : Coherent t :=
  ⟨awaits_nil_iff.mp agree, k.imem.frame h (by decide) (by decide),
    k.pif.frame h (by decide) (by decide), k.flags.frame h (by decide) (by decide)⟩

theorem storeByte (addr : U32) (v : U8) : Coherent (Rsp.storeByte s addr v) := by
  have start : Awaits [] s := awaits_nil_iff.mpr k.dmem
  exact k.dmemStore (Rsp.frame_storeByte s addr v) ((start.poke _ v).mirror [])

theorem storeHalf (addr : U32) (v : U16) : Coherent (Rsp.storeHalf s addr v) := by
  have start : Awaits [] s := awaits_nil_iff.mpr k.dmem
  refine k.dmemStore (Rsp.frame_storeHalf s addr v) ?_
  refine Awaits.notify (Awaits.notify ?_ _ _) _ _
  refine Awaits.copy [] ?_
  exact Awaits.copy [_] ((start.poke _ _).poke _ _)

theorem storeWord (addr : U32) (v : U32) : Coherent (Rsp.storeWord s addr v) := by
  have start : Awaits [] s := awaits_nil_iff.mpr k.dmem
  refine k.dmemStore (Rsp.frame_storeWord s addr v) ?_
  have stored := (((start.poke (addr &&& 0xFFF).toNat (byteAt v 24)).poke
    (Rsp.dmemOff ((addr &&& 0xFFF) + 1)) (byteAt v 16)).poke
    (Rsp.dmemOff ((addr &&& 0xFFF) + 2)) (byteAt v 8)).poke
    (Rsp.dmemOff ((addr &&& 0xFFF) + 3)) (byteAt v 0)
  have first : (((addr &&& 0xFFF) + BitVec.ofNat 32 0) &&& 0xFFF) = addr &&& 0xFFF := by
    simp [BitVec.and_assoc]
  simp only [Rsp.storeWord, upTo_succ, upTo_zero, first]
  refine Awaits.mirror [] ?_
  refine Awaits.mirror [_] ?_
  refine Awaits.mirror [_, _] ?_
  exact Awaits.mirror [_, _, _] stored

theorem quiet {r : Rsp} (h : Rsp.Quiet s.rsp r) : Coherent { s with rsp := r } :=
  k.irq (Rsp.frame_quiet s h)

theorem transferByte (store : Bool) (vt : BitVec 5) (addr : U32) (byte : ℕ) :
    Coherent (Rsp.transferByte store vt addr byte s) := by
  cases store with
  | true => exact k.storeByte addr _
  | false => exact k.quiet ⟨rfl, rfl, rfl, rfl, rfl⟩

theorem transferShifted (store : Bool) (vt : BitVec 5) (addr : U32) (lane : Fin 8) (shift : ℕ) :
    Coherent (Rsp.transferShifted store vt addr lane shift s) := by
  cases store with
  | true => exact k.storeByte addr _
  | false => exact k.quiet ⟨rfl, rfl, rfl, rfl, rfl⟩

theorem transferTransposed (store : Bool) (vt : BitVec 5) (element : ℕ) (address : U32)
    (lane : ℕ) : Coherent (Rsp.transferTransposed store vt element address lane s) := by
  cases store with
  | true => exact k.storeHalf _ _
  | false => exact k.quiet ⟨rfl, rfl, rfl, rfl, rfl⟩

theorem transfers {n : ℕ} {body : ℕ → Sys → Sys} (each : ∀ i t, Coherent t → Coherent (body i t)) :
    Coherent (upTo body n s) :=
  upTo_preserves Coherent n k fun i _ t h => each i t h

theorem execVectorMemory (insn : U32) (store : Bool) :
    Coherent (Rsp.execVectorMemory s insn store) := by
  simp only [Rsp.execVectorMemory]
  split
  · exact k
  · split_ifs
    · exact k
    · exact k.transfers fun _ _ h => h.transferShifted _ _ _ _ _
    · exact k.transfers fun _ _ h => h.transferShifted _ _ _ _ _
    · exact k
    · exact k.transfers fun _ _ h => h.transferShifted _ _ _ _ _
    · exact k.transfers fun _ _ h => h.transferShifted _ _ _ _ _
    · exact k
    · exact k.transfers fun _ _ h => h.transferByte _ _ _ _
    · exact k.transfers fun _ _ h => h.transferTransposed _ _ _ _ _
    · refine k.transfers fun _ t h => ?_
      split
      · exact h.transferByte _ _ _ _
      · exact h
    · exact k.transfers fun _ _ h => h.transferByte _ _ _ _
    · exact k.transfers fun _ _ h => h.transferByte _ _ _ _

theorem pushMemToBus : Coherent s.pushMemToBus :=
  ⟨rfl, rfl, k.pif, k.flags⟩

theorem doBreak : Coherent (Rsp.doBreak s) := by
  have flags : FlagsAgree (s.bus.spRegs.status ||| (StBroke ||| StHalt))
      { s.rsp with broke := true, halted := true, branchPending := false } := by
    rw [← BitVec.or_assoc]
    exact
      { halted := testBit_or_self _ rfl (by decide)
        broke := (testBit_or_other _ rfl).trans (testBit_or_self _ rfl (by decide))
        intrOnBreak :=
          ((testBit_or_other _ rfl).trans (testBit_or_other _ rfl)).trans k.flags.intrOnBreak }
  have set : Coherent (SpRegs.setStatus
      (Sys.pushMemToBus
        { s with rsp.broke := true, rsp.halted := true, rsp.branchPending := false })
      (StBroke ||| StHalt)) :=
    ⟨rfl, rfl, k.pif, flags⟩
  simp only [Rsp.doBreak, SpRegs.notifyBreak]
  split
  · exact set.irq (frame_raise _ _)
  · exact set

theorem execSpecial (insn : U32) : Coherent (Rsp.execSpecial s insn) := by
  unfold Rsp.execSpecial
  split
  · exact k.doBreak
  · exact k.quiet (Rsp.quiet_execSpecialReg insn)

/-- After a status write MTC0 reads the two flags back; they have them already. -/
theorem moveToCop0 (rdF : ℕ) (val : U32) : Coherent (Rsp.moveToCop0 s rdF val) := by
  have written := k.spWrite (BitVec.ofNat 32 (rdF * 4)) val
  simp only [Rsp.moveToCop0]
  split_ifs
  · exact ⟨written.dmem, written.imem, written.pif, ⟨rfl, written.flags.broke, rfl⟩⟩
  · exact written
  · exact k.irq (frame_dpWrite s _ val)
  · exact k

theorem execCop0 (insn : U32) : Coherent (Rsp.execCop0 s insn) := by
  simp only [Rsp.execCop0]
  split_ifs
  · exact (k.irq (Rsp.frame_moveFromCop0 s _)).quiet (Rsp.quiet_writeGpr _ _)
  · exact k.moveToCop0 _ _
  · exact k

theorem execute (insn : U32) : Coherent (Rsp.execute s insn) := by
  unfold Rsp.execute
  split
  · exact k.execSpecial insn
  · exact k.execCop0 insn
  · exact k.storeByte _ _
  · exact k.storeHalf _ _
  · exact k.storeWord _ _
  · exact k.storeWord _ _
  · exact k.storeWord _ _
  · exact k.execVectorMemory insn false
  · exact k.execVectorMemory insn true
  · exact k.quiet (Rsp.quiet_executeReg insn)

theorem rspStep : Coherent (Rsp.step s) := by
  simp only [Rsp.step]
  split
  · exact k.quiet ⟨rfl, rfl, rfl, rfl, rfl⟩
  · have executed := (k.quiet Rsp.quiet_enterStep).execute (Rsp.fetch s.rsp s.rsp.pc)
    split
    · exact (executed.quiet Rsp.quiet_retire).pushMemToBus
    · exact executed.quiet ((Rsp.quiet_advancePc _ _).trans Rsp.quiet_retire)

end Coherent

theorem coherent_reset (s : Sys) : Coherent s.reset := by
  have flags : FlagsAgree ({} : SpRegisters).status {} := ⟨by decide, by decide, by decide⟩
  exact ⟨rfl, rfl, rfl, flags⟩

/-- From reset on, no run of the devices separates the copies or the flags. -/
theorem coherent_after_reset (s : Sys) (acts : List DeviceAct) :
    Coherent (Runs.run DeviceAct.perform acts s.reset) :=
  Runs.run_preserves (fun a _ => coherent_devices.perform (fun _ k => k.rspStep) a) acts
    (coherent_reset s)

end N64
