import N64Emu.SpSide
import N64Emu.DeviceSide
import N64Emu.VectorAccumulate

/-!
# What the RSP's registers hold

Whatever microcode runs and however the CPU drives it, register 0 reads zero,
the program counters name words of IMEM and every accumulator lane is a signed
48-bit number. So no fetch leaves IMEM, no temporary of a multiplication leaves
its 64 bits, and the three slices of an accumulator determine it.
-/

set_option autoImplicit false

namespace N64

open Words Loops Insn

namespace RspVector

def InRange (acc : ℤ) : Prop := -2 ^ 47 ≤ acc ∧ acc < 2 ^ 47

theorem inRange_fromAccumulatorBits (raw : U64) : InRange (fromAccumulatorBits raw) := by
  have wrapped := wrapAccumulator_range raw.toInt
  rw [wrapAccumulator, BitVec.ofInt_toInt] at wrapped
  exact wrapped

theorem inRange_zero : InRange 0 := ⟨by decide, by decide⟩

theorem InRange.ite {a b : ℤ} {c : Prop} [Decidable c] (h : InRange a) (k : InRange b) :
    InRange (if c then a else b) := by
  split
  · exact h
  · exact k

namespace VectorStep

def Fits (t : VectorStep) : Prop := ∀ lane, InRange (t.unit.accumulator lane)

variable {t : VectorStep}

theorem Fits.setAccumulator (h : t.Fits) (lane : Fin 8) {acc : ℤ} (range : InRange acc) :
    (t.setAccumulator lane acc).Fits := by
  intro m
  change InRange (Function.update t.unit.accumulator lane acc m)
  rw [Function.update_apply]
  split
  · exact range
  · exact h m

theorem Fits.setAccumulatorLow (h : t.Fits) (lane : Fin 8) (low : U16) :
    (t.setAccumulatorLow lane low).Fits :=
  h.setAccumulator lane (inRange_fromAccumulatorBits _)

theorem Fits.setResult (h : t.Fits) (lane : Fin 8) (v : U16) : (t.setResult lane v).Fits := h

theorem Fits.setVco (h : t.Fits) (lane : Fin 8) (enabled high : Bool) :
    (t.setVco lane enabled high).Fits := h

theorem Fits.setVcc (h : t.Fits) (lane : Fin 8) (enabled high : Bool) :
    (t.setVcc lane enabled high).Fits := h

theorem Fits.setVce (h : t.Fits) (vce : U8) : Fits { t with unit.vce := vce } := h

theorem Fits.clearVcc (h : t.Fits) : Fits { t with unit.vcc := 0 } := h

theorem Fits.clearCarry (h : t.Fits) : Fits { t with unit.vco := 0 } := h

theorem Fits.clearFlags (h : t.Fits) : Fits { t with unit.vco := 0, unit.vce := 0 } := h

theorem Fits.store (h : t.Fits) (lane : Fin 8) (v : U16) : (t.store lane v).Fits :=
  (h.setResult lane v).setAccumulatorLow lane v

theorem Fits.ite {u : VectorStep} {c : Prop} [Decidable c] (h : t.Fits) (k : u.Fits) :
    (if c then t else u).Fits := by
  split
  · exact h
  · exact k

theorem Fits.forLanes {body : Fin 8 → VectorStep → VectorStep}
    (each : ∀ lane {t : VectorStep}, t.Fits → (body lane t).Fits) (h : t.Fits) :
    (RspVector.forLanes body t).Fits := by
  unfold RspVector.forLanes
  generalize List.finRange 8 = lanes
  induction lanes generalizing t with
  | nil => exact h
  | cons lane lanes ih => exact ih (each lane h)

variable (function : ℕ) (ss st : Lanes) (lane : Fin 8)

theorem Fits.roundLane (vs : BitVec 5) (h : t.Fits) :
    (RspVector.roundLane function vs st lane t).Fits := by
  exact h.setAccumulator lane (InRange.ite (inRange_fromAccumulatorBits _) (h lane))

theorem Fits.mulqLane (h : t.Fits) : (RspVector.mulqLane ss st lane t).Fits :=
  h.setAccumulator lane (inRange_fromAccumulatorBits _)

theorem Fits.macqLane (h : t.Fits) : (RspVector.macqLane lane t).Fits :=
  h.setAccumulator lane (inRange_fromAccumulatorBits _)

theorem Fits.multiplyLane (h : t.Fits) : (RspVector.multiplyLane function ss st lane t).Fits :=
  h.setAccumulator lane (inRange_fromAccumulatorBits _)

theorem Fits.addLane (h : t.Fits) : (RspVector.addLane ss st lane t).Fits := h.store lane _

theorem Fits.subLane (h : t.Fits) : (RspVector.subLane ss st lane t).Fits := h.store lane _

theorem Fits.absLane (h : t.Fits) : (RspVector.absLane ss st lane t).Fits := h.store lane _

theorem Fits.addcLane (h : t.Fits) : (RspVector.addcLane ss st lane t).Fits :=
  ((h.setVco lane _ false).setVco lane false true).store lane _

theorem Fits.subcLane (h : t.Fits) : (RspVector.subcLane ss st lane t).Fits :=
  ((h.setVco lane _ false).setVco lane _ true).store lane _

theorem Fits.compareLane (h : t.Fits) : (RspVector.compareLane function ss st lane t).Fits :=
  (h.setVcc lane _ false).store lane _

theorem Fits.clLane (h : t.Fits) : (RspVector.clLane ss st lane t).Fits :=
  ((h.setVcc lane _ false).setVcc lane _ true).store lane _

theorem Fits.chLane (h : t.Fits) : (RspVector.chLane ss st lane t).Fits := by
  unfold RspVector.chLane
  dsimp only
  refine Fits.setAccumulatorLow (Fits.ite (Fits.setVce ?_ _) ?_) lane _
  all_goals exact ((((h.setResult lane _).setVcc lane _ false).setVcc lane _ true).setVco lane _
    false).setVco lane _ true

theorem Fits.crLane (h : t.Fits) : (RspVector.crLane ss st lane t).Fits := by
  unfold RspVector.crLane
  dsimp only
  exact (((h.setResult lane _).setVcc lane _ false).setVcc lane _ true).setAccumulatorLow lane _

theorem Fits.mergeLane (h : t.Fits) : (RspVector.mergeLane ss st lane t).Fits := h.store lane _

theorem Fits.logicLane (h : t.Fits) : (RspVector.logicLane function ss st lane t).Fits :=
  h.store lane _

theorem Fits.divide {v : VectorUnit} (element : BitVec 4) (vs vt vd : BitVec 5)
    (h : ∀ lane, InRange (v.accumulator lane)) :
    (RspVector.divide function element vs vt vd st v).Fits := by
  have copied : (RspVector.forLanes (fun lane t => t.setAccumulatorLow lane (st lane))
      { unit := v, result := v.vpr vd }).Fits :=
    Fits.forLanes (fun lane _ k => k.setAccumulatorLow lane _) h
  unfold RspVector.divide
  dsimp only
  split_ifs
  · exact copied
  · exact copied
  · exact copied
  · exact copied

theorem Fits.vectorFunction {v : VectorUnit} (element : BitVec 4) (vs vt vd : BitVec 5)
    (h : ∀ lane, InRange (v.accumulator lane)) {t : VectorStep}
    (done : RspVector.vectorFunction function element vs vt vd ss st v = some t) : t.Fits := by
  have start : Fits { unit := v } := h
  unfold RspVector.vectorFunction at done
  dsimp only at done
  split at done
  case h_1 | h_2 =>
    cases done
    exact start.forLanes fun lane _ k => k.roundLane _ _ lane vs
  case h_3 =>
    cases done
    exact start.forLanes fun lane _ k => k.mulqLane _ _ lane
  case h_4 =>
    cases done
    exact start.forLanes fun lane _ k => k.macqLane lane
  case h_5 | h_6 | h_7 | h_8 | h_9 | h_10 | h_11 | h_12 | h_13 |
      h_14 | h_15 | h_16 =>
    cases done
    exact start.forLanes fun lane _ k => k.multiplyLane _ _ _ lane
  case h_17 =>
    cases done
    exact (start.forLanes fun lane _ k => k.addLane _ _ lane).clearCarry
  case h_18 =>
    cases done
    exact (start.forLanes fun lane _ k => k.subLane _ _ lane).clearCarry
  case h_19 =>
    cases done
    exact start.forLanes fun lane _ k => k.absLane _ _ lane
  case h_20 =>
    cases done
    exact start.forLanes fun lane _ k => k.addcLane _ _ lane
  case h_21 =>
    cases done
    exact start.forLanes fun lane _ k => k.subcLane _ _ lane
  case h_22 =>
    cases done
    exact start.forLanes fun lane _ k => k.setResult lane _
  case h_23 | h_24 | h_25 | h_26 =>
    cases done
    exact (start.clearVcc.forLanes fun lane _ k => k.compareLane _ _ _ lane).clearFlags
  case h_27 =>
    cases done
    exact (start.forLanes fun lane _ k => k.clLane _ _ lane).clearFlags
  case h_28 =>
    cases done
    exact start.clearVcc.clearFlags.forLanes fun lane _ k => k.chLane _ _ lane
  case h_29 =>
    cases done
    exact (start.clearVcc.forLanes fun lane _ k => k.crLane _ _ lane).clearFlags
  case h_30 =>
    cases done
    exact start.forLanes fun lane _ k => k.mergeLane _ _ lane
  case h_31 | h_32 | h_33 | h_34 | h_35 | h_36 =>
    cases done
    exact start.forLanes fun lane _ k => k.logicLane _ _ _ lane
  case h_37 | h_38 | h_39 | h_40 | h_41 | h_42 | h_43 =>
    cases done
    exact Fits.divide _ _ _ _ _ _ h
  case h_44 => cases done

end VectorStep

end RspVector

namespace RspVector

def slice (v : VectorUnit) (lane : Fin 8) (element : BitVec 4) : U16 :=
  (sarLane element lane { unit := v }).result lane

theorem slice_toNat (v : VectorUnit) (lane : Fin 8) {element : BitVec 4} (low : 8 ≤ element.toNat)
    (high : element.toNat ≤ 10) : ((slice v lane element).toNat : ℤ) =
      v.accumulator lane % 2 ^ 48 / 2 ^ ((10 - element.toNat) * 16) % 2 ^ 16 := by
  have value := masked_toNat (v.accumulator lane)
  simp only [slice, sarLane, VectorStep.setResult, Function.update_self, low, high, and_self,
    if_true]
  rw [BitVec.toNat_setWidth, BitVec.toNat_ushiftRight, Nat.shiftRight_eq_div_pow, ← value]
  push_cast
  rfl

theorem slices_recompose {v : VectorUnit} {lane : Fin 8} (range : InRange (v.accumulator lane)) :
    wrapAccumulator ((slice v lane 8).toNat * 2 ^ 32 + (slice v lane 9).toNat * 2 ^ 16 +
      (slice v lane 10).toNat) = v.accumulator lane := by
  rw [slice_toNat v lane (by decide) (by decide), slice_toNat v lane (by decide) (by decide),
    slice_toNat v lane (by decide) (by decide)]
  have high : (10 - (8 : BitVec 4).toNat) * 16 = 32 := rfl
  have middle : (10 - (9 : BitVec 4).toNat) * 16 = 16 := rfl
  have low : (10 - (10 : BitVec 4).toNat) * 16 = 0 := rfl
  rw [high, middle, low]
  have whole : v.accumulator lane % 2 ^ 48 / 2 ^ 32 % 2 ^ 16 * 2 ^ 32 +
      v.accumulator lane % 2 ^ 48 / 2 ^ 16 % 2 ^ 16 * 2 ^ 16 +
      v.accumulator lane % 2 ^ 48 / 2 ^ 0 % 2 ^ 16 = v.accumulator lane % 2 ^ 48 := by
    omega
  have wrapped := wrapAccumulator_range (v.accumulator lane % 2 ^ 48)
  have same := wrapAccumulator_emod (v.accumulator lane % 2 ^ 48)
  rw [whole]
  obtain ⟨low, high⟩ := range
  omega

theorem inRange_execVector {v : VectorUnit} (h : ∀ lane, InRange (v.accumulator lane))
    (insn : U32) (lane : Fin 8) : InRange ((execVector v insn).accumulator lane) := by
  unfold execVector
  dsimp only
  split
  · rename_i t done
    exact VectorStep.Fits.vectorFunction _ _ _ _ _ _ _ h done lane
  · exact h lane

end RspVector

namespace Rsp

open RspVector

def InImem (pc : U32) : Prop := pc &&& kImemMask = pc

structure Shaped (r : Rsp) : Prop where
  zero : r.gpr 0 = 0
  pc : InImem r.pc
  nextPc : InImem r.nextPc
  accumulator : ∀ lane, InRange (r.vector.accumulator lane)

theorem InImem.word {pc : U32} (h : InImem pc) :
    pc.toNat % 4 = 0 ∧ pc.toNat + 3 < kSpImemSize := by
  have low : pc &&& 3 = 0 := by
    rw [← h, BitVec.and_assoc]
    exact BitVec.and_zero
  have bits : (pc &&& 3).toNat = pc.toNat % 4 := by
    rw [BitVec.toNat_and]
    exact Nat.and_two_pow_sub_one_eq_mod pc.toNat 2
  have small : (pc &&& kImemMask).toNat ≤ kImemMask.toNat := by
    rw [BitVec.toNat_and]
    exact Nat.and_le_right
  rw [low] at bits
  rw [h] at small
  have top : kImemMask.toNat = 0xFFC := rfl
  have size : kSpImemSize = 0x1000 := rfl
  exact ⟨bits.symm, by omega⟩

theorem inImem_masked (x : U32) : InImem (x &&& kImemMask) := by
  rw [InImem, BitVec.and_assoc, BitVec.and_self]

theorem shaped_initial : Shaped {} where
  zero := rfl
  pc := rfl
  nextPc := rfl
  accumulator := fun _ => inRange_zero

namespace Shaped

variable {r : Rsp} (h : Shaped r) (insn : U32)
include h

theorem writeGpr (i : BitVec 5) (value : U32) : Shaped (Rsp.writeGpr r i value) := by
  unfold Rsp.writeGpr
  split
  · rename_i target
    exact { h with zero := (Function.update_of_ne target.symm _ _).trans h.zero }
  · exact h

theorem branchAbs (target : U32) : Shaped (Rsp.branchAbs r target) :=
  { h with nextPc := inImem_masked target }

theorem branchRel (offImm : U32) : Shaped (Rsp.branchRel r offImm) :=
  { h with nextPc := inImem_masked _ }

theorem link (reg : BitVec 5) : Shaped (Rsp.link r reg) := h.writeGpr _ _

theorem branchIf (c : Prop) [Decidable c] (offImm : U32) :
    Shaped (if c then Rsp.branchRel r offImm else r) := by
  split
  · exact h.branchRel _
  · exact h

theorem unit {v : VectorUnit} (range : ∀ lane, InRange (v.accumulator lane)) :
    Shaped { r with vector := v } := { h with accumulator := range }

theorem execSpecialReg : Shaped (Rsp.execSpecialReg r insn) := by
  simp only [Rsp.execSpecialReg]
  split
  all_goals first
    | exact h.writeGpr _ _
    | exact h.branchAbs _
    | exact (h.link _).branchAbs _
    | exact h

theorem execRegimm : Shaped (Rsp.execRegimm r insn) := by
  simp only [Rsp.execRegimm]
  split
  · exact h.branchIf _ _
  · exact h.branchIf _ _
  · exact (h.link 31).branchIf _ _
  · exact (h.link 31).branchIf _ _
  · exact h

theorem execCop2 : Shaped (Rsp.execCop2 r insn) := by
  simp only [Rsp.execCop2]
  split
  · exact h.unit (inRange_execVector h.accumulator insn)
  · split
    · exact h.writeGpr _ _
    · exact h.writeGpr _ _
    · refine h.unit ?_
      split
      · exact h.accumulator
      · exact h.accumulator
    · refine h.unit ?_
      split
      · exact h.accumulator
      · exact h.accumulator
      · exact h.accumulator
    · exact h

theorem executeReg : Shaped (Rsp.executeReg r insn) := by
  simp only [Rsp.executeReg]
  split
  all_goals first
    | exact h.execRegimm insn
    | exact h.execCop2 insn
    | exact h.writeGpr _ _
    | exact h.branchAbs _
    | exact (h.link _).branchAbs _
    | exact h.branchIf _ _
    | exact h

theorem setVectorLane (reg : BitVec 5) (lane : Fin 8) (value : U16) :
    Shaped { r with vector := RspVector.setVectorLane r.vector reg lane value } :=
  h.unit h.accumulator

theorem enterStep : Shaped (Rsp.enterStep r) := by
  simp only [Rsp.enterStep]
  split
  · exact { h with }
  · exact { h with nextPc := inImem_masked _ }

theorem advancePc (insnPc : U32) (delaySlot : Bool) :
    Shaped (Rsp.advancePc r insnPc delaySlot) := by
  unfold Rsp.advancePc
  split_ifs
  · exact { h with pc := h.nextPc, nextPc := inImem_masked _ }
  · exact { h with pc := inImem_masked _ }
  · exact { h with pc := h.nextPc, nextPc := inImem_masked _ }

theorem retire : Shaped (Rsp.retire r) := { h with zero := Function.update_self 0 0 r.gpr }

theorem setPc (pc : U32) : Shaped (Rsp.setPc r pc) :=
  { h with pc := inImem_masked _, nextPc := inImem_masked _ }

end Shaped

end Rsp

namespace Sys

variable {s : Sys}

def RspShaped (s : Sys) : Prop := s.rsp.Shaped

theorem RspShaped.sp {t : Sys} (h : s.RspShaped) (same : t.sp = s.sp) : t.RspShaped := by
  have rsp : t.rsp = s.rsp := congrArg SpView.rsp same
  unfold RspShaped
  rw [rsp]
  exact h

theorem RspShaped.memories (h : s.RspShaped) (dmem imem : ℕ → U8) :
    Rsp.Shaped { s.rsp with dmem := dmem, imem := imem } := { h with }

section SpWrite

theorem RspShaped.dmaByte (h : s.RspShaped) (toSp imem : Bool) (mem dram : U32) (i : ℕ) :
    (SpRegs.dmaByte toSp imem mem dram i s).RspShaped := by
  simp only [SpRegs.dmaByte, SpRegs.setSpmem, Sys.setRdramByte]
  split_ifs <;> exact h

theorem RspShaped.dmaLine (toSp imem : Bool) (d : SpRegs.SpDmaLen) {t : SpRegs.DmaState}
    (h : t.sys.RspShaped) : (SpRegs.dmaLine toSp imem d t).sys.RspShaped := by
  have bytes : (upTo (SpRegs.dmaByte toSp imem t.mem t.dram) d.length.toNat t.sys).RspShaped :=
    upTo_preserves RspShaped _ h fun i _ u k => k.dmaByte _ _ _ _ i
  simp only [SpRegs.dmaLine]
  split
  · exact bytes.sp (sp_of (co_notifyMemoryWrite _ _ _))
  · exact bytes.sp (sp_of (co_notifyMemoryWrite _ _ _))

theorem RspShaped.copyToRsp (h : s.RspShaped) (imem : Bool) :
    (SpRegs.copyToRsp s imem).RspShaped := by
  unfold SpRegs.copyToRsp
  split
  · exact h.memories _ _
  · exact h.memories _ _

theorem RspShaped.doDma (h : s.RspShaped) (toSp : Bool) (lenReg : U32) :
    (SpRegs.doDma s toSp lenReg).RspShaped := by
  have lines (imem : Bool) (d : SpRegs.SpDmaLen) (n : ℕ) {t : SpRegs.DmaState}
      (k : t.sys.RspShaped) : (upTo (fun _ u => SpRegs.dmaLine toSp imem d u) n t).sys.RspShaped :=
    upTo_preserves (fun u : SpRegs.DmaState => u.sys.RspShaped) n k
      fun _ _ u k => RspShaped.dmaLine toSp imem d k
  simp only [SpRegs.doDma]
  exact RspShaped.copyToRsp (lines _ _ _ h) _

theorem RspShaped.applyStatusWrite (h : s.RspShaped) (value : U32) :
    (SpRegs.applyStatusWrite s value).RspShaped := by
  have signal (t : Sys) (k : t.RspShaped) (i : ℕ) : (SpRegs.signalStep value i t).RspShaped :=
    onBit_preserves RspShaped (onBit_preserves RspShaped k id) id
  refine upTo_preserves RspShaped 8 ?_ fun i _ t k => signal t k i
  refine onBit_preserves RspShaped ?_ fun k => { k with }
  refine onBit_preserves RspShaped ?_ fun k => { k with }
  refine onBit_preserves RspShaped ?_ id
  refine onBit_preserves RspShaped ?_ id
  refine onBit_preserves RspShaped ?_ id
  refine onBit_preserves RspShaped ?_ id
  refine onBit_preserves RspShaped ?_ fun k => { k with }
  refine onBit_preserves RspShaped ?_ fun k => { k with }
  exact onBit_preserves RspShaped h fun k => { k with }

theorem RspShaped.spWrite (h : s.RspShaped) (offset value : U32) :
    (SpRegs.write s offset value).RspShaped := by
  unfold SpRegs.write
  split
  · exact h
  · exact h
  · exact h.doDma true value
  · exact h.doDma false value
  · exact h.applyStatusWrite value
  · exact h
  · exact h

theorem RspShaped.spWritePc (h : s.RspShaped) (offset value : U32) :
    (SpRegs.writePc s offset value).RspShaped := by
  unfold SpRegs.writePc
  split
  · exact h.setPc _
  · exact h

end SpWrite

end Sys

open Sys

theorem rspShaped_reach : RspReach RspShaped where
  relog := fun _ h => h
  pokeSpDmem := fun _ _ h => h
  pushMemToBus := fun h => h
  notifyBreak := fun intrOnBreak h => by
    simp only [SpRegs.notifyBreak]
    split
    · exact h
    · exact h
  pokeRspDmem := fun _ _ h => h.memories _ _
  setVectorLane := fun reg lane value h => h.setVectorLane reg lane value
  executeReg := fun insn h => h.executeReg insn
  execSpecialReg := fun insn h => h.execSpecialReg insn
  broken := fun h => { h with }
  idle := fun h => { h with }
  retire := fun h => h.retire
  advancePc := fun insnPc delaySlot h => h.advancePc insnPc delaySlot

theorem RspShaped.execCop0 {s : Sys} (h : s.RspShaped) (insn : U32) :
    (Rsp.execCop0 s insn).RspShaped := by
  have read (n : ℕ) : (Rsp.moveFromCop0 s n).2.RspShaped := by
    simp only [Rsp.moveFromCop0]
    split_ifs <;> exact h
  have written (n : ℕ) (value : U32) : (Rsp.moveToCop0 s n value).RspShaped := by
    have block := h.spWrite (BitVec.ofNat 32 (n * 4)) value
    simp only [Rsp.moveToCop0]
    split_ifs
    · exact { block with }
    · exact block
    · exact h.sp (sp_dpWrite s _ _)
    · exact h
  simp only [Rsp.execCop0]
  split_ifs
  · exact Rsp.Shaped.writeGpr (read _) _ _
  · exact written _ _
  · exact h

theorem RspShaped.rspStep {s : Sys} (h : s.RspShaped) : (Rsp.step s).RspShaped := by
  refine rspShaped_reach.step (fun _ => ?_) h
  have entered : RspShaped { s with rsp := Rsp.enterStep s.rsp } := Rsp.Shaped.enterStep h
  generalize Rsp.fetch s.rsp s.rsp.pc = insn
  by_cases cop0 : op insn = 0x10
  · have moves : Rsp.execute { s with rsp := Rsp.enterStep s.rsp } insn =
        Rsp.execCop0 { s with rsp := Rsp.enterStep s.rsp } insn := by
      simp only [Rsp.execute, cop0]
    rw [moves]
    exact RspShaped.execCop0 entered insn
  · exact rspShaped_reach.execute insn cop0 entered

theorem rspShaped_devices : DevicesInvariant RspShaped where
  cpu := fun _ h => h
  relog := fun _ h => h
  takeSemaphore := fun h => h
  pokeRdram := fun _ _ h => h
  storeDmem := fun _ _ h => h.memories _ _
  storeImem := fun _ _ h => h.memories _ _
  storePifRam := fun off b h => h.sp (sp_of (co_storePifRam _ off b))
  spWrite := fun offset value h => h.spWrite offset value
  spWritePc := fun offset value h => h.spWritePc offset value
  dpWrite := fun offset value h => h.sp (sp_dpWrite _ offset value)
  miWrite := fun offset value h => h.sp (sp_of (co_miWrite _ offset value))
  viWrite := fun offset value h => h.sp (sp_of (co_viWrite _ offset value))
  aiWrite := fun offset value h => h.sp (sp_of (co_aiWrite _ offset value))
  piWrite := fun offset value h => h.sp (sp_of (co_piWrite _ offset value))
  riWrite := fun _ _ h => h
  siWrite := fun offset value h => h.sp (sp_of (co_siWrite _ offset value))
  rspStep := fun h => RspShaped.rspStep h
  tick := fun d h => h.sp (sp_of (co_tickDevices _ d))
  reset := fun _ => Rsp.shaped_initial
  pushMemToBus := fun h => h
  clearFrameReady := fun h => h
  loadCartridge := fun _ _ h => h
  loadPifRom := fun _ _ h => h
  seedPif := fun _ h => h
  mirrorPif := fun h => h
  resetRsp := fun _ => Rsp.shaped_initial

namespace Emulator

open RspVector

/-- After any loads, resets, boots, runs and bus accesses. -/
theorem rsp_registers_shaped (fp : HostFpu) (files : Files) (acts : List Act)
    (onBus : ∀ a ∈ acts, a.OnBus) :
    let r := (Runs.run (step fp) acts (construct files)).sys.rsp
    r.gpr 0 = 0 ∧
    (r.pc.toNat % 4 = 0 ∧ r.pc.toNat + 3 < kSpImemSize) ∧
    (r.nextPc.toNat % 4 = 0 ∧ r.nextPc.toNat + 3 < kSpImemSize) ∧
    ∀ lane,
      (∀ function s t, ∀ x ∈ temporaries function s t (r.vector.accumulator lane), FitsS64 x) ∧
      wrapAccumulator ((slice r.vector lane 8).toNat * 2 ^ 32 +
        (slice r.vector lane 9).toNat * 2 ^ 16 + (slice r.vector lane 10).toNat) =
        r.vector.accumulator lane := by
  intro r
  have shaped : r.Shaped := (rspShaped_devices.runInvariant fp).holds files acts onBus
  refine ⟨shaped.zero, shaped.pc.word, shaped.nextPc.word, fun lane => ?_⟩
  have range := shaped.accumulator lane
  exact ⟨fun function s t => temporaries_fit function s t range.1 range.2, slices_recompose range⟩

/-- A start of the RSP at a wild address, two turns and a stop. -/
theorem rsp_registers_shaped_started :
    (Runs.run (step default) [.component (DeviceAct.spWritePc 0 0xFFFFFFFF).perform,
      .component (DeviceAct.spWrite 0x10 1).perform, .component DeviceAct.rspStep.perform,
      .component DeviceAct.rspStep.perform] (construct fun _ => none)).sys.rsp.pc.toNat % 4 = 0 :=
  (rsp_registers_shaped default (fun _ => none) _ (by simp [Act.OnBus])).2.1.1

end Emulator

end N64
