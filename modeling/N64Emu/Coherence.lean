import N64Emu.DeviceInvariant
import N64Emu.Boot

/-!
# The two copies agree

DMEM, IMEM and PIF RAM exist on the bus and in their component, the halt,
broke and interrupt-on-break flags in SP_STATUS and in the RSP. Every writer
leaves the copies equal, though not at every point on the way: a store writes
one copy and then mirrors it, so between the two the copies differ only at the
offsets still to be mirrored.
-/

set_option autoImplicit false

namespace N64

open Words Loops SpRegisters

/-- The SP_STATUS bits show the RSP's flags. -/
structure FlagsAgree (status : U32) (r : Rsp) : Prop where
  halted : (status &&& StHalt != 0) = r.halted
  broke : (status &&& StBroke != 0) = r.broke
  intrOnBreak : (status &&& StIntrOnBreak != 0) = r.intrOnBreak

def DmemAgree (s : Sys) : Prop := s.bus.spDmem = s.rsp.dmem
def ImemAgree (s : Sys) : Prop := s.bus.spImem = s.rsp.imem
def PifAgree (s : Sys) : Prop := s.bus.pifRam = s.pif.pifRam

structure Coherent (s : Sys) : Prop where
  dmem : DmemAgree s
  imem : ImemAgree s
  pif : PifAgree s
  flags : FlagsAgree s.bus.spRegs.status s.rsp

section Frames

variable {ps : List Part} {s t : Sys}

theorem DmemAgree.frame (k : DmemAgree s) (h : Frame ps s t) (bus : .busDmem ∉ ps)
    (rsp : .rspDmem ∉ ps) : DmemAgree t := by
  have onBus : t.bus.spDmem = s.bus.spDmem := h.parts .busDmem bus
  have onRsp : t.rsp.dmem = s.rsp.dmem := h.parts .rspDmem rsp
  rw [DmemAgree, onBus, onRsp, k]

theorem ImemAgree.frame (k : ImemAgree s) (h : Frame ps s t) (bus : .busImem ∉ ps)
    (rsp : .rspImem ∉ ps) : ImemAgree t := by
  have onBus : t.bus.spImem = s.bus.spImem := h.parts .busImem bus
  have onRsp : t.rsp.imem = s.rsp.imem := h.parts .rspImem rsp
  rw [ImemAgree, onBus, onRsp, k]

theorem PifAgree.frame (k : PifAgree s) (h : Frame ps s t) (bus : .busPif ∉ ps)
    (pif : .pif ∉ ps) : PifAgree t := by
  have onBus : t.bus.pifRam = s.bus.pifRam := h.parts .busPif bus
  have onPif : t.pif = s.pif := h.parts .pif pif
  rw [PifAgree, onBus, onPif, k]

theorem FlagsAgree.frame (k : FlagsAgree s.bus.spRegs.status s.rsp) (h : Frame ps s t)
    (status : .spStatus ∉ ps) (rsp : .rspFlags ∉ ps) : FlagsAgree t.bus.spRegs.status t.rsp := by
  have same : t.bus.spRegs.status = s.bus.spRegs.status := h.parts .spStatus status
  have kept := h.parts .rspFlags rsp
  simp only [Part.Kept, Prod.mk.injEq] at kept
  rw [same]
  exact ⟨k.halted.trans kept.1.symm, k.broke.trans kept.2.1.symm,
    k.intrOnBreak.trans kept.2.2.symm⟩

theorem Coherent.irq (k : Coherent s) (h : Frame [.irq] s t) : Coherent t :=
  ⟨k.dmem.frame h (by decide) (by decide), k.imem.frame h (by decide) (by decide),
    k.pif.frame h (by decide) (by decide), k.flags.frame h (by decide) (by decide)⟩

theorem Coherent.serial (k : Coherent s) (h : Frame serialParts s t) (pif : PifAgree t) :
    Coherent t :=
  ⟨k.dmem.frame h (by decide) (by decide), k.imem.frame h (by decide) (by decide), pif,
    k.flags.frame h (by decide) (by decide)⟩

end Frames

section Serial

variable (s : Sys)

theorem pifAgree_mirrorPif : PifAgree s.mirrorPif := rfl

theorem pifAgree_dmaFromPif : PifAgree (Si.dmaFromPif s) := by
  refine PifAgree.frame ?_ (frame_siFinishDma _) (by decide) (by decide)
  refine PifAgree.frame ?_ (frame_setSi _ _) (by decide) (by decide)
  exact pifAgree_mirrorPif _

theorem pifAgree_dmaToPif : PifAgree (Si.dmaToPif s) := by
  refine PifAgree.frame ?_ (frame_siFinishDma _) (by decide) (by decide)
  refine PifAgree.frame ?_ (frame_setSi _ _) (by decide) (by decide)
  split
  · exact pifAgree_mirrorPif _
  · exact pifAgree_mirrorPif _

theorem Coherent.siWrite {s : Sys} (offset value : U32) (k : Coherent s) :
    Coherent (Si.write s offset value) := by
  unfold Si.write
  split
  · exact k.irq (frame_setSi s _)
  · exact k.serial (frame_dmaFromPif s) (pifAgree_dmaFromPif s)
  · exact k.serial (frame_dmaToPif s) (pifAgree_dmaToPif s)
  · exact (k.irq (frame_setSi s _)).irq (frame_clear _ _)
  · exact k

theorem Coherent.storePifRam {s : Sys} (off : ℕ) (value : U8) (k : Coherent s) :
    Coherent (Bus.storePifRam s off value) := by
  refine k.serial ((frame_storePifRam s off value).mono (by decide)) ?_
  unfold Bus.storePifRam
  split
  · exact pifAgree_mirrorPif _
  · have same : s.bus.pifRam = s.pif.pifRam := k.pif
    simp only [PifAgree, Sys.pokePif, Sys.pokeBusPif, same]

end Serial

section Status

variable {s : Sys} {status bits : U32} {r : Rsp}

def OtherBits (bits : U32) : Prop := bits &&& (StHalt ||| StBroke ||| StIntrOnBreak) = 0

theorem OtherBits.each (h : OtherBits bits) :
    bits &&& StHalt = 0 ∧ bits &&& StBroke = 0 ∧ bits &&& StIntrOnBreak = 0 := by
  unfold OtherBits at h
  rw [BitVec.and_or_distrib_left, BitVec.and_or_distrib_left] at h
  obtain ⟨first, third⟩ := BitVec.or_eq_zero_iff.mp h
  obtain ⟨one, two⟩ := BitVec.or_eq_zero_iff.mp first
  exact ⟨one, two, third⟩

theorem FlagsAgree.setOther (k : FlagsAgree status r) (other : OtherBits bits) :
    FlagsAgree (status ||| bits) r :=
  ⟨(testBit_or_other _ other.each.1).trans k.halted,
    (testBit_or_other _ other.each.2.1).trans k.broke,
    (testBit_or_other _ other.each.2.2).trans k.intrOnBreak⟩

theorem FlagsAgree.clearOther (k : FlagsAgree status r) (other : OtherBits bits) :
    FlagsAgree (status &&& ~~~bits) r :=
  ⟨(testBit_clear_other _ other.each.1).trans k.halted,
    (testBit_clear_other _ other.each.2.1).trans k.broke,
    (testBit_clear_other _ other.each.2.2).trans k.intrOnBreak⟩

theorem Coherent.setOther (k : Coherent s) (other : OtherBits bits) :
    Coherent (SpRegs.setStatus s bits) :=
  ⟨k.dmem, k.imem, k.pif, k.flags.setOther other⟩

theorem Coherent.clearOther (k : Coherent s) (other : OtherBits bits) :
    Coherent (SpRegs.clearStatus s bits) :=
  ⟨k.dmem, k.imem, k.pif, k.flags.clearOther other⟩

theorem Coherent.clearHalt (k : Coherent s) : Coherent (SpRegs.clearHalt s) where
  dmem := rfl
  imem := rfl
  pif := k.pif
  flags :=
    { halted := (testBit_clear_other _ rfl).trans (testBit_clear_self _ rfl)
      broke := testBit_clear_self _ rfl
      intrOnBreak :=
        ((testBit_clear_other _ rfl).trans (testBit_clear_other _ rfl)).trans k.flags.intrOnBreak }

theorem Coherent.setHalt (k : Coherent s) : Coherent (SpRegs.setHalt s) where
  dmem := k.dmem
  imem := k.imem
  pif := k.pif
  flags :=
    { halted := testBit_or_self _ rfl (by decide)
      broke := (testBit_or_other _ rfl).trans k.flags.broke
      intrOnBreak := (testBit_or_other _ rfl).trans k.flags.intrOnBreak }

theorem Coherent.clearBroke (k : Coherent s) : Coherent (SpRegs.clearBroke s) where
  dmem := k.dmem
  imem := k.imem
  pif := k.pif
  flags :=
    { halted := (testBit_clear_other _ rfl).trans k.flags.halted
      broke := testBit_clear_self _ rfl
      intrOnBreak := (testBit_clear_other _ rfl).trans k.flags.intrOnBreak }

theorem Coherent.clearIntrBreak (k : Coherent s) : Coherent (SpRegs.clearIntrBreak s) where
  dmem := k.dmem
  imem := k.imem
  pif := k.pif
  flags :=
    { halted := (testBit_clear_other _ rfl).trans k.flags.halted
      broke := (testBit_clear_other _ rfl).trans k.flags.broke
      intrOnBreak := testBit_clear_self _ rfl }

theorem Coherent.setIntrBreak (k : Coherent s) : Coherent (SpRegs.setIntrBreak s) where
  dmem := k.dmem
  imem := k.imem
  pif := k.pif
  flags :=
    { halted := (testBit_or_other _ rfl).trans k.flags.halted
      broke := (testBit_or_other _ rfl).trans k.flags.broke
      intrOnBreak := testBit_or_self _ rfl (by decide) }

theorem signal_other (i : ℕ) (hi : i < 8) : OtherBits (StSignal0 <<< i) := by
  unfold OtherBits
  interval_cases i <;> decide

theorem Coherent.signalStep (value : U32) {i : ℕ} (hi : i < 8) (k : Coherent s) :
    Coherent (SpRegs.signalStep value i s) := by
  simp only [SpRegs.signalStep]
  refine onBit_preserves Coherent ?_ fun h => h.setOther (signal_other i hi)
  exact onBit_preserves Coherent k fun h => h.clearOther (signal_other i hi)

theorem Coherent.applyStatusWrite (value : U32) (k : Coherent s) :
    Coherent (SpRegs.applyStatusWrite s value) := by
  refine upTo_preserves Coherent 8 ?_ fun i hi t h => h.signalStep value hi
  refine onBit_preserves Coherent ?_ Coherent.setIntrBreak
  refine onBit_preserves Coherent ?_ Coherent.clearIntrBreak
  refine onBit_preserves Coherent ?_ fun h => h.setOther rfl
  refine onBit_preserves Coherent ?_ fun h => h.clearOther rfl
  refine onBit_preserves Coherent ?_ fun h => h.irq (frame_raise _ _)
  refine onBit_preserves Coherent ?_ fun h => h.irq (frame_clear _ _)
  refine onBit_preserves Coherent ?_ Coherent.clearBroke
  refine onBit_preserves Coherent ?_ Coherent.setHalt
  exact onBit_preserves Coherent k Coherent.clearHalt

end Status

section Transfers

variable {s : Sys}

theorem Coherent.copied {t : Sys} {imem : Bool} (k : Coherent s) (h : Frame (spCopy imem) s t) :
    Coherent (SpRegs.copyToRsp t imem) := by
  cases imem with
  | true =>
    have dmem : DmemAgree t := k.dmem.frame h (by decide) (by decide)
    have pif : PifAgree t := k.pif.frame h (by decide) (by decide)
    have flags : FlagsAgree t.bus.spRegs.status t.rsp := k.flags.frame h (by decide) (by decide)
    exact ⟨dmem, rfl, pif, ⟨flags.halted, flags.broke, flags.intrOnBreak⟩⟩
  | false =>
    have imem : ImemAgree t := k.imem.frame h (by decide) (by decide)
    have pif : PifAgree t := k.pif.frame h (by decide) (by decide)
    have flags : FlagsAgree t.bus.spRegs.status t.rsp := k.flags.frame h (by decide) (by decide)
    exact ⟨rfl, imem, pif, ⟨flags.halted, flags.broke, flags.intrOnBreak⟩⟩

theorem Coherent.setSp {r : SpRegisters} (k : Coherent s) (flags : FlagsAgree r.status s.rsp) :
    Coherent { s with bus.spRegs := r } :=
  ⟨k.dmem, k.imem, k.pif, flags⟩

theorem Coherent.doDma (toSp : Bool) (lenReg : U32) (k : Coherent s) :
    Coherent (SpRegs.doDma s toSp lenReg) := by
  have lines : ∀ (imem : Bool) (d : SpRegs.SpDmaLen) (n : ℕ) (t : SpRegs.DmaState),
      Frame (spCopy imem) t.sys (upTo (fun _ u => SpRegs.dmaLine toSp imem d u) n t).sys := by
    intro imem d n t
    refine (frame_dmaLines toSp imem d n t).mono fun p member => ?_
    cases toSp with
    | true => exact member
    | false => exact absurd member List.not_mem_nil
  have busy : Coherent (SpRegs.setDmaBusy s) := k.setOther rfl
  have copied := fun imem d n t (start : t.sys = SpRegs.setDmaBusy s) =>
    (start ▸ busy : Coherent t.sys).copied (lines imem d n t)
  refine Coherent.irq (Coherent.setSp ?_ ?_) (frame_raise _ _)
  · exact copied _ _ _ _ rfl
  · exact (copied _ _ _ _ rfl).flags.clearOther rfl

theorem Coherent.spWrite (offset value : U32) (k : Coherent s) :
    Coherent (SpRegs.write s offset value) := by
  unfold SpRegs.write
  split
  case h_3 => exact k.doDma true value
  case h_4 => exact k.doDma false value
  case h_5 => exact k.applyStatusWrite value
  case h_7 => exact k
  all_goals exact ⟨k.dmem, k.imem, k.pif, k.flags⟩

theorem Coherent.storeDmem (off : ℕ) (b : U8) (k : Coherent s) :
    Coherent (Bus.storeDmem s off b) := by
  have same : s.bus.spDmem = s.rsp.dmem := k.dmem
  exact ⟨by simp only [DmemAgree, Bus.storeDmem, Sys.pokeSpDmem, Sys.pokeRspDmem, same], k.imem,
    k.pif, ⟨k.flags.halted, k.flags.broke, k.flags.intrOnBreak⟩⟩

theorem Coherent.storeImem (off : ℕ) (b : U8) (k : Coherent s) :
    Coherent (Bus.storeImem s off b) := by
  have same : s.bus.spImem = s.rsp.imem := k.imem
  exact ⟨k.dmem, by simp only [ImemAgree, Bus.storeImem, Sys.pokeSpImem, Sys.pokeRspImem, same],
    k.pif, ⟨k.flags.halted, k.flags.broke, k.flags.intrOnBreak⟩⟩

theorem coherent_devices : DeviceInvariant Coherent where
  unwatched := fun h k => k.irq (h.mono (by simp))
  spWrite := fun offset value k => k.spWrite offset value
  dpWrite := fun offset value k => k.irq (frame_dpWrite _ offset value)
  miWrite := fun offset value k => k.irq (frame_miWrite _ offset value)
  viWrite := fun offset value k => k.irq (frame_viWrite _ offset value)
  aiWrite := fun offset value k => k.irq (frame_aiWrite _ offset value)
  piWrite := fun offset value k => k.irq (frame_piWrite _ offset value)
  siWrite := fun offset value k => k.siWrite offset value
  storeDmem := fun off b k => k.storeDmem off b
  storeImem := fun off b k => k.storeImem off b
  storePifRam := fun off value k => k.storePifRam off value

end Transfers

end N64
