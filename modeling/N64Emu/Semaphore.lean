import N64Emu.TestAndSet
import N64Emu.SpSide
import N64Emu.DeviceSide
import N64Emu.SubWordStores

/-!
# The semaphore of the CPU and the RSP

The CPU reaches the semaphore through the bus, the RSP through its COP0
registers. In whatever order their accesses fall, two owners are always
separated by a write, and no transfer, list or other store changes the flag.
-/

set_option autoImplicit false

namespace N64

open Words Loops Insn TestAndSet

/-- Who can own the semaphore. -/
inductive Owner where
  | cpu
  | rsp
  deriving DecidableEq

namespace Sys

def semaphoreTaken (s : Sys) : Bool := s.bus.spRegs.semaphore != 0

def AtSemaphore (addr : U32) : Prop := Bus.physical addr &&& ~~~3 = 0x0404001C

instance (addr : U32) : Decidable (AtSemaphore addr) := inferInstanceAs (Decidable (_ = _))

/-- What an access shows of the flag, where it carries the byte that holds it. -/
def flagIn (carried : Bool) (value : U32) : Option Bool :=
  if carried then some (value != 0) else none

/-- The access of an RSP step: MFC0 shows the flag in its register, MTC0 clears it. -/
def rspAccess (s : Sys) : List (Access Owner) :=
  let insn := Rsp.fetch s.rsp s.rsp.pc
  if s.rsp.halted ∨ op insn ≠ 0x10 ∨ (rd insn).toNat ≠ 7 then []
  else if rs insn = 0 then
    [.read .rsp (if rt insn = 0 then none else some ((Rsp.step s).rsp.gpr (rt insn) != 0))]
  else if rs insn = 4 then [.clear]
  else []

def accesses (s : Sys) : DeviceAct → List (Access Owner)
  | .read8 addr =>
    if AtSemaphore addr then
      [.read .cpu (flagIn (addr &&& 3 = 3) ((Bus.read8 s addr).1.setWidth 32))]
    else []
  | .read16 addr =>
    if AtSemaphore addr then
      [.read .cpu (flagIn (addr &&& 2 ≠ 0) ((Bus.read16 s addr).1.setWidth 32))]
    else []
  | .read32 addr =>
    if AtSemaphore addr then [.read .cpu (flagIn true (Bus.read32 s addr).1)] else []
  | .read64 addr =>
    if AtSemaphore addr then
      [.read .cpu (flagIn true (((Bus.read64 s addr).1 >>> 32).setWidth 32))]
    else if AtSemaphore (addr + 4) then
      [.read .cpu (flagIn true ((Bus.read64 s addr).1.setWidth 32))]
    else []
  | .write8 addr _ | .write16 addr _ | .write32 addr _ => if AtSemaphore addr then [.clear] else []
  | .write64 addr _ => if AtSemaphore addr ∨ AtSemaphore (addr + 4) then [.clear] else []
  | .spWrite offset _ => if offset &&& 0x1C = 0x1C then [.clear] else []
  | .rspStep => rspAccess s
  | .spWritePc .. | .dpWrite .. | .piWrite .. | .siWrite .. => []

def semaphore (s : Sys) : U32 := s.bus.spRegs.semaphore

section SpRegisters

variable (s : Sys)

theorem semaphore_of_sp {s t : Sys} (same : t.sp = s.sp) : t.semaphore = s.semaphore :=
  congrArg (fun v : SpView => v.regs.semaphore) same

theorem semaphore_dmaByte (toSp imem : Bool) (mem dram : U32) (i : ℕ) :
    (SpRegs.dmaByte toSp imem mem dram i s).semaphore = s.semaphore := by
  simp only [SpRegs.dmaByte, SpRegs.setSpmem, Sys.setRdramByte]
  split_ifs <;> rfl

theorem semaphore_notify (p : PhysicalAddress) (n : U32) :
    (s.notifyMemoryWrite p n).semaphore = s.semaphore :=
  semaphore_of_sp (sp_of (co_notifyMemoryWrite s p n))

theorem semaphore_dmaLine (toSp imem : Bool) (d : SpRegs.SpDmaLen) (t : SpRegs.DmaState) :
    (SpRegs.dmaLine toSp imem d t).sys.semaphore = t.sys.semaphore := by
  have bytes := upTo_untouched Sys.semaphore d.length.toNat t.sys
    fun i _ u => semaphore_dmaByte u toSp imem t.mem t.dram i
  simp only [SpRegs.dmaLine]
  split
  · exact (semaphore_notify _ _ _).trans bytes
  · exact (semaphore_notify _ _ _).trans bytes

theorem semaphore_copyToRsp (imem : Bool) : (SpRegs.copyToRsp s imem).semaphore = s.semaphore := by
  unfold SpRegs.copyToRsp
  split <;> rfl

theorem semaphore_doDma (toSp : Bool) (lenReg : U32) :
    (SpRegs.doDma s toSp lenReg).semaphore = s.semaphore := by
  have lines (imem : Bool) (d : SpRegs.SpDmaLen) (n : ℕ) (t : SpRegs.DmaState) :
      (upTo (fun _ u => SpRegs.dmaLine toSp imem d u) n t).sys.semaphore = t.sys.semaphore :=
    upTo_untouched (fun u : SpRegs.DmaState => u.sys.semaphore) n t
      fun _ _ u => semaphore_dmaLine toSp imem d u
  simp only [SpRegs.doDma]
  exact (semaphore_copyToRsp _ _).trans (lines _ _ _ _)

theorem semaphore_applyStatusWrite (value : U32) :
    (SpRegs.applyStatusWrite s value).semaphore = s.semaphore := by
  let kept (t : Sys) : Prop := t.semaphore = s.semaphore
  refine upTo_preserves kept 8 ?_ fun i _ t k => ?_
  · refine onBit_preserves kept ?_ id
    refine onBit_preserves kept ?_ id
    refine onBit_preserves kept ?_ id
    refine onBit_preserves kept ?_ id
    refine onBit_preserves kept ?_ id
    refine onBit_preserves kept ?_ id
    refine onBit_preserves kept ?_ id
    refine onBit_preserves kept ?_ id
    exact onBit_preserves kept rfl id
  · exact onBit_preserves kept (onBit_preserves kept k id) id

theorem semaphore_spWrite (offset value : U32) : (SpRegs.write s offset value).semaphore =
    if offset &&& 0x1C = 0x1C then 0 else s.semaphore := by
  have named : offset &&& 0x1C = 0x1C ↔ (offset &&& 0x1C).toNat = 0x1C :=
    BitVec.toNat_inj.symm
  simp only [named]
  unfold SpRegs.write
  split
  · rename_i at_
    rw [at_]
    rfl
  · rename_i at_
    rw [at_]
    rfl
  · rename_i at_
    rw [at_]
    exact semaphore_doDma s true value
  · rename_i at_
    rw [at_]
    exact semaphore_doDma s false value
  · rename_i at_
    rw [at_]
    exact semaphore_applyStatusWrite s value
  · rename_i at_
    rw [if_pos at_]
    rfl
  · rename_i others
    rw [if_neg others]

end SpRegisters

section Windows

variable (s : Sys) {p : PhysicalAddress}

theorem word_of_offset {x : U32} (small : x.toNat < 0x20) (aligned : x.toNat % 4 = 0) :
    x &&& 0x1C = 0x1C ↔ x = 0x1C := by
  have named : x = BitVec.ofNat 32 x.toNat := by simp
  rw [named]
  generalize x.toNat = n at small aligned
  interval_cases n <;> first | omega | decide

theorem offset_semaphore (aligned : p.toNat % 4 = 0)
    (window : Mmio.inRange p Mmio.SP_REGS_BASE 0x20 = true) :
    (p - Mmio.SP_REGS_BASE) &&& 0x1C = 0x1C ↔ p = 0x0404001C := by
  simp only [Mmio.inRange, Bool.and_eq_true, decide_eq_true_eq] at window
  have offset : (p - Mmio.SP_REGS_BASE).toNat = p.toNat - 0x04040000 :=
    BitVec.toNat_sub_of_le window.1
  have base : Mmio.SP_REGS_BASE.toNat = 0x04040000 := rfl
  rw [word_of_offset (by omega) (by omega), BitVec.sub_eq_iff_eq_add]
  rfl

theorem semaphore_readMmio32 :
    Bus.readMmio32 s 0x0404001C = (s.semaphore, { s with bus.spRegs.semaphore := 1 }) := rfl

theorem readMmio32_other (aligned : p.toNat % 4 = 0) (other : p ≠ 0x0404001C) :
    (Bus.readMmio32 s p).2 = s := by
  simp only [Bus.readMmio32]
  split
  · rename_i window
    rw [if_neg fun at_ => other ((offset_semaphore aligned window).mp at_)]
  · split_ifs <;> rfl

theorem semaphore_writeMmio32 (aligned : p.toNat % 4 = 0) (value : U32) :
    (Bus.writeMmio32 s p value).semaphore = if p = 0x0404001C then 0 else s.semaphore := by
  by_cases window : Mmio.inRange p Mmio.SP_REGS_BASE 0x20 = true
  · simp only [Bus.writeMmio32, if_pos window]
    simp only [semaphore_spWrite, offset_semaphore aligned window]
  · have other : p ≠ 0x0404001C := by
      rintro rfl
      exact window rfl
    rw [if_neg other]
    simp only [Bus.writeMmio32, if_neg window]
    split_ifs
    · simp only [SpRegs.writePc]
      split <;> rfl
    · exact semaphore_of_sp (sp_dpWrite s _ _)
    · exact semaphore_of_sp (sp_of (co_miWrite s _ _))
    · exact semaphore_of_sp (sp_of (co_viWrite s _ _))
    · exact semaphore_of_sp (sp_of (co_aiWrite s _ _))
    · exact semaphore_of_sp (sp_of (co_piWrite s _ _))
    · rfl
    · exact semaphore_of_sp (sp_of (co_siWrite s _ _))
    · rfl

end Windows

section Typed

variable (s : Sys) {addr : U32}

theorem toNat_word (addr : U32) :
    (Bus.physical addr &&& ~~~3).toNat = (Bus.physical addr).toNat / 4 * 4 :=
  LowMasks.toNat_andNot_low (n := 2) _

theorem word_aligned (addr : U32) : (Bus.physical addr &&& ~~~3).toNat % 4 = 0 := by
  rw [toNat_word]
  omega

theorem atSemaphore_iff (addr : U32) :
    AtSemaphore addr ↔ (Bus.physical addr).toNat / 4 * 4 = 0x0404001C := by
  unfold AtSemaphore
  rw [← BitVec.toNat_inj, toNat_word]
  rfl

theorem AtSemaphore.mmio (h : AtSemaphore addr) : Bus.isMmioRegion (Bus.physical addr) = true := by
  have block : (0x0404001C : U32).toNat / 16 = (Bus.physical addr).toNat / 16 := by
    have rounded := (atSemaphore_iff addr).mp h
    change 0x0404001C / 16 = _
    omega
  exact (Bus.isMmioRegion_block _ _ block).symm

def takeSemaphore (s : Sys) : Sys := { s with bus.spRegs.semaphore := 1 }

theorem read32_at (here : AtSemaphore addr) :
    Bus.read32 s addr = (s.semaphore, s.takeSemaphore) := by
  simp only [Bus.read32, if_pos here.mmio]
  rw [show Bus.physical addr &&& ~~~3 = 0x0404001C from here]
  rfl

theorem read32_off (off : ¬AtSemaphore addr) : (Bus.read32 s addr).2 = s := by
  simp only [Bus.read32]
  split
  · exact readMmio32_other s (word_aligned addr) off
  · rfl

theorem read8_at (here : AtSemaphore addr) : Bus.read8 s addr =
    (byteAt s.semaphore (Bus.laneShift (Bus.physical addr)), s.takeSemaphore) := by
  simp only [Bus.read8, if_pos here.mmio]
  rw [show Bus.physical addr &&& ~~~3 = 0x0404001C from here]
  rfl

theorem read8_off (off : ¬AtSemaphore addr) : (Bus.read8 s addr).2 = s := by
  simp only [Bus.read8]
  split
  · exact readMmio32_other s (word_aligned addr) off
  · rfl

theorem read16_at (here : AtSemaphore addr) : Bus.read16 s addr =
    (if Bus.physical addr &&& 2 = 0 then ((s.semaphore >>> 16) &&& 0xFFFF).setWidth 16
      else (s.semaphore &&& 0xFFFF).setWidth 16, s.takeSemaphore) := by
  have mmio := here.mmio
  simp only [Bus.read16, mmio, Bool.or_true, if_true]
  rw [show Bus.physical addr &&& ~~~3 = 0x0404001C from here, semaphore_readMmio32]
  split <;> rfl

theorem read16_off (off : ¬AtSemaphore addr) : (Bus.read16 s addr).2 = s := by
  simp only [Bus.read16]
  split_ifs
  · exact readMmio32_other s (word_aligned addr) off
  · exact readMmio32_other s (word_aligned addr) off
  · rfl

theorem AtSemaphore.next (here : AtSemaphore addr) : ¬AtSemaphore (addr + 4) := by
  rw [atSemaphore_iff] at here ⊢
  rw [Bus.physical_toNat] at here ⊢
  have next : (addr + 4).toNat = (addr.toNat + 4) % 2 ^ 32 := BitVec.toNat_add addr 4
  omega

theorem read64_words (outside : AtSemaphore addr ∨ AtSemaphore (addr + 4)) :
    Bus.read64 s addr =
      (join64 (Bus.read32 s addr).1 (Bus.read32 (Bus.read32 s addr).2 (addr + 4)).1,
        (Bus.read32 (Bus.read32 s addr).2 (addr + 4)).2) := by
  have high : ¬(Bus.physical addr).toNat < 0x03F00000 := by
    rw [atSemaphore_iff, atSemaphore_iff, Bus.physical_toNat, Bus.physical_toNat] at outside
    rw [Bus.physical_toNat]
    have next : (addr + 4).toNat = (addr.toNat + 4) % 2 ^ 32 := BitVec.toNat_add addr 4
    omega
  simp only [Bus.read64]
  rw [if_neg fun inside => high inside.1]

theorem read64_off (off : ¬AtSemaphore addr) (offNext : ¬AtSemaphore (addr + 4)) :
    (Bus.read64 s addr).2 = s := by
  simp only [Bus.read64]
  split
  · rfl
  · rw [read32_off s off]
    exact read32_off s offNext

section Stores

theorem semaphore_storeBytes (store : Sys → ℕ → U8 → Sys) (off : ℕ) (bs : List U8)
    (each : ∀ (t : Sys) off b, (store t off b).semaphore = t.semaphore) :
    (Sys.storeBytes store s off bs).semaphore = s.semaphore :=
  DeviceInvariant.storeBytes (P := fun t : Sys => t.semaphore = s.semaphore)
    (fun {t} off b same => (each t off b).trans same) off bs rfl

theorem semaphore_modify (addr value : U32) :
    (Bus.writeMmio32 (Bus.readMmio32 s (Bus.physical addr &&& ~~~3)).2
      (Bus.physical addr &&& ~~~3) value).semaphore =
      if AtSemaphore addr then 0 else s.semaphore := by
  rw [semaphore_writeMmio32 _ (word_aligned addr)]
  by_cases here : AtSemaphore addr
  · rw [if_pos here, if_pos (show _ = _ from here)]
  · rw [if_neg here, if_neg (show ¬_ = _ from here), readMmio32_other s (word_aligned addr) here]

theorem semaphore_write8 (addr : U32) (v : U8) : (Bus.write8 s addr v).semaphore =
    if AtSemaphore addr then 0 else s.semaphore := by
  have marked := semaphore_notify s (Bus.physical addr) 1
  simp only [Bus.write8]
  by_cases mmio : Bus.isMmioRegion (Bus.physical addr) = true
  · rw [if_pos mmio, semaphore_modify, marked]
  · rw [if_neg mmio, if_neg fun here : AtSemaphore addr => mmio here.mmio]
    split_ifs
    · exact marked
    · exact marked
    · exact marked
    · exact marked
    · exact (semaphore_of_sp (sp_of (co_storePifRam _ _ _))).trans marked
    · exact marked

/-- A store that starts outside the register windows does not run into the semaphore. -/
theorem away_of_plain (i : ℕ) (short : i < 4)
    (plain : ¬Bus.isMmioRegion (Bus.physical addr) = true) :
    ¬AtSemaphore (addr + BitVec.ofNat 32 i) := by
  intro here
  rw [atSemaphore_iff, Bus.physical_toNat] at here
  have later : (addr + BitVec.ofNat 32 i).toNat = (addr.toNat + i) % 2 ^ 32 := by
    rw [BitVec.toNat_add, BitVec.toNat_ofNat]
    omega
  refine plain ((Bus.isMmioRegion_block (0x0404001C : U32) _ ?_).symm)
  rw [Bus.physical_toNat]
  change 0x0404001C / 16 = _
  omega

theorem semaphore_write16 (addr : U32) (v : U16) : (Bus.write16 s addr v).semaphore =
    if AtSemaphore addr then 0 else s.semaphore := by
  have marked := semaphore_notify s (Bus.physical addr) 2
  simp only [Bus.write16]
  by_cases mmio : Bus.isMmioRegion (Bus.physical addr) = true
  · rw [if_pos mmio]
    split
    · rw [semaphore_modify, marked]
    · rw [semaphore_modify, marked]
  · have first : ¬AtSemaphore addr := fun here => mmio here.mmio
    have second : ¬AtSemaphore (addr + 1) := away_of_plain 1 (by decide) mmio
    rw [if_neg mmio, if_neg first]
    split_ifs
    · exact (semaphore_storeBytes _ Sys.pokeRdram _ _ fun _ _ _ => rfl).trans marked
    · exact (semaphore_storeBytes _ Bus.storeDmem _ _ fun _ _ _ => rfl).trans marked
    · rw [semaphore_write8, if_neg second, semaphore_write8, if_neg first, marked]

theorem semaphore_write32 (addr : U32) (v : U32) : (Bus.write32 s addr v).semaphore =
    if AtSemaphore addr then 0 else s.semaphore := by
  have marked := semaphore_notify s (Bus.physical addr) 4
  simp only [Bus.write32]
  by_cases mmio : Bus.isMmioRegion (Bus.physical addr) = true
  · rw [if_pos mmio, semaphore_writeMmio32 _ (word_aligned addr), marked]
    rfl
  · have first : ¬AtSemaphore addr := fun here => mmio here.mmio
    have second : ¬AtSemaphore (addr + 1) := away_of_plain 1 (by decide) mmio
    have third : ¬AtSemaphore (addr + 2) := away_of_plain 2 (by decide) mmio
    have fourth : ¬AtSemaphore (addr + 3) := away_of_plain 3 (by decide) mmio
    rw [if_neg mmio, if_neg first]
    split_ifs
    · exact (semaphore_storeBytes _ Sys.pokeRdram _ _ fun _ _ _ => rfl).trans marked
    · exact (semaphore_storeBytes _ Bus.storeDmem _ _ fun _ _ _ => rfl).trans marked
    · exact (semaphore_storeBytes _ Bus.storeImem _ _ fun _ _ _ => rfl).trans marked
    · rw [semaphore_write8, if_neg fourth, semaphore_write8, if_neg third, semaphore_write8,
        if_neg second, semaphore_write8, if_neg first, marked]

theorem semaphore_write64 (addr : U32) (v : U64) : (Bus.write64 s addr v).semaphore =
    if AtSemaphore addr ∨ AtSemaphore (addr + 4) then 0 else s.semaphore := by
  have marked := semaphore_notify s (Bus.physical addr) 8
  simp only [Bus.write64]
  split
  · rename_i rdram
    have first : ¬AtSemaphore addr := by
      rw [atSemaphore_iff]
      omega
    have second : ¬AtSemaphore (addr + 4) := by
      have low := rdram.1
      rw [Bus.physical_toNat] at low
      have next : (addr + 4).toNat = (addr.toNat + 4) % 2 ^ 32 := BitVec.toNat_add addr 4
      rw [atSemaphore_iff, Bus.physical_toNat]
      omega
    rw [if_neg (not_or.mpr ⟨first, second⟩)]
    exact (semaphore_storeBytes _ Sys.pokeRdram _ _ fun _ _ _ => rfl).trans marked
  · rw [semaphore_write32, semaphore_write32, marked]
    by_cases second : AtSemaphore (addr + 4)
    · rw [if_pos second, if_pos (Or.inr second)]
    · simp only [second, or_false, if_false]

end Stores

end Typed

section RspStep

variable (s : Sys)

theorem semaphore_reach (k : U32) : RspReach fun t : Sys => t.semaphore = k where
  relog := fun _ h => h
  pokeSpDmem := fun _ _ h => h
  pushMemToBus := fun h => h
  notifyBreak := fun intrOnBreak h => by
    simp only [SpRegs.notifyBreak]
    split
    · exact h
    · exact h
  pokeRspDmem := fun _ _ h => h
  setVectorLane := fun _ _ _ h => h
  executeReg := fun _ h => h
  execSpecialReg := fun _ h => h
  broken := fun h => h
  idle := fun h => h
  retire := fun h => h
  advancePc := fun _ _ h => h

theorem cop0_offset {n : ℕ} (low : n ≤ 7) : BitVec.ofNat 32 (n * 4) &&& 0x1C = 0x1C ↔ n = 7 := by
  interval_cases n <;> decide

theorem semaphore_moveFromCop0 (n : ℕ) : (Rsp.moveFromCop0 s n).2.semaphore =
    if n = 7 then 1 else s.semaphore := by
  by_cases seven : n = 7
  · subst seven
    rfl
  · rw [if_neg seven]
    simp only [Rsp.moveFromCop0, if_neg seven]
    split_ifs <;> rfl

theorem semaphore_moveToCop0 (n : ℕ) (value : U32) : (Rsp.moveToCop0 s n value).semaphore =
    if n = 7 then 0 else s.semaphore := by
  by_cases low : n ≤ 7
  · have written := semaphore_spWrite s (BitVec.ofNat 32 (n * 4)) value
    simp only [cop0_offset low] at written
    simp only [Rsp.moveToCop0, if_pos low]
    split
    · exact written
    · exact written
  · have other : ¬n = 7 := by omega
    rw [if_neg other]
    simp only [Rsp.moveToCop0, if_neg low]
    split
    · exact semaphore_of_sp (sp_dpWrite s _ _)
    · rfl

theorem semaphore_mfc0 {insn : U32} (from_ : rs insn = 0) : (Rsp.execCop0 s insn).semaphore =
    if (rd insn).toNat = 7 then 1 else s.semaphore := by
  simp only [Rsp.execCop0, if_pos from_]
  exact semaphore_moveFromCop0 s _

theorem semaphore_mtc0 {insn : U32} (into : rs insn = 4) : (Rsp.execCop0 s insn).semaphore =
    if (rd insn).toNat = 7 then 0 else s.semaphore := by
  have other : ¬rs insn = 0 := by
    rw [into]
    decide
  simp only [Rsp.execCop0, if_neg other, if_pos into]
  exact semaphore_moveToCop0 s _ _

theorem execute_cop0 {insn : U32} (cop0 : op insn = 0x10) :
    Rsp.execute s insn = Rsp.execCop0 s insn := by
  simp only [Rsp.execute, cop0]

def entered (s : Sys) : Sys := { s with rsp := Rsp.enterStep s.rsp }

theorem semaphore_step_running (running : s.rsp.halted = false) : (Rsp.step s).semaphore =
    (Rsp.execute s.entered (Rsp.fetch s.rsp s.rsp.pc)).semaphore := by
  simp only [Rsp.step, running]
  rw [if_neg Bool.false_ne_true]
  split
  · rfl
  · rfl

theorem writeGpr_self (r : Rsp) {i : BitVec 5} (target : i ≠ 0) (value : U32) :
    (Rsp.writeGpr r i value).gpr i = value := by
  rw [Rsp.writeGpr, if_pos target]
  exact Function.update_self i value r.gpr

theorem gpr_mfc0 (running : s.rsp.halted = false) {insn : U32}
    (fetched : Rsp.fetch s.rsp s.rsp.pc = insn) (cop0 : op insn = 0x10) (from_ : rs insn = 0)
    (target : rt insn ≠ 0) :
    (Rsp.step s).rsp.gpr (rt insn) = (Rsp.moveFromCop0 s.entered (rd insn).toNat).1 := by
  have executed : Rsp.execute s.entered insn =
      { (Rsp.moveFromCop0 s.entered (rd insn).toNat).2 with
        rsp := Rsp.writeGpr (Rsp.moveFromCop0 s.entered (rd insn).toNat).2.rsp (rt insn)
          (Rsp.moveFromCop0 s.entered (rd insn).toNat).1 } := by
    rw [execute_cop0 _ cop0, Rsp.execCop0, if_pos from_]
  have written : (Rsp.execute s.entered insn).rsp.gpr (rt insn) =
      (Rsp.moveFromCop0 s.entered (rd insn).toNat).1 := by
    rw [executed]
    exact writeGpr_self _ target _
  simp only [Rsp.step, running, fetched]
  rw [if_neg Bool.false_ne_true, ← written]
  split
  · exact Function.update_of_ne target _ _
  · refine (Function.update_of_ne target _ _).trans ?_
    unfold Rsp.advancePc
    split_ifs <;> rfl

end RspStep

section Acts

variable {s : Sys}

def SemaphoreBit (s : Sys) : Prop := s.semaphore = 0 ∨ s.semaphore = 1

/-- What an act does to the semaphore is what its accesses do. -/
structure Follows (s : Sys) (as : List (Access Owner)) (t : Sys) : Prop where
  path : Path s.semaphoreTaken as t.semaphoreTaken
  bit : t.SemaphoreBit

theorem taken_of_semaphore {s t : Sys} (same : t.semaphore = s.semaphore) :
    t.semaphoreTaken = s.semaphoreTaken := congrArg (· != 0) same

theorem Follows.none {t : Sys} (bit : s.SemaphoreBit) (same : t.semaphore = s.semaphore) :
    Follows s [] t := by
  refine ⟨taken_of_semaphore same, ?_⟩
  unfold SemaphoreBit
  rw [same]
  exact bit

theorem Follows.clear {t : Sys} (cleared : t.semaphore = 0) : Follows s [.clear] t :=
  ⟨⟨trivial, congrArg (· != 0) cleared⟩, Or.inl cleared⟩

theorem Follows.read {t : Sys} {owner : Owner} {seen : Option Bool} (taken : t.semaphore = 1)
    (shown : ∀ v, seen = some v → v = s.semaphoreTaken) : Follows s [.read owner seen] t := by
  refine ⟨⟨?_, congrArg (· != 0) taken⟩, Or.inr taken⟩
  cases seen with
  | none => trivial
  | some v => exact shown v rfl

theorem Follows.write {t : Sys} (bit : s.SemaphoreBit) {here : Prop} [Decidable here]
    (wrote : t.semaphore = if here then 0 else s.semaphore) :
    Follows s (if here then [.clear] else []) t := by
  split
  · rename_i at_
    rw [if_pos at_] at wrote
    exact Follows.clear wrote
  · rename_i off
    rw [if_neg off] at wrote
    exact Follows.none bit wrote

theorem Follows.readAt {t : Sys} (bit : s.SemaphoreBit) {here : Prop} [Decidable here]
    {seen : Option Bool} (taken : here → t.semaphore = 1) (off : ¬here → t = s)
    (shown : here → ∀ v, seen = some v → v = s.semaphoreTaken) :
    Follows s (if here then [.read .cpu seen] else []) t := by
  split
  · rename_i at_
    exact Follows.read (taken at_) (shown at_)
  · rename_i away
    rw [off away]
    exact Follows.none bit rfl

theorem flagIn_shows {carried : Bool} {value : U32} {flag : Bool}
    (shows : carried = true → (value != 0) = flag) :
    ∀ v, flagIn carried value = some v → v = flag := by
  intro v seen
  cases carried with
  | false => cases seen
  | true =>
    cases seen
    exact shows rfl

theorem physical_low_bits (addr : U32) (m : U32) (small : 0x1FFFFFFF &&& m = m) :
    Bus.physical addr &&& m = addr &&& m := by
  rw [Bus.physical, BitVec.and_assoc, small]

theorem follows_read8 (bit : s.SemaphoreBit) (addr : U32) :
    Follows s (s.accesses (.read8 addr)) (Bus.read8 s addr).2 := by
  refine Follows.readAt bit (fun here => ?_) (read8_off s) fun here => flagIn_shows ?_
  · rw [read8_at s here]
    rfl
  · intro lane
    have low : Bus.physical addr &&& 3 = 3 := by
      rw [physical_low_bits addr 3 (by decide)]
      exact of_decide_eq_true lane
    rw [read8_at s here, Bus.laneShift, low]
    unfold semaphoreTaken
    rcases bit with zero | one
    · rw [show s.bus.spRegs.semaphore = 0 from zero, zero]
      rfl
    · rw [show s.bus.spRegs.semaphore = 1 from one, one]
      rfl

theorem follows_read16 (bit : s.SemaphoreBit) (addr : U32) :
    Follows s (s.accesses (.read16 addr)) (Bus.read16 s addr).2 := by
  refine Follows.readAt bit (fun here => ?_) (read16_off s) fun here => flagIn_shows ?_
  · rw [read16_at s here]
    rfl
  · intro lane
    have low : Bus.physical addr &&& 2 ≠ 0 := by
      rw [physical_low_bits addr 2 (by decide)]
      exact of_decide_eq_true lane
    rw [read16_at s here, if_neg low]
    unfold semaphoreTaken
    rcases bit with zero | one
    · rw [show s.bus.spRegs.semaphore = 0 from zero, zero]
      rfl
    · rw [show s.bus.spRegs.semaphore = 1 from one, one]
      rfl

theorem follows_read32 (bit : s.SemaphoreBit) (addr : U32) :
    Follows s (s.accesses (.read32 addr)) (Bus.read32 s addr).2 := by
  refine Follows.readAt bit (fun here => ?_) (read32_off s) fun here => flagIn_shows fun _ => ?_
  · rw [read32_at s here]
    rfl
  · rw [read32_at s here]
    rfl

theorem join64_low (hi lo : U32) : (join64 hi lo).setWidth 32 = lo := by
  rw [join64_eq_append]
  apply BitVec.eq_of_getLsbD_eq
  intro i short
  rw [BitVec.getLsbD_setWidth, BitVec.getLsbD_append]
  simp [short]

theorem join64_high (hi lo : U32) : (join64 hi lo >>> 32).setWidth 32 = hi := by
  rw [join64_eq_append]
  apply BitVec.eq_of_getLsbD_eq
  intro i short
  rw [BitVec.getLsbD_setWidth, BitVec.getLsbD_ushiftRight, BitVec.getLsbD_append]
  simp [short]

theorem follows_read64 (bit : s.SemaphoreBit) (addr : U32) :
    Follows s (s.accesses (.read64 addr)) (Bus.read64 s addr).2 := by
  simp only [accesses]
  by_cases here : AtSemaphore addr
  · rw [if_pos here, read64_words s (Or.inl here), join64_high, read32_at s here]
    refine Follows.read ?_ (flagIn_shows fun _ => rfl)
    rw [read32_off _ here.next]
    rfl
  · rw [if_neg here]
    by_cases next : AtSemaphore (addr + 4)
    · rw [if_pos next, read64_words s (Or.inr next), join64_low, read32_off s here,
        read32_at s next]
      exact Follows.read rfl (flagIn_shows fun _ => rfl)
    · rw [if_neg next, read64_off s here next]
      exact Follows.none bit rfl

theorem follows_rspStep (bit : s.SemaphoreBit) : Follows s s.rspAccess (Rsp.step s) := by
  by_cases halted : s.rsp.halted = true
  · have quiet : (Rsp.step s).semaphore = s.semaphore := by
      rw [Rsp.step, if_pos halted]
      rfl
    simp only [rspAccess, halted, true_or, if_true]
    exact Follows.none bit quiet
  have running : s.rsp.halted = false := Bool.eq_false_iff.mpr halted
  have stepped := semaphore_step_running s running
  generalize fetched : Rsp.fetch s.rsp s.rsp.pc = insn at stepped
  by_cases cop0 : op insn = 0x10
  · rw [execute_cop0 _ cop0] at stepped
    by_cases seven : (rd insn).toNat = 7
    · have reached : s.rspAccess =
          if rs insn = 0 then [.read .rsp
            (if rt insn = 0 then none else some ((Rsp.step s).rsp.gpr (rt insn) != 0))]
          else if rs insn = 4 then [.clear] else [] := by
        simp only [rspAccess, fetched, running, cop0, seven]
        rfl
      rw [reached]
      by_cases from_ : rs insn = 0
      · rw [semaphore_mfc0 _ from_, if_pos seven] at stepped
        rw [if_pos from_]
        refine Follows.read stepped fun v seen => ?_
        by_cases target : rt insn = 0
        · rw [if_pos target] at seen
          cases seen
        · rw [if_neg target, gpr_mfc0 s running fetched cop0 from_ target, seven] at seen
          exact (Option.some.inj seen).symm
      · rw [if_neg from_]
        by_cases into : rs insn = 4
        · rw [semaphore_mtc0 _ into, if_pos seven] at stepped
          rw [if_pos into]
          exact Follows.clear stepped
        · rw [if_neg into]
          refine Follows.none bit (stepped.trans ?_)
          rw [Rsp.execCop0, if_neg from_, if_neg into]
          rfl
    · have reached : s.rspAccess = [] := by
        simp [rspAccess, fetched, seven]
      rw [reached]
      refine Follows.none bit (stepped.trans ?_)
      by_cases from_ : rs insn = 0
      · rw [semaphore_mfc0 _ from_, if_neg seven]
        rfl
      · by_cases into : rs insn = 4
        · rw [semaphore_mtc0 _ into, if_neg seven]
          rfl
        · rw [Rsp.execCop0, if_neg from_, if_neg into]
          rfl
  · have reached : s.rspAccess = [] := by
      simp [rspAccess, fetched, cop0]
    rw [reached]
    refine Follows.none bit (stepped.trans ?_)
    exact (semaphore_reach s.semaphore).execute insn cop0 (s := s.entered) rfl

theorem follows_perform (bit : s.SemaphoreBit) (a : DeviceAct) :
    Follows s (s.accesses a) (a.perform s) := by
  cases a with
  | read8 addr => exact follows_read8 bit addr
  | read16 addr => exact follows_read16 bit addr
  | read32 addr => exact follows_read32 bit addr
  | read64 addr => exact follows_read64 bit addr
  | write8 addr value => exact Follows.write bit (semaphore_write8 s addr value)
  | write16 addr value => exact Follows.write bit (semaphore_write16 s addr value)
  | write32 addr value => exact Follows.write bit (semaphore_write32 s addr value)
  | write64 addr value => exact Follows.write bit (semaphore_write64 s addr value)
  | spWrite offset value => exact Follows.write bit (semaphore_spWrite s offset value)
  | spWritePc offset value =>
    refine Follows.none bit ?_
    simp only [DeviceAct.perform, SpRegs.writePc]
    split <;> rfl
  | dpWrite offset value => exact Follows.none bit (semaphore_of_sp (sp_dpWrite s offset value))
  | piWrite offset value =>
    exact Follows.none bit (semaphore_of_sp (sp_of (co_piWrite s offset value)))
  | siWrite offset value =>
    exact Follows.none bit (semaphore_of_sp (sp_of (co_siWrite s offset value)))
  | rspStep => exact follows_rspStep bit

end Acts

theorem SemaphoreBit.same {s t : Sys} (h : s.SemaphoreBit) (same : t.semaphore = s.semaphore) :
    t.SemaphoreBit := by
  unfold SemaphoreBit
  rw [same]
  exact h

theorem SemaphoreBit.sp {s t : Sys} (h : s.SemaphoreBit) (same : t.sp = s.sp) : t.SemaphoreBit :=
  h.same (semaphore_of_sp same)

end Sys

open Sys in
theorem semaphoreBit_devices : DevicesInvariant Sys.SemaphoreBit where
  cpu := fun _ h => h
  relog := fun _ h => h
  takeSemaphore := fun _ => Or.inr rfl
  pokeRdram := fun _ _ h => h
  storeDmem := fun _ _ h => h
  storeImem := fun _ _ h => h
  storePifRam := fun off b h => h.sp (sp_of (co_storePifRam _ off b))
  spWrite := fun offset value h => (Follows.write h (semaphore_spWrite _ offset value)).bit
  spWritePc := fun offset value h => (follows_perform h (.spWritePc offset value)).bit
  dpWrite := fun offset value h => h.sp (sp_dpWrite _ offset value)
  miWrite := fun offset value h => h.sp (sp_of (co_miWrite _ offset value))
  viWrite := fun offset value h => h.sp (sp_of (co_viWrite _ offset value))
  aiWrite := fun offset value h => h.sp (sp_of (co_aiWrite _ offset value))
  piWrite := fun offset value h => h.sp (sp_of (co_piWrite _ offset value))
  riWrite := fun _ _ h => h
  siWrite := fun offset value h => h.sp (sp_of (co_siWrite _ offset value))
  rspStep := fun h => (follows_rspStep h).bit
  tick := fun d h => h.sp (sp_of (co_tickDevices _ d))
  reset := fun _ => Or.inl rfl
  pushMemToBus := fun h => h
  clearFrameReady := fun h => h
  loadCartridge := fun _ _ h => h
  loadPifRom := fun _ _ h => h
  seedPif := fun _ h => h
  mirrorPif := fun h => h
  resetRsp := fun h => h

namespace Emulator

/-- From any state of the emulator on, however the CPU's accesses fall among the
steps of the RSP: two owners of the semaphore are separated by a write, every
read sees what the last access left, and nothing else changes the flag. -/
theorem semaphore_exclusive (fp : HostFpu) (files : Files) (calls : List Act)
    (onBus : ∀ a ∈ calls, a.OnBus) (acts : List DeviceAct) :
    let s := (Runs.run (step fp) calls (construct files)).sys
    let history := Runs.trace DeviceAct.perform (fun a t => Sys.accesses t a) acts s
    (∀ before p between q rest,
      history = before ++ .read p (some false) :: (between ++ .read q (some false) :: rest) →
      .clear ∈ between) ∧
    (∀ before p seen rest, history = before ++ .read p (some seen) :: rest →
      seen = (before.getLast?.map after).getD s.semaphoreTaken) ∧
    (Runs.run DeviceAct.perform acts s).semaphoreTaken =
      (history.getLast?.map after).getD s.semaphoreTaken := by
  intro s history
  have bit : s.SemaphoreBit := (semaphoreBit_devices.runInvariant fp).holds files calls onBus
  let follows (as : List (Access Owner)) (t : Sys) : Prop :=
    Path s.semaphoreTaken as t.semaphoreTaken ∧ t.SemaphoreBit
  have each : ∀ a ∈ acts, ∀ as t, follows as t →
      follows (as ++ Sys.accesses t a) (a.perform t) := by
    intro a _ as t reached
    have next := Sys.follows_perform reached.2 a
    exact ⟨reached.1.append next.path, next.bit⟩
  have whole := Runs.trace_emits each (show follows [] s from ⟨rfl, bit⟩)
  have path : Path s.semaphoreTaken history
      (Runs.run DeviceAct.perform acts s).semaphoreTaken := whole.1
  refine ⟨?_, ?_, path.decides⟩
  · intro before p between q rest split
    rw [split] at path
    exact path.cleared_between
  · intro before p seen rest split
    rw [split] at path
    exact path.seen

/-- The CPU takes the semaphore, tries again, releases it and takes it once more. -/
theorem semaphore_exclusive_turns :
    (Runs.run DeviceAct.perform [.read32 0xA404001C, .read8 0x8404001F, .write32 0xA404001C 0,
      .rspStep, .read64 0xA4040018] (construct fun _ => none).sys).semaphoreTaken = true := by
  have turns := semaphore_exclusive default (fun _ => none) [] (by simp)
    [.read32 0xA404001C, .read8 0x8404001F, .write32 0xA404001C 0, .rspStep, .read64 0xA4040018]
  exact turns.2.2.trans (by decide +kernel)

end Emulator

end N64
