import N64Emu.Coherence
import N64Emu.LoaderAgreement

/-!
# What a boot leaves in the SP

A high-level boot resets the RSP with its memories, halts it and installs the
IPL3 in both copies of DMEM. It clears neither the bus copies nor the status
register, so outside the installed bytes the bus keeps what was there before.
-/

set_option autoImplicit false

namespace N64

open Words Loops SpRegisters

/-- The SP memories in both copies, the status register and the RSP's flags. -/
structure SpSide where
  dmem : Bytes
  imem : Bytes
  status : U32
  rspDmem : Bytes
  rspImem : Bytes
  halted : Bool
  broke : Bool
  intrOnBreak : Bool

def Sys.spSide (s : Sys) : SpSide :=
  { dmem := s.bus.spDmem
    imem := s.bus.spImem
    status := s.bus.spRegs.status
    rspDmem := s.rsp.dmem
    rspImem := s.rsp.imem
    halted := s.rsp.halted
    broke := s.rsp.broke
    intrOnBreak := s.rsp.intrOnBreak }

/-- After a reset of the RSP and the command to halt, before the bytes of an IPL3. -/
def Sys.haltedSide (s : Sys) : SpSide :=
  { dmem := s.bus.spDmem
    imem := s.bus.spImem
    status := s.bus.spRegs.status ||| StHalt
    rspDmem := fun _ => 0
    rspImem := fun _ => 0
    halted := true
    broke := false
    intrOnBreak := false }

/-- Both memories agree byte for byte, and the status bits show the flags. -/
structure SpCoherent (s : Sys) : Prop where
  dmem : ∀ off < kSpDmemSize, s.bus.spDmem off = s.rsp.dmem off
  imem : ∀ off < kSpImemSize, s.bus.spImem off = s.rsp.imem off
  flags : FlagsAgree s.bus.spRegs.status s.rsp

theorem SpSide.of_frame {s t : Sys} (h : Frame [.irq] s t) : t.spSide = s.spSide := by
  have dmem : t.bus.spDmem = s.bus.spDmem := h.parts .busDmem (by decide)
  have imem : t.bus.spImem = s.bus.spImem := h.parts .busImem (by decide)
  have rspDmem : t.rsp.dmem = s.rsp.dmem := h.parts .rspDmem (by decide)
  have rspImem : t.rsp.imem = s.rsp.imem := h.parts .rspImem (by decide)
  have status : t.bus.spRegs.status = s.bus.spRegs.status := h.parts .spStatus (by decide)
  have flags := h.parts .rspFlags (by decide)
  simp only [Part.Kept, Prod.mk.injEq] at flags
  simp only [Sys.spSide, dmem, imem, rspDmem, rspImem, status, flags]

namespace Boot

/-- The number of bytes `install_ipl3_to_dmem` writes. -/
def installedSize (ipl3 : List U8) : ℕ :=
  if ipl3.length < 16 then 0 else min ipl3.length (0x1000 - 0x40)

/-- A memory with the first `n` bytes of an IPL3 from offset 0x40 on. -/
def withIpl3 (ipl3 : List U8) (n : ℕ) (mem : Bytes) : Bytes := fun off =>
  if 0x40 ≤ off ∧ off < 0x40 + n then ipl3.getD (off - 0x40) 0 else mem off

theorem withIpl3_zero (ipl3 : List U8) (mem : Bytes) : withIpl3 ipl3 0 mem = mem := by
  funext off
  exact if_neg (by omega)

theorem withIpl3_succ (ipl3 : List U8) (n : ℕ) (mem : Bytes) :
    withIpl3 ipl3 (n + 1) mem =
      Function.update (withIpl3 ipl3 n mem) (0x40 + n) (ipl3.getD n 0) := by
  funext off
  by_cases last : off = 0x40 + n
  · rw [last, Function.update_self, withIpl3, if_pos (by omega), Nat.add_sub_cancel_left]
  · rw [Function.update_of_ne last, withIpl3, withIpl3]
    by_cases before : 0x40 ≤ off ∧ off < 0x40 + n
    · rw [if_pos (by omega), if_pos before]
    · rw [if_neg (by omega), if_neg before]

def piWritten : List U32 := [0x00, 0x04, 0x08, 0x10, 0x14, 0x18, 0x1C, 0x20]

section Stages

variable {s : Sys}

theorem write32_pi (value : U32) : ∀ off ∈ piWritten,
    Bus.write32 s (Mmio.PI_BASE + off) value =
      Pi.write (s.notifyMemoryWrite (Mmio.PI_BASE + off) 4) off value := by
  simp only [piWritten, List.forall_mem_cons, List.not_mem_nil, false_implies, implies_true,
    and_true]
  exact ⟨rfl, rfl, rfl, rfl, rfl, rfl, rfl, rfl⟩

theorem spSide_write32_pi {off : U32} (listed : off ∈ piWritten) (value : U32) :
    (Bus.write32 s (Mmio.PI_BASE + off) value).spSide = s.spSide := by
  rw [write32_pi value off listed]
  exact SpSide.of_frame ((frame_notifyMemoryWrite s _ 4).trans (frame_piWrite _ off value))

theorem spSide_applyPiDom1 (hdr : CartHeader) : (applyPiDom1 s hdr).spSide = s.spSide := by
  unfold applyPiDom1 applyPiDom1FromHeader
  split
  · rw [spSide_write32_pi (by decide), spSide_write32_pi (by decide),
      spSide_write32_pi (by decide), spSide_write32_pi (by decide)]
  · rfl

theorem spSide_hleCopy (cfg : BootConfig) (hdr : CartHeader) :
    (hleCopy cfg hdr s).2.spSide = s.spSide := by
  simp only [hleCopy, copyRomToRdram]
  split_ifs
  · rfl
  · rfl
  · rw [spSide_write32_pi (by decide), spSide_write32_pi (by decide),
      spSide_write32_pi (by decide), spSide_write32_pi (by decide)]
  · rfl

theorem spSide_setCop0s (seeds : List (BitVec 5 × U32)) :
    (setCop0s seeds s).spSide = s.spSide := by
  induction seeds generalizing s with
  | nil => rfl
  | cons seed seeds ih =>
    refine (ih (s := Cpu.setCop0 s seed.1 seed.2)).trans ?_
    unfold Cpu.setCop0
    split_ifs
    · rfl
    · rfl

theorem spSide_hleSeed (cfg : BootConfig) (hdr : CartHeader) :
    (hleSeed cfg hdr s).spSide = s.spSide := by
  have onCpu (t : Sys) (f : Cpu → Cpu) : (t.onCpu f).spSide = t.spSide := rfl
  simp only [hleSeed, seedCpuAfterIpl3]
  rw [onCpu, spSide_setCop0s, onCpu]
  rfl

theorem spSide_installPifRom {files : Files} {cfg : BootConfig} {loaded : Bool} {t : Sys}
    (installed : installPifRom files cfg s = .ok (loaded, t)) :
    t.spSide = s.spSide ∧ t.bus.cartSize = s.bus.cartSize ∧ t.bus.cart = s.bus.cart := by
  simp only [installPifRom, Bus.loadPifRom] at installed
  split_ifs at installed
  · cases installed
    exact ⟨rfl, rfl, rfl⟩
  · cases installed
    exact ⟨rfl, rfl, rfl⟩

theorem spSide_haltRsp :
    (Bus.write32 s (Mmio.SP_REGS_BASE + 0x10) (SpRegs.WrSetHalt ||| SpRegs.WrClearIntr)).spSide =
      { s.spSide with status := s.bus.spRegs.status ||| StHalt, halted := true } := by
  have decoded :
      Bus.write32 s (Mmio.SP_REGS_BASE + 0x10) (SpRegs.WrSetHalt ||| SpRegs.WrClearIntr) =
        Mi.clear (SpRegs.setHalt (s.notifyMemoryWrite (Mmio.SP_REGS_BASE + 0x10) 4)) MiIntr.SP :=
    rfl
  rw [decoded, SpSide.of_frame (frame_clear _ _)]
  rfl

def SpSide.install (v : SpSide) (ipl3 : List U8) (n : ℕ) : SpSide :=
  { v with dmem := withIpl3 ipl3 n v.dmem, rspDmem := withIpl3 ipl3 n v.rspDmem }

theorem spSide_poke (off : ℕ) (b : U8) : ((s.pokeSpDmem off b).pokeRspDmem off b).spSide =
    { s.spSide with
        dmem := Function.update s.spSide.dmem off b
        rspDmem := Function.update s.spSide.rspDmem off b } := rfl

theorem spSide_mirrorIpl3 (ipl3 : List U8) :
    (mirrorIpl3 s ipl3).2.spSide = SpSide.install s.spSide ipl3 (installedSize ipl3) := by
  have nothing (short : ipl3.length < 16) :
      s.spSide = SpSide.install s.spSide ipl3 (installedSize ipl3) := by
    simp only [SpSide.install, installedSize, if_pos short, withIpl3_zero]
  have bytes (n : ℕ) :
      (upTo (fun i (t : Sys) => (t.pokeSpDmem (0x40 + i) (ipl3.getD i 0)).pokeRspDmem (0x40 + i)
        (ipl3.getD i 0)) n s).spSide = SpSide.install s.spSide ipl3 n := by
    induction n with
    | zero => simp only [upTo_zero, SpSide.install, withIpl3_zero]
    | succ n ih => rw [upTo_succ, spSide_poke, ih, SpSide.install, SpSide.install, withIpl3_succ,
        withIpl3_succ]
  unfold mirrorIpl3 installIpl3ToDmem
  split_ifs with empty short
  · exact nothing (by simp_all)
  · exact nothing short
  · rw [installedSize, if_neg short]
    exact bytes _

theorem spSide_hlePrepare (hdr : CartHeader) (ipl3 : List U8) :
    (hlePrepare hdr ipl3 s).2.spSide = SpSide.install s.haltedSide ipl3 (installedSize ipl3) := by
  have header := spSide_applyPiDom1 (s := s) hdr
  simp only [Sys.spSide, SpSide.mk.injEq] at header
  obtain ⟨dmem, imem, status, -⟩ := header
  simp only [hlePrepare]
  rw [spSide_mirrorIpl3, spSide_haltRsp]
  simp only [Sys.spSide, Sys.haltedSide, dmem, imem, status]
  rfl

end Stages

/-- The bytes of the IPL3 a boot installs: the user's, else the cartridge's. -/
def bootIpl3 (files : Files) (cfg : BootConfig) (b : Bus) : List U8 :=
  (readIpl3 files cfg b).toOption.getD []

theorem spSide_hleBoot {files : Files} {cfg : BootConfig} {s : Sys} (hle : cfg.mode = .Hle)
    (ok : (hleBootLoaded files cfg s).1.ok = true) :
    (hleBootLoaded files cfg s).2.spSide = SpSide.install s.haltedSide
      (bootIpl3 files cfg s.bus) (installedSize (bootIpl3 files cfg s.bus)) := by
  have outcome := hleBootLoaded_cases files cfg s
  generalize (hleBootLoaded files cfg s).2 = u at outcome ⊢
  cases outcome with
  | noCartridge refused => simp [refused] at ok
  | pifRom refused => simp [refused] at ok
  | ipl3 refused => simp [refused] at ok
  | withoutPif refused => simp [refused] at ok
  | lle _ mode => simp [hle] at mode
  | @hle loaded t ipl3 _ _ _ installed read =>
    obtain ⟨kept, size, cart⟩ := spSide_installPifRom installed
    have same : readIpl3 files cfg s.bus = .ok ipl3 := by
      rw [← read]
      simp only [readIpl3, Bus.hasCartridge, Bus.cartridge, size, cart]
      rfl
    have bytes : bootIpl3 files cfg s.bus = ipl3 := by
      rw [bootIpl3, same]
      rfl
    simp only [Sys.spSide, SpSide.mk.injEq] at kept
    obtain ⟨dmem, imem, status, -⟩ := kept
    rw [spSide_hleSeed, spSide_hleCopy, spSide_hlePrepare, bytes, Sys.haltedSide,
      Sys.haltedSide, dmem, imem, status]

end Boot

/-- The bus side of the SP as a reset leaves it, but for `n` bytes of DMEM from
offset 0x40 on. -/
structure SpCleared (n : ℕ) (s : Sys) : Prop where
  dmem : ∀ off < kSpDmemSize, ¬ (0x40 ≤ off ∧ off < 0x40 + n) → s.bus.spDmem off = 0
  imem : ∀ off < kSpImemSize, s.bus.spImem off = 0
  broke : s.bus.spRegs.status &&& StBroke = 0
  intrOnBreak : s.bus.spRegs.status &&& StIntrOnBreak = 0

theorem spCleared_reset (n : ℕ) (s : Sys) : SpCleared n s.reset where
  dmem := fun _ _ _ => rfl
  imem := fun _ _ => rfl
  broke := show StHalt &&& StBroke = 0 by decide
  intrOnBreak := show StHalt &&& StIntrOnBreak = 0 by decide

namespace Emulator

variable {files : Files} {cfg : BootConfig} {e : Emulator}

theorem ok_of_boot (ok : (e.boot files cfg).1 = true) :
    (Boot.hleBootLoaded files cfg { e.sys with log := [] }).1.ok = true := by
  by_contra failed
  rw [boot_failed (Bool.of_not_eq_true failed)] at ok
  cases ok

theorem spSide_boot (hle : cfg.mode = .Hle) (ok : (e.boot files cfg).1 = true) :
    (e.boot files cfg).2.sys.spSide = Boot.SpSide.install e.sys.haltedSide
      (Boot.bootIpl3 files cfg e.sys.bus)
      (Boot.installedSize (Boot.bootIpl3 files cfg e.sys.bus)) := by
  rw [sys_boot]
  exact Boot.spSide_hleBoot hle (ok_of_boot ok)

theorem flagsAgree_halted (status : U32) (r : Rsp) (halted : r.halted = true)
    (broke : r.broke = false) (intrOnBreak : r.intrOnBreak = false) :
    FlagsAgree (status ||| StHalt) r ↔
      status &&& StBroke = 0 ∧ status &&& StIntrOnBreak = 0 := by
  have brokeBit : ((status ||| StHalt) &&& StBroke != 0) = (status &&& StBroke != 0) :=
    testBit_or_other status (by decide)
  have intrBit : ((status ||| StHalt) &&& StIntrOnBreak != 0) = (status &&& StIntrOnBreak != 0) :=
    testBit_or_other status (by decide)
  have haltBit : ((status ||| StHalt) &&& StHalt != 0) = true :=
    testBit_or_self status (by decide) (by decide)
  constructor
  · intro agree
    have noBreak := agree.broke
    have noIntr := agree.intrOnBreak
    rw [brokeBit, broke] at noBreak
    rw [intrBit, intrOnBreak] at noIntr
    exact ⟨by simpa using noBreak, by simpa using noIntr⟩
  · intro clear
    exact ⟨by rw [haltBit, halted], by rw [brokeBit, broke, clear.1]; rfl,
      by rw [intrBit, intrOnBreak, clear.2]; rfl⟩

theorem boot_coherent (hle : cfg.mode = .Hle) (ok : (e.boot files cfg).1 = true)
    (cleared : SpCleared (Boot.installedSize (Boot.bootIpl3 files cfg e.sys.bus)) e.sys) :
    SpCoherent (e.boot files cfg).2.sys := by
  have side := spSide_boot hle ok
  simp only [Sys.spSide, Sys.haltedSide, Boot.SpSide.install, SpSide.mk.injEq] at side
  obtain ⟨dmem, imem, status, rspDmem, rspImem, halted, broke, intrOnBreak⟩ := side
  refine ⟨fun off inside => ?_, fun off inside => ?_, ?_⟩
  · rw [dmem, rspDmem, Boot.withIpl3, Boot.withIpl3]
    split_ifs with installed
    · rfl
    · exact cleared.dmem off inside installed
  · rw [imem, rspImem]
    exact cleared.imem off inside
  · rw [status, flagsAgree_halted _ _ halted broke intrOnBreak]
    exact ⟨cleared.broke, cleared.intrOnBreak⟩

theorem cleared_of_coherent (hle : cfg.mode = .Hle) (ok : (e.boot files cfg).1 = true)
    (coherent : SpCoherent (e.boot files cfg).2.sys) :
    SpCleared (Boot.installedSize (Boot.bootIpl3 files cfg e.sys.bus)) e.sys := by
  have side := spSide_boot hle ok
  simp only [Sys.spSide, Sys.haltedSide, Boot.SpSide.install, SpSide.mk.injEq] at side
  obtain ⟨dmem, imem, status, rspDmem, rspImem, halted, broke, intrOnBreak⟩ := side
  have flags := coherent.flags
  rw [status, flagsAgree_halted _ _ halted broke intrOnBreak] at flags
  refine ⟨fun off inside outside => ?_, fun off inside => ?_, flags.1, flags.2⟩
  · have same := coherent.dmem off inside
    rwa [dmem, rspDmem, Boot.withIpl3, Boot.withIpl3, if_neg outside, if_neg outside] at same
  · have same := coherent.imem off inside
    rwa [imem, rspImem] at same

theorem loadRomBytes_coherent {data : List U8} (hle : e.bootCfg.mode = .Hle)
    (ok : (e.loadRomBytes files data {}).1 = true) :
    SpCoherent (e.loadRomBytes files data {}).2.sys := by
  have plain : BootConfig.customized {} = false := rfl
  have reset (n : ℕ) : SpCleared n e.sys.reset := spCleared_reset n e.sys
  simp only [loadRomBytes, plain, Bool.false_eq_true, if_false] at ok ⊢
  cases inserted : Bus.loadCartridge e.resetHardware.sys data with
  | none => simp [inserted] at ok
  | some s =>
    have kept (n : ℕ) : SpCleared n s := by
      simp only [Bus.loadCartridge] at inserted
      split_ifs at inserted
      cases inserted
      exact ⟨(reset n).dmem, (reset n).imem, (reset n).broke, (reset n).intrOnBreak⟩
    simp only [inserted] at ok ⊢
    exact boot_coherent hle ok (kept _)

/-- A boot leaves the copies in agreement exactly when nothing was left on the
bus side of the SP. -/
theorem boot_coherent_iff (files : Files) (cfg : BootConfig) (e : Emulator)
    (hle : cfg.mode = .Hle) (ok : (e.boot files cfg).1 = true) :
    SpCoherent (e.boot files cfg).2.sys ↔
      SpCleared (Boot.installedSize (Boot.bootIpl3 files cfg e.sys.bus)) e.sys :=
  ⟨cleared_of_coherent hle ok, boot_coherent hle ok⟩

/-- The one-byte cartridge of a fresh emulator, booted again. -/
theorem boot_coherent_fresh :
    let files : Files := fun _ => none
    let e := ((construct files).loadRomBytes files [0x80] {}).2
    SpCoherent (e.boot files {}).2.sys ↔
      SpCleared (Boot.installedSize (Boot.bootIpl3 files {} e.sys.bus)) e.sys :=
  boot_coherent_iff (fun _ => none) {}
    ((construct fun _ => none).loadRomBytes (fun _ => none) [0x80] {}).2 rfl (by decide +kernel)

/-- A cartridge is running and has stored one byte in IMEM; a second boot clears
the RSP's copy only. -/
theorem boot_keeps_imem :
    let files : Files := fun _ => none
    let e := ((construct files).loadRomBytes files [0x80] {}).2.onSys (Bus.write8 · 0xA4001000 1)
    (e.boot files {}).1 = true ∧ ¬ SpCoherent (e.boot files {}).2.sys := by
  have left : ((((construct fun _ => none).loadRomBytes (fun _ => none) [0x80] {}).2.onSys
      (Bus.write8 · 0xA4001000 1)).boot (fun _ => none) {}).2.sys.bus.spImem 0 = 1 := by
    decide +kernel
  have cleared : ((((construct fun _ => none).loadRomBytes (fun _ => none) [0x80] {}).2.onSys
      (Bus.write8 · 0xA4001000 1)).boot (fun _ => none) {}).2.sys.rsp.imem 0 = 0 := by
    decide +kernel
  refine ⟨by decide +kernel, fun coherent => ?_⟩
  have same := coherent.imem 0 (by decide)
  rw [left, cleared] at same
  cases same

end Emulator

end N64
