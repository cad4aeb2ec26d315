import N64Emu.RomLoads

/-!
# The two ROM loaders

`load_rom` boots with a cold reset type; `load_rom_bytes` with a default
argument boots with the remembered configuration, whose reset type a soft
reset has set. Everything else the two do to the machine is the same.
-/

set_option autoImplicit false

namespace N64

open Words Loops

namespace Boot

section Bootable

variable {files : Files} {cfg : BootConfig} {s t : Sys}

def PifReadable (files : Files) (cfg : BootConfig) : Prop :=
  cfg.pifRomPath = "" ∨ (loadBinaryFile files cfg.pifRomPath ≠ [] ∧
    (loadBinaryFile files cfg.pifRomPath).length ≤ 8 * 1024)

def Ipl3Readable (files : Files) (cfg : BootConfig) : Prop :=
  cfg.ipl3Path = "" ∨ loadBinaryFile files cfg.ipl3Path ≠ []

/-- The files a configuration names can be installed, and the PIF ROM path has
one to start. -/
structure Bootable (files : Files) (cfg : BootConfig) : Prop where
  pif : PifReadable files cfg
  ipl3 : Ipl3Readable files cfg
  lle : cfg.mode = .LlePif → cfg.pifRomPath ≠ ""

theorem installPifRom_error {e : String} (h : installPifRom files cfg s = .error e) :
    ¬ PifReadable files cfg := by
  rintro (nothing | ⟨some_, fits⟩)
  · simp [installPifRom, nothing] at h
  · simp only [installPifRom, Bus.loadPifRom, List.isEmpty_iff, some_, if_false,
      if_neg (not_lt.mpr fits)] at h
    split at h
    · cases h
    · cases h

theorem installPifRom_ok {loaded : Bool} (h : installPifRom files cfg s = .ok (loaded, t)) :
    PifReadable files cfg ∧ (loaded = true ↔ cfg.pifRomPath ≠ "") := by
  by_cases path : cfg.pifRomPath = ""
  · simp only [installPifRom, if_pos path, Except.ok.injEq, Prod.mk.injEq] at h
    exact ⟨Or.inl path, by simp [← h.1, path]⟩
  · simp only [installPifRom, if_neg path, Bus.loadPifRom] at h
    split_ifs at h with empty large
    · cases h
      exact ⟨Or.inr ⟨by simpa using empty, by omega⟩, by simp [path]⟩

theorem readIpl3_error {e : String} (h : readIpl3 files cfg s.bus = .error e) :
    ¬ Ipl3Readable files cfg := by
  rintro (nothing | some_)
  · simp only [readIpl3, nothing, ne_eq, not_true, if_false] at h
    split at h
    · cases h
    · cases h
  · simp only [readIpl3, List.isEmpty_iff, some_, if_false] at h
    split_ifs at h

theorem readIpl3_ok {ipl3 : List U8} (h : readIpl3 files cfg s.bus = .ok ipl3) :
    Ipl3Readable files cfg := by
  by_contra unreadable
  obtain ⟨path, empty⟩ := not_or.mp unreadable
  simp [readIpl3, path, not_not.mp empty] at h

theorem ok_iff_bootable (held : s.bus.hasCartridge = true) :
    (hleBootLoaded files cfg s).1.ok = true ↔ Bootable files cfg := by
  have outcome := hleBootLoaded_cases files cfg s
  generalize (hleBootLoaded files cfg s).2 = u at outcome
  cases outcome with
  | noCartridge _ _ absent =>
    rw [held] at absent
    cases absent
  | pifRom refused failed =>
    simp only [refused, Bool.false_eq_true, false_iff]
    exact fun b => installPifRom_error failed b.pif
  | ipl3 refused _ failed =>
    simp only [refused, Bool.false_eq_true, false_iff]
    exact fun b => readIpl3_error failed b.ipl3
  | withoutPif refused mode installed =>
    simp only [refused, Bool.false_eq_true, false_iff]
    exact fun b => Bool.false_ne_true ((installPifRom_ok installed).2.mpr (b.lle mode))
  | lle ok mode installed read =>
    have path := (installPifRom_ok installed).2.mp rfl
    exact ⟨fun _ => ⟨(installPifRom_ok installed).1, readIpl3_ok read, fun _ => path⟩, fun _ => ok⟩
  | hle ok mode _ installed read =>
    refine ⟨fun _ => ⟨(installPifRom_ok installed).1, readIpl3_ok read, fun lle => ?_⟩, fun _ => ok⟩
    rw [mode] at lle
    cases lle

end Bootable

section ResetType

variable (files : Files) (cfg : BootConfig) (s : Sys)

theorem mirrorIpl3_loaded (ipl3 : List U8) :
    (mirrorIpl3 s ipl3).1 = (!ipl3.isEmpty && !decide (ipl3.length < 16)) := by
  simp only [mirrorIpl3, installIpl3ToDmem]
  split_ifs with empty short
  · simp [empty]
  · simp [short]
  · simp [empty, short]

/-- The reset type changes no result, and no state of a boot that fails. -/
theorem hleBootLoaded_resetType (r : U32) :
    (hleBootLoaded files { cfg with resetType := r } s).1 = (hleBootLoaded files cfg s).1 ∧
      ((hleBootLoaded files cfg s).1.ok = false →
        (hleBootLoaded files { cfg with resetType := r } s).2 = (hleBootLoaded files cfg s).2) := by
  have install : installPifRom files { cfg with resetType := r } s = installPifRom files cfg s :=
    rfl
  have header : bootHeader s.bus { cfg with resetType := r } = bootHeader s.bus cfg := rfl
  have ipl3 (b : Bus) : readIpl3 files { cfg with resetType := r } b = readIpl3 files cfg b := rfl
  have copy (hdr : CartHeader) (t : Sys) :
      hleCopy { cfg with resetType := r } hdr t = hleCopy cfg hdr t := rfl
  by_cases refused : !s.bus.hasCartridge ∧ cfg.mode = .Hle
  · simp only [hleBootLoaded, if_pos refused]
    exact ⟨trivial, fun _ => trivial⟩
  · simp only [hleBootLoaded, if_neg refused, install, header, ipl3, copy]
    cases installPifRom files cfg s with
    | error e => exact ⟨rfl, fun _ => rfl⟩
    | ok result =>
      obtain ⟨loaded, t⟩ := result
      cases read : readIpl3 files cfg t.bus with
      | error e => simp [read]
      | ok blob =>
        cases mode : cfg.mode with
        | LlePif => cases loaded <;> simp [read, llePif, mirrorIpl3_loaded]
        | Hle => simp [read]

theorem lowByte_zero {r : U32}
    (h : (r &&& 0xFF).setWidth 8 = (((0 : U32) &&& 0xFF).setWidth 8 : U8)) : r &&& 0xFF = 0 := by
  have masked : (r &&& 0xFF).toNat = r.toNat % 256 := by
    rw [BitVec.toNat_and]
    exact Nat.and_two_pow_sub_one_eq_mod r.toNat 8
  have low : (r &&& 0xFF).toNat % 256 = 0 := by
    have width := BitVec.toNat_setWidth 8 (r &&& 0xFF)
    rw [h] at width
    exact width.symm
  apply BitVec.eq_of_toNat_eq
  rw [masked] at low ⊢
  simpa using low

/-- The low byte of the reset type is what reaches PIF RAM; its low bit is
what reaches the CPU. -/
theorem seeds_cold {r : U32} (cold : r &&& 0xFF = 0) (hdr : CartHeader) (spTop : U32) :
    pifSeed hdr r = pifSeed hdr 0 ∧ gprSeeds hdr spTop r = gprSeeds hdr spTop 0 := by
  have low : r &&& 1 = 0 := by
    rw [show (1 : U32) = 0xFF &&& 1 by decide, ← BitVec.and_assoc, cold]
    decide
  have byte : (0 : U32) &&& 0xFF = 0 := by decide
  have bit : (0 : U32) &&& 1 = 0 := by decide
  exact ⟨by simp only [pifSeed, cold, byte], by simp only [gprSeeds, low, bit]⟩

theorem hleBootLoaded_cold (cold : cfg.resetType &&& 0xFF = 0) :
    hleBootLoaded files cfg s = hleBootLoaded files { cfg with resetType := 0 } s := by
  have pif (t : Sys) (hdr : CartHeader) :
      seedPifRam t hdr cfg.resetType = seedPifRam t hdr 0 := by
    simp only [seedPifRam, (seeds_cold cold hdr 0).1]
  have cpu (t : Sys) (hdr : CartHeader) (spTop : U32) :
      seedCpuAfterIpl3 t hdr spTop cfg.resetType = seedCpuAfterIpl3 t hdr spTop 0 := by
    simp only [seedCpuAfterIpl3, (seeds_cold cold hdr spTop).2]
  have lle (hdr : CartHeader) (blob : List U8) (t : Sys) :
      llePif cfg hdr blob t = llePif { cfg with resetType := 0 } hdr blob t := by
    simp only [llePif, pif]
  have hle (hdr : CartHeader) (t : Sys) :
      hleSeed cfg hdr t = hleSeed { cfg with resetType := 0 } hdr t := by
    simp only [hleSeed, pif, cpu]
  simp only [hleBootLoaded, lle, hle]
  rfl

theorem pif_mirrorIpl3 (ipl3 : List U8) : (mirrorIpl3 s ipl3).2.pif = s.pif := by
  simp only [mirrorIpl3, installIpl3ToDmem]
  split_ifs
  · rfl
  · rfl
  · exact upTo_preserves (fun t : Sys => t.pif = s.pif) _ rfl fun _ _ _ h => h

theorem pif_setCop0 (i : BitVec 5) (value : U32) : (Cpu.setCop0 s i value).pif = s.pif := by
  unfold Cpu.setCop0
  split_ifs
  · rfl
  · rfl

theorem pif_setCop0s (seeds : List (BitVec 5 × U32)) : (setCop0s seeds s).pif = s.pif := by
  induction seeds generalizing s with
  | nil => rfl
  | cons seed seeds ih => exact (ih _).trans (pif_setCop0 s seed.1 seed.2)

theorem resetType_seeded (ok : (hleBootLoaded files cfg s).1.ok = true) :
    (hleBootLoaded files cfg s).2.pif.pifRam 0x3C = (cfg.resetType &&& 0xFF).setWidth 8 := by
  have outcome := hleBootLoaded_cases files cfg s
  generalize (hleBootLoaded files cfg s).2 = u at outcome ⊢
  cases outcome with
  | noCartridge refused => simp [refused] at ok
  | pifRom refused => simp [refused] at ok
  | ipl3 refused => simp [refused] at ok
  | withoutPif refused => simp [refused] at ok
  | lle =>
    simp only [llePif, pif_mirrorIpl3, Sys.onCpu, pif_setCop0s]
    simp [Sys.mirrorPif, seedPifRam, pifSeed, Function.update_of_ne]
  | hle =>
    simp only [hleSeed, seedCpuAfterIpl3, Sys.onCpu, pif_setCop0s]
    simp [Sys.mirrorPif, seedPifRam, pifSeed, Function.update_of_ne]

end ResetType

end Boot

namespace Emulator

/-- The machine with its devices, the header and the booted flag are the same. -/
structure SameLoad (a b : Emulator) : Prop where
  sys : a.sys = b.sys
  header : a.header = b.header
  booted : a.booted = b.booted

section Loaders

variable {files : Files} {path : String} {data : List U8}

theorem sys_boot (cfg : BootConfig) (e : Emulator) : (e.boot files cfg).2.sys =
    { (Boot.hleBootLoaded files cfg { e.sys with log := [] }).2 with log := [] } := by
  simp only [boot]
  split
  · rfl
  · rfl

theorem header_boot (cfg : BootConfig) (e : Emulator) :
    (e.boot files cfg).2.header =
      if (Boot.hleBootLoaded files cfg { e.sys with log := [] }).1.ok then
        (Boot.hleBootLoaded files cfg { e.sys with log := [] }).1.header else {} := by
  simp only [boot]
  split
  · simp_all [Machine.performWith, sys]
  · simp_all [Machine.performWith, sys]

theorem booted_iff_bootable {cfg : BootConfig} {e : Emulator}
    (held : e.sys.bus.hasCartridge = true) :
    (e.boot files cfg).2.booted = true ↔ Boot.Bootable files cfg := by
  rw [booted_boot]
  exact Boot.ok_iff_bootable held

theorem resetType_boot {cfg : BootConfig} {e : Emulator}
    (booted : (e.boot files cfg).2.booted = true) :
    (e.boot files cfg).2.sys.pif.pifRam 0x3C = (cfg.resetType &&& 0xFF).setWidth 8 := by
  rw [booted_boot] at booted
  rw [sys_boot]
  exact Boot.resetType_seeded files cfg _ booted

theorem boot_agrees_iff (cfg : BootConfig) {e f : Emulator} (same : e.sys = f.sys)
    (held : e.sys.bus.hasCartridge = true) :
    SameLoad (e.boot files cfg).2 (f.boot files { cfg with resetType := 0 }).2 ↔
      cfg.resetType &&& 0xFF = 0 ∨ ¬ Boot.Bootable files cfg := by
  have held' : f.sys.bus.hasCartridge = true := by
    rw [← same]
    exact held
  constructor
  · intro agree
    by_contra differs
    obtain ⟨warm, some_⟩ := not_or.mp differs
    have bootable : Boot.Bootable files cfg := not_not.mp some_
    have cold : Boot.Bootable files { cfg with resetType := 0 } :=
      ⟨bootable.pif, bootable.ipl3, bootable.lle⟩
    have left := resetType_boot ((booted_iff_bootable held).mpr bootable)
    have right := resetType_boot ((booted_iff_bootable held').mpr cold)
    rw [agree.sys, right] at left
    exact warm (Boot.lowByte_zero left.symm)
  · intro h
    obtain ⟨result, failed⟩ := Boot.hleBootLoaded_resetType files cfg { f.sys with log := [] } 0
    have state : (Boot.hleBootLoaded files cfg { f.sys with log := [] }).2 =
        (Boot.hleBootLoaded files { cfg with resetType := 0 } { f.sys with log := [] }).2 := by
      rcases h with cold | unbootable
      · rw [Boot.hleBootLoaded_cold files cfg _ cold]
      · refine (failed ?_).symm
        by_contra ok
        exact unbootable ((Boot.ok_iff_bootable (s := { f.sys with log := [] }) held').mp
          (Bool.of_not_eq_false ok))
    exact
      { sys := by rw [sys_boot, sys_boot, same, state]
        header := by rw [header_boot, header_boot, same, result]
        booted := by rw [booted_boot, booted_boot, same, result] }

/-- Over one file the two loaders agree exactly when the remembered reset type
is cold in its low byte, or nothing is booted at all. -/
theorem loaders_agree_iff (readable : files path = some data) (e : Emulator) :
    SameLoad (e.loadRomBytes files data {}).2 (e.loadRom files path).2 ↔
      e.bootCfg.resetType &&& 0xFF = 0 ∨ data = [] ∨ ¬ Boot.Bootable files e.bootCfg := by
  by_cases nothing : data = []
  · have refused : SameLoad (e.loadRomBytes files data {}).2 (e.loadRom files path).2 := by
      simp only [loadRomBytes, loadRom, Bus.loadCartridgeFile, readable, Bus.loadCartridge, nothing]
      exact ⟨rfl, rfl, rfl⟩
    exact ⟨fun _ => Or.inr (Or.inl nothing), fun _ => refused⟩
  · obtain ⟨s, inserted, held⟩ := loadCartridge_nonempty e.resetHardware.sys nothing
    have read : Bus.loadCartridgeFile files e.resetHardware.sys path = some s := by
      simpa [Bus.loadCartridgeFile, readable, nothing] using inserted
    have cold : BootConfig.customized {} = false := rfl
    simp only [loadRomBytes, loadRom, inserted, read, cold, nothing, false_or]
    exact boot_agrees_iff e.bootCfg rfl held

/-- With one load and one soft reset behind it, the emulator seeds a soft reset
for the bytes and a cold one for the file. -/
theorem loaders_differ_after_reset :
    let files : Files := fun _ => some [0x80]
    let e := (construct files |>.loadRom files "rom").2.reset files
    (e.loadRomBytes files [0x80] {}).2.sys.pif.pifRam 0x3C = 1 ∧
      (e.loadRom files "rom").2.sys.pif.pifRam 0x3C = 0 ∧
      ¬ SameLoad (e.loadRomBytes files [0x80] {}).2 (e.loadRom files "rom").2 := by
  have bytes : ((((construct fun _ => some [0x80]).loadRom (fun _ => some [0x80]) "rom").2.reset
      fun _ => some [0x80]).loadRomBytes (fun _ => some [0x80]) [0x80] {}).2.sys.pif.pifRam 0x3C
      = 1 := by decide +kernel
  have file : ((((construct fun _ => some [0x80]).loadRom (fun _ => some [0x80]) "rom").2.reset
      fun _ => some [0x80]).loadRom (fun _ => some [0x80]) "rom").2.sys.pif.pifRam 0x3C
      = 0 := by decide +kernel
  refine ⟨bytes, file, fun same => ?_⟩
  rw [same.sys, file] at bytes
  cases bytes

/-- A fresh emulator loads both alike. -/
theorem loaders_agree_when_fresh :
    let files : Files := fun _ => some [0x80]
    SameLoad ((construct files).loadRomBytes files [0x80] {}).2
      ((construct files).loadRom files "rom").2 :=
  (loaders_agree_iff rfl (construct fun _ => some [0x80])).mpr (Or.inl (by decide))

end Loaders

end Emulator

end N64
