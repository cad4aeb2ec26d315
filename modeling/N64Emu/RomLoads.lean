import N64Emu.BootInvariant
import N64Emu.Emulator
import N64Emu.Runs

/-!
# ROM loads, resets and boots

The cartridge belongs to the bus and survives every reset; the flags belong to
the emulator. A load that is refused clears the flags and leaves the cartridge
of an earlier load in place.
-/

set_option autoImplicit false

namespace N64.Emulator

open Words

section Cartridge

@[simp]
theorem hasCartridge_resetHardware (e : Emulator) :
    e.resetHardware.sys.bus.hasCartridge = e.sys.bus.hasCartridge := rfl

theorem hasCartridge_boot (files : Files) (cfg : BootConfig) (e : Emulator) :
    (e.boot files cfg).2.sys.bus.hasCartridge = e.sys.bus.hasCartridge := by
  have sizes := (bootInvariant_cartridge e.sys.bus.rdramSize e.sys.bus.cartSize).hleBootLoaded
    files cfg (s := { e.sys with log := [] }) ⟨rfl, rfl⟩
  have kept : (e.boot files cfg).2.sys.bus.cartSize = e.sys.bus.cartSize := by
    simp only [boot]
    split
    · exact sizes.2
    · exact sizes.2
  simp only [Bus.hasCartridge, kept]

@[simp]
theorem romLoaded_boot (files : Files) (cfg : BootConfig) (e : Emulator) :
    (e.boot files cfg).2.romLoaded = e.romLoaded := by
  simp only [boot]
  split
  · rfl
  · rfl

@[simp]
theorem bootCfg_boot (files : Files) (cfg : BootConfig) (e : Emulator) :
    (e.boot files cfg).2.bootCfg = cfg := by
  simp only [boot]
  split
  · rfl
  · rfl

theorem booted_boot (files : Files) (cfg : BootConfig) (e : Emulator) :
    (e.boot files cfg).2.booted = (Boot.hleBootLoaded files cfg { e.sys with log := [] }).1.ok := by
  simp only [boot]
  split
  · simp_all [Machine.performWith, sys]
  · simp_all [Machine.performWith, sys]

theorem lle_of_booted {files : Files} {cfg : BootConfig} {e : Emulator}
    (empty : e.sys.bus.hasCartridge = false) (booted : (e.boot files cfg).2.booted = true) :
    cfg.mode = .LlePif := by
  rw [booted_boot] at booted
  have outcome := Boot.hleBootLoaded_cases files cfg { e.sys with log := [] }
  generalize (Boot.hleBootLoaded files cfg { e.sys with log := [] }).2 = t at outcome
  cases outcome with
  | noCartridge refused => simp [refused] at booted
  | pifRom refused => simp [refused] at booted
  | ipl3 refused => simp [refused] at booted
  | withoutPif refused => simp [refused] at booted
  | lle _ mode => exact mode
  | hle _ _ held =>
    rw [empty] at held
    cases held

theorem loadCartridge_nonempty (s : Sys) {data : List U8} (some_ : data ≠ []) :
    ∃ t, Bus.loadCartridge s data = some t ∧ t.bus.hasCartridge = true := by
  have length : (Cart.normalizeCartEndian data).length ≠ 0 := by
    rw [Cart.length_normalizeCartEndian]
    simpa using some_
  refine ⟨_, if_neg (by simpa using some_), ?_⟩
  simpa [Bus.hasCartridge] using length

end Cartridge

section Flags

/-- The calls that load, reset and boot. -/
inductive LoadAct where
  | loadRom (files : Files) (path : String)
  | loadRomBytes (files : Files) (data : List U8) (cfg : BootConfig)
  | reset (files : Files)
  | hleBoot (files : Files) (cfg : BootConfig)

def LoadAct.perform : LoadAct → Emulator → Emulator
  | .loadRom files path, e => (e.loadRom files path).2
  | .loadRomBytes files data cfg, e => (e.loadRomBytes files data cfg).2
  | .reset files, e => e.reset files
  | .hleBoot files cfg, e => (e.boot files { cfg with mode := .Hle }).2

/-- The load finds no image: the file cannot be read or there are no bytes. -/
def LoadAct.Refused : LoadAct → Prop
  | .loadRom files path => (files path).getD [] = []
  | .loadRomBytes _ data _ => data = []
  | .reset _ => False
  | .hleBoot _ _ => False

structure Consistent (e : Emulator) : Prop where
  loaded : e.romLoaded = true ↔ e.sys.bus.hasCartridge = true
  booted : e.booted = true → e.romLoaded = true

def LoadAct.Safe (a : LoadAct) (e : Emulator) : Prop :=
  a.Refused → e.sys.bus.hasCartridge = false

/-- Only a load of bytes sets the PIF ROM path's mode, and it brings a cartridge. -/
def LleHolds (e : Emulator) : Prop :=
  e.bootCfg.mode = .LlePif → e.sys.bus.hasCartridge = true

variable {e : Emulator}

theorem consistent_accepted {files : Files} {cfg : BootConfig} {s : Sys} {path : String}
    (held : s.bus.hasCartridge = true) :
    Consistent ((e.acceptRom s path).boot files cfg).2 where
  loaded := by
    rw [romLoaded_boot, hasCartridge_boot]
    exact ⟨fun _ => held, fun _ => rfl⟩
  booted := by
    rw [romLoaded_boot]
    exact fun _ => rfl

theorem consistent_rejected_iff :
    Consistent e.resetHardware.rejectRom ↔ e.sys.bus.hasCartridge = false := by
  constructor
  · intro h
    by_contra held
    exact Bool.false_ne_true (h.loaded.mpr (Bool.of_not_eq_false held))
  · intro empty
    exact ⟨⟨fun h => absurd h Bool.false_ne_true, fun h => absurd (h.symm.trans empty) (by decide)⟩,
      fun h => absurd h Bool.false_ne_true⟩

theorem Consistent.boot {files : Files} {cfg : BootConfig} (c : Consistent e)
    (holds : cfg.mode = .LlePif → e.sys.bus.hasCartridge = true) :
    Consistent (e.boot files cfg).2 where
  loaded := by
    rw [romLoaded_boot, hasCartridge_boot]
    exact c.loaded
  booted := by
    intro booted
    rw [romLoaded_boot]
    by_contra unloaded
    have empty : e.sys.bus.hasCartridge = false := by
      simpa using fun held => unloaded (c.loaded.mpr held)
    have held := holds (lle_of_booted empty booted)
    exact absurd (held.symm.trans empty) (by decide)

theorem Consistent.resetHardware (c : Consistent e) : Consistent e.resetHardware :=
  ⟨c.loaded, fun h => absurd h Bool.false_ne_true⟩

theorem loadRomBytes_cases (files : Files) (data : List U8) (cfg : BootConfig) (e : Emulator) :
    (data = [] ∧ (e.loadRomBytes files data cfg).2 = e.resetHardware.rejectRom) ∨
    (data ≠ [] ∧ ∃ s cfg', s.bus.hasCartridge = true ∧
      (e.loadRomBytes files data cfg).2 =
        ((e.resetHardware.acceptRom s "").boot files cfg').2) := by
  by_cases nothing : data = []
  · exact Or.inl ⟨nothing, by simp [loadRomBytes, Bus.loadCartridge, nothing]⟩
  · obtain ⟨s, inserted, held⟩ := loadCartridge_nonempty e.resetHardware.sys nothing
    refine Or.inr ⟨nothing, s, if cfg.customized then cfg else e.bootCfg, held, ?_⟩
    simp only [loadRomBytes, inserted]
    rfl

theorem loadRom_cases (files : Files) (path : String) (e : Emulator) :
    ((files path).getD [] = [] ∧ (e.loadRom files path).2 = e.resetHardware.rejectRom) ∨
    ((files path).getD [] ≠ [] ∧ ∃ s, s.bus.hasCartridge = true ∧ (e.loadRom files path).2 =
      ((e.resetHardware.acceptRom s path).boot files { e.bootCfg with resetType := 0 }).2) := by
  cases found : files path with
  | none => exact Or.inl ⟨rfl, by simp [loadRom, Bus.loadCartridgeFile, found]⟩
  | some data =>
    by_cases empty : data = []
    · exact Or.inl ⟨empty, by simp [loadRom, Bus.loadCartridgeFile, found, empty]⟩
    · obtain ⟨s, inserted, held⟩ := loadCartridge_nonempty e.resetHardware.sys empty
      have read : Bus.loadCartridgeFile files e.resetHardware.sys path = some s := by
        simpa [Bus.loadCartridgeFile, found, empty] using inserted
      exact Or.inr ⟨empty, s, held, by simp only [loadRom, read]; rfl⟩

theorem lleHolds_perform (a : LoadAct) (h : LleHolds e) : LleHolds (a.perform e) := by
  cases a with
  | loadRom files path =>
    rcases loadRom_cases files path e with ⟨_, rejected⟩ | ⟨_, s, held, accepted⟩
    · rw [LoadAct.perform, rejected]
      exact h
    · intro _
      rw [LoadAct.perform, accepted, hasCartridge_boot]
      exact held
  | loadRomBytes files data cfg =>
    rcases loadRomBytes_cases files data cfg e with ⟨_, rejected⟩ | ⟨_, s, cfg', held, accepted⟩
    · rw [LoadAct.perform, rejected]
      exact h
    · intro _
      rw [LoadAct.perform, accepted, hasCartridge_boot]
      exact held
  | reset files =>
    simp only [LoadAct.perform, LleHolds, reset]
    split
    · rw [bootCfg_boot, hasCartridge_boot]
      exact h
    · exact h
  | hleBoot files cfg =>
    intro mode
    simp only [LoadAct.perform, bootCfg_boot] at mode
    cases mode

theorem consistent_perform_iff (a : LoadAct) (h : LleHolds e) (c : Consistent e) :
    Consistent (a.perform e) ↔ a.Safe e := by
  cases a with
  | loadRom files path =>
    rcases loadRom_cases files path e with ⟨nothing, rejected⟩ | ⟨found, s, held, accepted⟩
    · rw [LoadAct.perform, rejected, consistent_rejected_iff]
      exact ⟨fun empty _ => empty, fun safe => safe nothing⟩
    · rw [LoadAct.perform, accepted]
      exact ⟨fun _ refused => absurd refused found, fun _ => consistent_accepted held⟩
  | loadRomBytes files data cfg =>
    rcases loadRomBytes_cases files data cfg e with ⟨nothing, rejected⟩ |
      ⟨found, s, cfg', held, accepted⟩
    · rw [LoadAct.perform, rejected, consistent_rejected_iff]
      exact ⟨fun empty _ => empty, fun safe => safe nothing⟩
    · rw [LoadAct.perform, accepted]
      exact ⟨fun _ refused => absurd refused found, fun _ => consistent_accepted held⟩
  | reset files =>
    refine ⟨fun _ refused => refused.elim, fun _ => ?_⟩
    simp only [LoadAct.perform, reset]
    split
    · exact c.resetHardware.boot h
    · exact c.resetHardware
  | hleBoot files cfg =>
    refine ⟨fun _ refused => refused.elim, fun _ => ?_⟩
    apply c.boot
    intro mode
    cases mode

theorem consistent_construct (files : Files) : Consistent (construct files) :=
  ⟨⟨fun h => absurd h Bool.false_ne_true, fun h => absurd h Bool.false_ne_true⟩,
    fun h => absurd h Bool.false_ne_true⟩

/-- The flags and the cartridge agree in every state of a run exactly when no
load that finds no image is tried while the bus holds a cartridge. -/
theorem flags_consistent_iff (files : Files) (acts : List LoadAct) :
    (∀ n, Consistent (Runs.run LoadAct.perform (acts.take n) (construct files))) ↔
      Runs.Along LoadAct.perform LoadAct.Safe acts (construct files) := by
  apply Runs.reached_iff_along (K := LleHolds)
  · exact fun a e h => lleHolds_perform a h
  · exact fun a e h c => consistent_perform_iff a h c
  · intro mode
    cases mode
  · exact consistent_construct files

/-- After a refused load a reset boots the cartridge the flags deny. -/
theorem refused_load_then_reset_boots :
    let files : Files := fun _ => none
    let e := Runs.run LoadAct.perform
      [.loadRomBytes files [0x80] {}, .loadRomBytes files [] {}, .reset files] (construct files)
    ¬ Consistent e ∧ e.booted = true ∧ e.romLoaded = false := by
  have booted : (Runs.run LoadAct.perform [.loadRomBytes (fun _ => none) [0x80] {},
      .loadRomBytes (fun _ => none) [] {}, .reset (fun _ => none)]
      (construct fun _ => none)).booted = true := by decide +kernel
  exact ⟨fun c => absurd (c.booted booted) (by decide +kernel), booted, by decide +kernel⟩

end Flags

end N64.Emulator
