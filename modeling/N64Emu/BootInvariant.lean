import N64Emu.Boot
import N64Emu.BusFrame

/-!
# How a boot ends and what it preserves

A boot is a sequence of bus writes, CPU seeds and byte stores. What each of
them preserves, the boot preserves, whether it succeeds or fails.
-/

set_option autoImplicit false

namespace N64

open Words Loops

namespace Boot

/-- How a boot can end: the result it returns and the state it leaves. -/
inductive Outcome (files : Files) (cfg : BootConfig) (s : Sys) (r : BootResult) : Sys → Prop
  | noCartridge (refused : r.ok = false) (mode : cfg.mode = .Hle)
      (absent : s.bus.hasCartridge = false) : Outcome files cfg s r s
  | pifRom {e : String} (refused : r.ok = false) (failed : installPifRom files cfg s = .error e) :
      Outcome files cfg s r s
  | ipl3 {e : String} {loaded : Bool} {t : Sys} (refused : r.ok = false)
      (installed : installPifRom files cfg s = .ok (loaded, t))
      (failed : readIpl3 files cfg t.bus = .error e) : Outcome files cfg s r t
  | withoutPif {t : Sys} {ipl3 : List U8} (refused : r.ok = false) (mode : cfg.mode = .LlePif)
      (installed : installPifRom files cfg s = .ok (false, t))
      (read : readIpl3 files cfg t.bus = .ok ipl3) : Outcome files cfg s r t
  | lle {t : Sys} {ipl3 : List U8} (ok : r.ok = true) (mode : cfg.mode = .LlePif)
      (installed : installPifRom files cfg s = .ok (true, t))
      (read : readIpl3 files cfg t.bus = .ok ipl3)
      (header : r.header = { bootHeader s.bus cfg with entrypoint := 0xBFC00000 }) :
      Outcome files cfg s r (llePif cfg (bootHeader s.bus cfg) ipl3 t).2
  | hle {loaded : Bool} {t : Sys} {ipl3 : List U8} (ok : r.ok = true) (mode : cfg.mode = .Hle)
      (held : s.bus.hasCartridge = true)
      (installed : installPifRom files cfg s = .ok (loaded, t))
      (read : readIpl3 files cfg t.bus = .ok ipl3) (header : r.header = bootHeader s.bus cfg) :
      Outcome files cfg s r (hleSeed cfg (bootHeader s.bus cfg)
        (hleCopy cfg (bootHeader s.bus cfg) (hlePrepare (bootHeader s.bus cfg) ipl3 t).2).2)

theorem hleBootLoaded_cases (files : Files) (cfg : BootConfig) (s : Sys) :
    Outcome files cfg s (hleBootLoaded files cfg s).1 (hleBootLoaded files cfg s).2 := by
  by_cases refused : !s.bus.hasCartridge ∧ cfg.mode = .Hle
  · simp only [hleBootLoaded, if_pos refused]
    exact .noCartridge rfl refused.2 (by simpa using refused.1)
  · simp only [hleBootLoaded, if_neg refused]
    cases installed : installPifRom files cfg s with
    | error e => exact .pifRom rfl installed
    | ok result =>
      obtain ⟨loaded, t⟩ := result
      cases read : readIpl3 files cfg t.bus with
      | error e =>
        simp only [read]
        exact .ipl3 rfl installed read
      | ok ipl3 =>
        cases mode : cfg.mode with
        | LlePif =>
          cases loaded with
          | false =>
            simp only [read]
            exact .withoutPif rfl mode installed read
          | true =>
            simp only [read]
            exact .lle rfl mode installed read rfl
        | Hle =>
          have held : s.bus.hasCartridge = true := by simpa [mode] using refused
          simp only [read]
          exact .hle rfl mode held installed read rfl

end Boot

/-- `P` survives every operation a boot performs. -/
structure BootInvariant (P : Sys → Prop) : Prop where
  write32 : ∀ {s} addr value, P s → P (Bus.write32 s addr value)
  loadPifRom : ∀ {s} size rom, P s → P { s with bus.pifRomSize := size, bus.pifRom := rom }
  seedPif : ∀ {s} ram log, P s → P { s with pif.pifRam := ram, log := log }
  mirrorPif : ∀ {s}, P s → P s.mirrorPif
  writeGpr : ∀ {s} i value, P s → P (s.onCpu (·.writeGpr i value))
  setCop0 : ∀ {s} i value, P s → P (Cpu.setCop0 s i value)
  startCpu : ∀ {s} pc, P s → P (s.onCpu (Boot.startCpu pc))
  resetRsp : ∀ {s}, P s → P { s with rsp := s.rsp.reset }
  installByte : ∀ {s} off b, P s → P ((s.pokeSpDmem off b).pokeRspDmem off b)

namespace BootInvariant

variable {P : Sys → Prop} (inv : BootInvariant P) {s : Sys}
include inv

theorem setGprs (seeds : List (BitVec 5 × U64)) (h : P s) :
    P (s.onCpu (Boot.setGprs seeds)) := by
  induction seeds generalizing s with
  | nil => exact h
  | cons seed seeds ih => exact ih (inv.writeGpr seed.1 seed.2 h)

theorem clearGprs (h : P s) : P (s.onCpu Boot.clearGprs) := by
  have each (n : ℕ) : P (s.onCpu
      (upTo (fun i (c : Cpu) => c.writeGpr (BitVec.ofNat 5 i) 0) n)) := by
    induction n with
    | zero => exact h
    | succ n ih => exact inv.writeGpr (BitVec.ofNat 5 n) 0 ih
  exact each 32

theorem setCop0s (seeds : List (BitVec 5 × U32)) (h : P s) : P (Boot.setCop0s seeds s) := by
  induction seeds generalizing s with
  | nil => exact h
  | cons seed seeds ih => exact ih (inv.setCop0 seed.1 seed.2 h)

theorem applyPiDom1 (hdr : CartHeader) (h : P s) : P (Boot.applyPiDom1 s hdr) := by
  unfold Boot.applyPiDom1 Boot.applyPiDom1FromHeader
  split
  · apply inv.write32
    apply inv.write32
    apply inv.write32
    apply inv.write32
    exact h
  · exact h

theorem seedPifRam (hdr : CartHeader) (resetType : U32) (h : P s) :
    P (Boot.seedPifRam s hdr resetType).mirrorPif := inv.mirrorPif (inv.seedPif _ _ h)

theorem mirrorIpl3 (ipl3 : List U8) (h : P s) : P (Boot.mirrorIpl3 s ipl3).2 := by
  unfold Boot.mirrorIpl3 Boot.installIpl3ToDmem
  split_ifs
  · exact h
  · exact h
  · apply upTo_preserves P _ h
    intro i _ t ht
    exact inv.installByte _ _ ht

theorem copyRomToRdram (dest : U32) (n : ℕ) (h : P s) : P (Boot.copyRomToRdram s dest n).2 := by
  simp only [Boot.copyRomToRdram]
  split_ifs
  · exact h
  · exact h
  · dsimp only
    apply inv.write32
    apply inv.write32
    apply inv.write32
    apply inv.write32
    exact h

theorem installPifRom {files : Files} {cfg : BootConfig} {loaded : Bool} {t : Sys} (h : P s)
    (installed : Boot.installPifRom files cfg s = .ok (loaded, t)) : P t := by
  simp only [Boot.installPifRom, Bus.loadPifRom] at installed
  split_ifs at installed
  · cases installed
    exact h
  · cases installed
    exact inv.loadPifRom _ _ h

theorem llePif (cfg : BootConfig) (hdr : CartHeader) (ipl3 : List U8) (h : P s) :
    P (Boot.llePif cfg hdr ipl3 s).2 := by
  unfold Boot.llePif
  apply inv.mirrorIpl3
  apply inv.resetRsp
  apply inv.startCpu
  apply inv.setCop0s
  apply inv.clearGprs
  apply inv.seedPifRam
  exact inv.applyPiDom1 hdr h

theorem hlePrepare (hdr : CartHeader) (ipl3 : List U8) (h : P s) :
    P (Boot.hlePrepare hdr ipl3 s).2 := by
  unfold Boot.hlePrepare
  apply inv.mirrorIpl3
  apply inv.write32
  apply inv.resetRsp
  exact inv.applyPiDom1 hdr h

theorem hleCopy (cfg : BootConfig) (hdr : CartHeader) (h : P s) :
    P (Boot.hleCopy cfg hdr s).2 := by
  unfold Boot.hleCopy
  split_ifs
  · exact inv.copyRomToRdram _ _ h
  · exact h

theorem seedCpuAfterIpl3 (hdr : CartHeader) (spTop resetType : U32) (h : P s) :
    P (Boot.seedCpuAfterIpl3 s hdr spTop resetType) := by
  unfold Boot.seedCpuAfterIpl3
  apply inv.startCpu
  apply inv.setCop0s
  exact inv.setGprs _ (inv.clearGprs h)

theorem hleSeed (cfg : BootConfig) (hdr : CartHeader) (h : P s) : P (Boot.hleSeed cfg hdr s) := by
  unfold Boot.hleSeed
  apply inv.seedCpuAfterIpl3
  exact inv.seedPifRam _ _ h

theorem hleBootLoaded (files : Files) (cfg : BootConfig) (h : P s) :
    P (Boot.hleBootLoaded files cfg s).2 := by
  have outcome := Boot.hleBootLoaded_cases files cfg s
  generalize (Boot.hleBootLoaded files cfg s).2 = t at outcome ⊢
  cases outcome with
  | noCartridge => exact h
  | pifRom => exact h
  | ipl3 _ installed => exact inv.installPifRom h installed
  | withoutPif _ _ installed => exact inv.installPifRom h installed
  | lle _ _ installed => exact inv.llePif cfg _ _ (inv.installPifRom h installed)
  | hle _ _ _ installed =>
    apply inv.hleSeed
    apply inv.hleCopy
    apply inv.hlePrepare
    exact inv.installPifRom h installed

end BootInvariant

theorem bootInvariant_cartridge (rdramSize cartSize : ℕ) :
    BootInvariant fun s => s.bus.rdramSize = rdramSize ∧ s.bus.cartSize = cartSize where
  write32 := by
    intro s addr value h
    have fixed := (frame_write32 s addr value).fixed
    simp only [Bus.fixed, Prod.mk.injEq] at fixed
    exact ⟨fixed.1.trans h.1, fixed.2.1.trans h.2⟩
  loadPifRom := fun _ _ h => h
  seedPif := fun _ _ h => h
  mirrorPif := fun h => h
  writeGpr := fun _ _ h => h
  setCop0 := by
    intro s i value h
    unfold Cpu.setCop0
    split_ifs
    · exact h
    · exact h
  startCpu := fun _ h => h
  resetRsp := fun h => h
  installByte := fun _ _ h => h

end N64
