import N64Emu.Cart
import N64Emu.CpuExecute
import N64Emu.Rsp

/-!
# Reset and high-level boot

The component resets that `Emulator::reset` and the ROM loads run in the same
order, which keep the cartridge and the PIF ROM. A boot then leaves what the
boot code of the console would leave behind, or starts a user's PIF ROM. The
file system is a parameter: what reading a path returns, or nothing when the
file cannot be read.
-/

set_option autoImplicit false

namespace N64

open Words Loops Cart

/-- `Bus::reset`; resetting the SP registers halts the RSP. -/
def Bus.reset (s : Sys) : Sys :=
  let s := { s with
    bus.rdram := fun _ => 0
    bus.spDmem := fun _ => 0
    bus.spImem := fun _ => 0
    bus.pifRam := fun _ => 0
    bus.mi := Mi.reset s.bus.mi
    bus.pi := Pi.reset s.bus.pi
    bus.si := Si.reset s.bus.si
    bus.ri := Ri.reset s.bus.ri }
  let s := SpRegs.reset s
  { s with bus.dpRegs := DpRegs.reset s.bus.dpRegs }

namespace Sys

def reset (s : Sys) : Sys :=
  let s := Bus.reset s
  { s with
      cpu := s.cpu.reset
      vi := Vi.reset s.vi
      ai := Ai.reset s.ai
      pif := s.pif.reset
      rsp := s.rsp.reset
      rdp := s.rdp.reset }

end Sys

abbrev Files := String → Option (List U8)

inductive BootMode where
  | Hle | LlePif
  deriving DecidableEq, Repr

structure BootConfig where
  mode : BootMode := .Hle
  loadSize : ℕ := 0
  skipRomCopy : Bool := false
  forceCic : CicType := .Unknown
  forceTvSet : Bool := false
  forceTv : TvType := .NTSC
  pifRomPath : String := ""
  ipl3Path : String := ""
  resetType : U32 := 0
  deriving DecidableEq

structure BootResult where
  ok : Bool := false
  header : CartHeader := {}
  entrypoint : U32 := 0
  bytesCopied : ℕ := 0
  pifRomLoaded : Bool := false
  ipl3Loaded : Bool := false
  mode : BootMode := .Hle
  error : Option String := none

namespace Bus

def hasCartridge (b : Bus) : Bool := b.cartSize != 0

def hasPifRom (b : Bus) : Bool := b.pifRomSize != 0

def cartridge (b : Bus) : List U8 := (List.range b.cartSize).map b.cart

/-- `load_cartridge`, or nothing when the bus refuses the image. -/
def loadCartridge (s : Sys) (data : List U8) : Option Sys :=
  if data.isEmpty then none
  else
    let image := normalizeCartEndian data
    some { s with bus.cartSize := image.length, bus.cart := fun i => image.getD i 0 }

def loadCartridgeFile (files : Files) (s : Sys) (path : String) : Option Sys :=
  match files path with
  | none => none
  | some data => if data.isEmpty then none else loadCartridge s data

def loadPifRom (s : Sys) (data : List U8) : Option Sys :=
  if data.isEmpty then none
  else if data.length > 8 * 1024 then none
  else some { s with bus.pifRomSize := data.length, bus.pifRom := fun i => data.getD i 0 }

end Bus

namespace Boot

def loadBinaryFile (files : Files) (path : String) : List U8 := (files path).getD []

def loadPhysFromEntry (entry : U32) : U32 := entry &&& 0x1FFFFFFF

def applyPiDom1FromHeader (s : Sys) (piWord : U32) : Sys :=
  let lat := piWord &&& 0xFF
  let pwd := (piWord >>> 8) &&& 0xFF
  let pgs := (piWord >>> 16) &&& 0x0F
  let rls := (piWord >>> 20) &&& 0x0F
  let s := Bus.write32 s (Mmio.PI_BASE + 0x14) lat
  let s := Bus.write32 s (Mmio.PI_BASE + 0x18) pwd
  let s := Bus.write32 s (Mmio.PI_BASE + 0x1C) pgs
  Bus.write32 s (Mmio.PI_BASE + 0x20) rls

def clearGprs (c : Cpu) : Cpu :=
  upTo (fun i (c : Cpu) => c.writeGpr (BitVec.ofNat 5 i) 0) 32 c

/-- The general registers after IPL3, in the order they are set. -/
def gprSeeds (hdr : CartHeader) (spTop resetType : U32) : List (BitVec 5 × U64) :=
  [(6, 0xFFFFFFFF), (11, 0xFFFFFFFF), (19, 0), (20, hdr.tv.code.setWidth 64),
   (21, (resetType &&& 1).setWidth 64), (22, hdr.cicSeed.setWidth 64), (23, 0), (24, 3),
   (25, 0xFFFFFFFF), (29, spTop.setWidth 64), (31, 0xA4001550)]

def cop0Seeds : List (BitVec 5 × U32) :=
  [(Cop0Reg.Status, 0x34000000), (Cop0Reg.Config, 0x7006E463), (Cop0Reg.Count, 0),
   (Cop0Reg.Compare, 0xFFFFFFFF), (Cop0Reg.Cause, 0), (Cop0Reg.EPC, 0),
   (Cop0Reg.PRId, 0x00000B22), (Cop0Reg.Context, 0), (Cop0Reg.Wired, 0), (Cop0Reg.BadVAddr, 0),
   (Cop0Reg.Random, 31)]

def setGprs (seeds : List (BitVec 5 × U64)) (c : Cpu) : Cpu :=
  seeds.foldl (fun c seed => c.writeGpr seed.1 seed.2) c

def setCop0s (seeds : List (BitVec 5 × U32)) (s : Sys) : Sys :=
  seeds.foldl (fun s seed => Cpu.setCop0 s seed.1 seed.2) s

/-- `cpu.set_pc` and `cpu.set_halted(false)`. -/
def startCpu (pc : U64) (c : Cpu) : Cpu := { c.setPc pc with halted := false }

def seedCpuAfterIpl3 (s : Sys) (hdr : CartHeader) (spTop resetType : U32) : Sys :=
  let s := s.onCpu fun c => setGprs (gprSeeds hdr spTop resetType) (clearGprs c)
  let s := setCop0s cop0Seeds s
  s.onCpu (startCpu (hdr.entrypoint.setWidth 64))

/-- The bytes of PIF RAM a boot leaves. -/
def pifSeed (hdr : CartHeader) (resetType : U32) : Bytes :=
  let ram : Bytes := fun _ => 0
  let ram := Function.update ram 0x26 hdr.cicSeed
  let ram := Function.update ram 0x27 hdr.cicSeed
  let ram := Function.update ram 0x3C ((resetType &&& 0xFF).setWidth 8)
  Function.update ram 0x3F 0

def seedPifRam (s : Sys) (hdr : CartHeader) (resetType : U32) : Sys :=
  let ram := pifSeed hdr resetType
  { s with
      pif.pifRam := ram
      log := s.log ++ Sys.changed .pif kPifRamSize s.pif.pifRam ram }

def copyRomToRdram (s : Sys) (destPhys : U32) (nbytes : ℕ) : ℕ × Sys :=
  if s.bus.cartSize ≤ 0x1000 then (0, s)
  else
    let n := min nbytes (s.bus.cartSize - 0x1000)
    if n = 0 ∨ s.bus.rdramSize = 0 then (0, s)
    else
      let s := Bus.write32 s (Mmio.PI_BASE + 0x00) destPhys
      let s := Bus.write32 s (Mmio.PI_BASE + 0x04) (CART_DOM1_BASE + 0x1000)
      let s := Bus.write32 s (Mmio.PI_BASE + 0x08) (BitVec.ofNat 32 (n - 1))
      (n, Bus.write32 s (Mmio.PI_BASE + 0x10) Pi.WrClrIntr)

/-- The loop of `install_ipl3_to_dmem`: both copies of DMEM, no notification. -/
def installIpl3ToDmem (s : Sys) (ipl3 : List U8) : Bool × Sys :=
  if ipl3.length < 16 then (false, s)
  else
    let n := min ipl3.length (0x1000 - 0x40)
    (true, upTo (fun i s =>
      let b := ipl3.getD i 0
      (s.pokeSpDmem (0x40 + i) b).pokeRspDmem (0x40 + i) b) n s)

/-- The CIC override; the entry point is fixed up again. -/
def forceCic (cic : CicType) (hdr : CartHeader) : CartHeader :=
  if cic = .Unknown then hdr
  else { hdr with cic := cic, cicSeed := cicSeed cic, entrypoint := entrypointOf cic hdr.pc }

def forceTv (cfg : BootConfig) (hdr : CartHeader) : CartHeader :=
  if cfg.forceTvSet then { hdr with tv := cfg.forceTv } else hdr

def bootHeader (b : Bus) (cfg : BootConfig) : CartHeader :=
  forceTv cfg (forceCic cfg.forceCic (if b.hasCartridge then parseCartHeader b.cartridge else {}))

/-- The optional PIF ROM: whether one was installed. -/
def installPifRom (files : Files) (cfg : BootConfig) (s : Sys) : Except String (Bool × Sys) :=
  if cfg.pifRomPath = "" then .ok (false, s)
  else
    let blob := loadBinaryFile files cfg.pifRomPath
    if blob.isEmpty then .error "failed to load PIF ROM"
    else
      match Bus.loadPifRom s blob with
      | none => .error "bus rejected PIF ROM"
      | some s => .ok (true, s)

/-- The user's IPL3, or the one of the cartridge. -/
def readIpl3 (files : Files) (cfg : BootConfig) (b : Bus) : Except String (List U8) :=
  if cfg.ipl3Path ≠ "" then
    let blob := loadBinaryFile files cfg.ipl3Path
    if blob.isEmpty then .error "failed to load IPL3 file" else .ok blob
  else if b.hasCartridge ∧ b.cartSize ≥ 0x1000 then .ok (Cart.ipl3 b.cartridge)
  else .ok []

/-- The installation shared by both paths; nothing is installed without bytes. -/
def mirrorIpl3 (s : Sys) (ipl3 : List U8) : Bool × Sys :=
  if ipl3.isEmpty then (false, s) else installIpl3ToDmem s ipl3

def applyPiDom1 (s : Sys) (hdr : CartHeader) : Sys :=
  if s.bus.hasCartridge then applyPiDom1FromHeader s hdr.piBsdDom1 else s

/-- The LLE path, after the PIF ROM is in place. -/
def llePif (cfg : BootConfig) (hdr : CartHeader) (ipl3 : List U8) (s : Sys) : Bool × Sys :=
  let s := applyPiDom1 s hdr
  let s := (seedPifRam s hdr cfg.resetType).mirrorPif
  let s := s.onCpu clearGprs
  let s := setCop0s [(Cop0Reg.Status, 0x34400000), (Cop0Reg.Config, 0x7006E463)] s
  let s := s.onCpu (startCpu 0xBFC00000)
  mirrorIpl3 { s with rsp := s.rsp.reset } ipl3

/-- The number of bytes of the image the HLE path asks for. -/
def loadSizeOf (cfg : BootConfig) (b : Bus) : ℕ :=
  if cfg.loadSize = 0 ∧ b.hasCartridge then min (b.cartSize - 0x1000) (1024 * 1024)
  else cfg.loadSize

/-- The HLE path up to the copy of the image. -/
def hlePrepare (hdr : CartHeader) (ipl3 : List U8) (s : Sys) : Bool × Sys :=
  let s := applyPiDom1 s hdr
  let s := { s with rsp := s.rsp.reset }
  let s := Bus.write32 s (Mmio.SP_REGS_BASE + 0x10) (SpRegs.WrSetHalt ||| SpRegs.WrClearIntr)
  mirrorIpl3 s ipl3

def hleCopy (cfg : BootConfig) (hdr : CartHeader) (s : Sys) : ℕ × Sys :=
  if !cfg.skipRomCopy ∧ s.bus.hasCartridge then
    copyRomToRdram s (loadPhysFromEntry hdr.entrypoint) (loadSizeOf cfg s.bus)
  else (0, s)

/-- What the HLE path seeds last. -/
def hleSeed (cfg : BootConfig) (hdr : CartHeader) (s : Sys) : Sys :=
  let s := (seedPifRam s hdr cfg.resetType).mirrorPif
  let spTop : U32 := (BitVec.ofNat 32 s.bus.rdramSize - 0x10) ||| 0xA0000000
  seedCpuAfterIpl3 s hdr spTop cfg.resetType

def hleBootLoaded (files : Files) (cfg : BootConfig) (s : Sys) : BootResult × Sys :=
  if !s.bus.hasCartridge ∧ cfg.mode = .Hle then
    ({ mode := cfg.mode, error := some "no cartridge loaded" }, s)
  else
    let hdr := bootHeader s.bus cfg
    let result : BootResult := { mode := cfg.mode, header := hdr, entrypoint := hdr.entrypoint }
    match installPifRom files cfg s with
    | .error e => ({ result with error := some e }, s)
    | .ok (pifRomLoaded, s) =>
      let result := { result with pifRomLoaded := pifRomLoaded }
      match readIpl3 files cfg s.bus with
      | .error e => ({ result with error := some e }, s)
      | .ok ipl3 =>
        match cfg.mode with
        | .LlePif =>
          if !pifRomLoaded then
            ({ result with
                error := some "LLE PIF boot requires --pif-rom PATH (user-owned dump)" }, s)
          else
            let (ipl3Loaded, s) := llePif cfg hdr ipl3 s
            ({ result with
                ipl3Loaded := ipl3Loaded
                entrypoint := 0xBFC00000
                header := { hdr with entrypoint := 0xBFC00000 }
                ok := true }, s)
        | .Hle =>
          let (ipl3Loaded, s) := hlePrepare hdr ipl3 s
          let (bytesCopied, s) := hleCopy cfg hdr s
          ({ result with ipl3Loaded := ipl3Loaded, bytesCopied := bytesCopied, ok := true },
            hleSeed cfg hdr s)

end Boot

end N64
