import N64Emu.Interrupts

/-!
# The video interface

Registers and scanline timing. `tick` steps whole lines while the cycle
accumulator covers one.
-/

set_option autoImplicit false

namespace N64

open Words Loops

namespace Vi

def Control : ℕ := 0x00 / 4
def Origin : ℕ := 0x04 / 4
def Width : ℕ := 0x08 / 4
def VIntr : ℕ := 0x0C / 4
def VCurrent : ℕ := 0x10 / 4
def VSync : ℕ := 0x18 / 4
def HStart : ℕ := 0x24 / 4
def VStart : ℕ := 0x28 / 4
def RegCount : ℕ := 0x38 / 4

def kDefaultLinesPerFrame : U32 := 262
def kDefaultCyclesPerLine : Cycles := 5963

/-- The register values `reset` writes, by index. -/
def resetRegs : List U32 :=
  [0x00003202, 0, 320, 0x002, 0, 0x03E52239, 0x20D, 0xC15, 0x0C150C15, 0x006C02EC, 0x002501FF,
   0x000E0204, 0x200, 0x400]

def reset (_ : VideoInterface) : VideoInterface :=
  { regs := fun i => resetRegs.getD i 0
    cycleAccum := 0
    cyclesPerLine := kDefaultCyclesPerLine
    linesPerFrame := kDefaultLinesPerFrame
    frameCount := 0
    frameReady := false
    interruptLine := false }

def vIntr (v : VideoInterface) : U32 := v.regs VIntr &&& 0x3FF
def vCurrent (v : VideoInterface) : U32 := v.regs VCurrent &&& 0x3FF

def regIndex (offset : U32) : ℕ := (offset &&& 0x3C).toNat / 4

def read (v : VideoInterface) (offset : U32) : U32 :=
  if regIndex offset ≥ RegCount then 0 else v.regs (regIndex offset)

def write (s : Sys) (offset value : U32) : Sys :=
  let idx := regIndex offset
  if idx ≥ RegCount then s
  else if idx = VCurrent then Mi.clear { s with vi.interruptLine := false } MiIntr.VI
  else
    let s := { s with vi.regs := Function.update s.vi.regs idx value }
    let vs := value &&& 0x3FF
    if idx = VSync ∧ vs.toNat ≥ 100 ∧ vs.toNat < 800 then { s with vi.linesPerFrame := vs } else s

def raiseInterrupt (s : Sys) : Sys := Mi.raise { s with vi.interruptLine := true } MiIntr.VI

def setVCurrentRaw (v : VideoInterface) (line : U32) : VideoInterface :=
  { v with regs := Function.update v.regs VCurrent (line &&& 0x3FE) }

/-- The line after the current one, and the frame state when it wraps. -/
def nextLine (v : VideoInterface) : U32 × VideoInterface :=
  let v := { v with cycleAccum := v.cycleAccum - v.cyclesPerLine }
  let line := (vCurrent v + 2) &&& 0x3FE
  if line.toNat > (v.linesPerFrame &&& 0x3FE).toNat ∨ line = 0 then
    (0, { v with frameCount := v.frameCount + 1, frameReady := true, interruptLine := false })
  else (line, v)

def tickLine (s : Sys) : Sys :=
  let (line, v) := nextLine s.vi
  let s := { s with vi := setVCurrentRaw v line }
  let vintr := vIntr s.vi &&& 0x3FE
  if !s.vi.interruptLine ∧ vintr ≠ 0 ∧ line = vintr then raiseInterrupt s else s

def tick (s : Sys) (cpuCycles : Cycles) : Sys :=
  if cpuCycles = 0 ∨ s.vi.cyclesPerLine = 0 then s
  else
    let s := { s with vi.cycleAccum := s.vi.cycleAccum + cpuCycles }
    whileDo (fun s => s.vi.cyclesPerLine ≤ s.vi.cycleAccum) tickLine s.vi.cycleAccum.toNat s

end Vi

end N64
