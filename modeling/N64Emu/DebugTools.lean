import N64Emu.BoundedLog
import N64Emu.BusBytes
import N64Emu.Debugger
import Mathlib.Data.List.AList

/-!
# The tools of the debugger

The rest of the debugger beside its breakpoints: watchpoints on physical
bytes, the ring of traced instructions and the log of unknown accesses. The
hooks of the typed bus accesses are told by the marks a step leaves in its log.
-/

set_option autoImplicit false

namespace N64

open Words

/-- `%0*X` with this width. -/
def hex (width n : ℕ) : String :=
  let digits := (Nat.toDigits 16 n).map Char.toUpper
  String.ofList (List.replicate (width - digits.length) '0' ++ digits)

/-- `Cpu::disassemble`. -/
def disassemble (insn : U32) : String :=
  let o := Insn.op insn
  let rs := toString (Insn.rs insn).toNat
  let rt := toString (Insn.rt insn).toNat
  let rd := toString (Insn.rd insn).toNat
  if o = 0x00 then
    "SPECIAL fn=" ++ hex 2 (Insn.fn insn) ++ " rd=" ++ rd ++ " rs=" ++ rs ++ " rt=" ++ rt ++
      " sa=" ++ toString (Insn.sa insn).toNat
  else if o = 0x01 then
    "REGIMM rt=" ++ hex 2 (Insn.rt insn).toNat ++ " rs=" ++ rs ++ " imm=" ++
      toString (Insn.imm insn).toInt
  else if o = 0x02 ∨ o = 0x03 then
    (if o = 0x02 then "J" else "JAL") ++ " 0x" ++ hex 8 (Insn.target insn <<< 2).toNat
  else if o = 0x10 then
    "COP0 rs=" ++ hex 2 (Insn.rs insn).toNat ++ " rt=" ++ rt ++ " rd=" ++ rd
  else
    "op=" ++ hex 2 o ++ " rs=" ++ rs ++ " rt=" ++ rt ++ " imm=0x" ++ hex 4 (Insn.imm insn).toNat

structure TraceEntry where
  cycle : U64 := 0
  pc : U64 := 0
  insn : U32 := 0
  disasm : String := ""
  deriving DecidableEq

structure Watchpoint where
  id : ℤ := 0
  address : U32 := 0
  onRead : Bool := false
  onWrite : Bool := true
  enabled : Bool := true
  deriving DecidableEq

structure MmioHit where
  paddr : U32 := 0
  isWrite : Bool := false
  value : U32 := 0
  count : U64 := 1
  deriving DecidableEq

/-- Every field of the source's `Debugger`. -/
structure DebugState extends Debugger where
  watchpoints : List Watchpoint := []
  nextWatchId : ℤ := 1
  traceEnabled : Bool := false
  trace : List TraceEntry := []
  traceCapacity : ℕ := 4096
  unknownMmio : AList fun _ : U32 => MmioHit := ∅
  unknownMmioOrder : List U32 := []

namespace DebugState

def kMaxWatchpoints : ℕ := 32

def phys29 (a : U32) : U32 := a &&& 0x1FFFFFFF

/-- What `Debugger` does to its execution control. -/
def control (f : Debugger → Debugger) (d : DebugState) : DebugState :=
  { d with toDebugger := f d.toDebugger }

def clearTrace (d : DebugState) : DebugState := { d with trace := [] }

def reset (d : DebugState) : DebugState :=
  { d.clearTrace with
      paused := false
      stopReason := .None
      stepsLeft := 0
      resumeBreakpointPc := none
      hitCount := 0
      watchHitCount := 0
      unknownMmio := ∅
      unknownMmioOrder := [] }

def onTrace (e : TraceEntry) (d : DebugState) : DebugState :=
  if !d.traceEnabled then d
  else
    let kept := if d.traceCapacity ≤ d.trace.length then d.trace.tail else d.trace
    { d with trace := kept ++ [e] }

def setTraceCapacity (n : ℕ) (d : DebugState) : DebugState :=
  let n := if n < 16 then 16 else n
  let n := if 1000000 < n then 1000000 else n
  { d with traceCapacity := n, trace := BoundedLog.shrink n d.trace }

def setTraceEnabled (on_ : Bool) (d : DebugState) : DebugState := { d with traceEnabled := on_ }

def recentTrace (maxN : ℕ) (d : DebugState) : List TraceEntry :=
  if d.trace.isEmpty || maxN = 0 then []
  else d.trace.drop (d.trace.length - min maxN d.trace.length)

/-- The loop over the bytes of an access. -/
def overlaps (p size address : U32) : Bool :=
  (List.range (max 1 size.toNat)).any fun i => phys29 (p + BitVec.ofNat 32 i) = phys29 address

/-- The body `on_bus_read` and `on_bus_write` share. -/
def onAccess (select : Watchpoint → Bool) (paddr size : U32) (d : DebugState) : DebugState :=
  if !d.enabled || d.watchpoints.isEmpty then d
  else
    let p := phys29 paddr
    if d.watchpoints.any fun w => w.enabled && select w && overlaps p size w.address then
      d.control Debugger.onWatchpoint
    else d

def onBusRead (paddr size : U32) (d : DebugState) : DebugState :=
  d.onAccess (fun w => w.onRead) paddr size

def onBusWrite (paddr size : U32) (d : DebugState) : DebugState :=
  d.onAccess (fun w => w.onWrite) paddr size

def addWatchpoint (paddr : U32) (onRead onWrite : Bool) (d : DebugState) : ℤ × DebugState :=
  if kMaxWatchpoints ≤ d.watchpoints.length then (-1, d)
  else
    let w : Watchpoint :=
      { id := d.nextWatchId
        address := phys29 paddr
        onRead := onRead
        onWrite := if !onRead && !onWrite then true else onWrite
        enabled := true }
    (w.id, { d with nextWatchId := d.nextWatchId + 1, watchpoints := d.watchpoints ++ [w] })

def removeWatchpoint (id : ℤ) (d : DebugState) : Bool × DebugState :=
  (d.watchpoints.any fun w => w.id = id,
    { d with watchpoints := d.watchpoints.eraseP fun w => w.id = id })

def clearWatchpoints (d : DebugState) : DebugState := { d with watchpoints := [] }

/-- The bit of a write above the 29 address bits. -/
def mmioKey (paddr : U32) (isWrite : Bool) : U32 :=
  phys29 paddr ||| (if isWrite then 0x80000000 else 0)

def logUnknownMmio (paddr : U32) (isWrite : Bool) (value : U32) (d : DebugState) : DebugState :=
  let key := mmioKey paddr isWrite
  match d.unknownMmio.lookup key with
  | none =>
    let h : MmioHit := { paddr := phys29 paddr, isWrite := isWrite, value := value, count := 1 }
    { d with
        unknownMmio := d.unknownMmio.insert key h
        unknownMmioOrder := d.unknownMmioOrder ++ [key] }
  | some h =>
    let h := { h with count := h.count + 1, value := value }
    { d with unknownMmio := d.unknownMmio.insert key h }

def unknownMmioCount (d : DebugState) : ℕ := d.unknownMmio.entries.length

end DebugState

namespace Bus

/-- A call of `on_bus_read` or `on_bus_write`. -/
structure Hook where
  write : Bool
  paddr : PhysicalAddress
  size : U32
  deriving DecidableEq

/-- The test of a wide access for one RDRAM word of `width` bytes. -/
def fastRdram (rdramSize width : ℕ) (addr : U32) : Bool :=
  (physical addr).toNat < 0x03F00000 && rdramSize ≠ 0 &&
    (physical addr).toNat % rdramSize + (width - 1) < rdramSize

/-- The test of a wide access for one word of an SP memory at `base`. -/
def fastSp (base width : ℕ) (addr : U32) : Bool :=
  let p := (physical addr).toNat
  base ≤ p && p < base + 0x1000 && p - base + (width - 1) < 0x1000

def readHooks (size addr : U32) : List Hook := [⟨false, physical addr, size⟩]

def readHooks64 (rdramSize : ℕ) (addr : U32) : List Hook :=
  ⟨false, physical addr, 8⟩ ::
    (if fastRdram rdramSize 8 addr then [] else readHooks 4 addr ++ readHooks 4 (addr + 4))

def writeHooks8 (addr : U32) : List Hook := [⟨true, physical addr, 1⟩]

def writeHooks16 (rdramSize : ℕ) (addr : U32) : List Hook :=
  ⟨true, physical addr, 2⟩ ::
    (if isMmioRegion (physical addr) || fastRdram rdramSize 2 addr || fastSp 0x04000000 2 addr
      then []
      else writeHooks8 addr ++ writeHooks8 (addr + 1))

def writeHooks32 (rdramSize : ℕ) (addr : U32) : List Hook :=
  ⟨true, physical addr, 4⟩ ::
    (if isMmioRegion (physical addr) || fastRdram rdramSize 4 addr || fastSp 0x04000000 4 addr ||
        fastSp 0x04001000 4 addr
      then []
      else writeHooks8 addr ++ writeHooks8 (addr + 1) ++ writeHooks8 (addr + 2) ++
        writeHooks8 (addr + 3))

def writeHooks64 (rdramSize : ℕ) (addr : U32) : List Hook :=
  ⟨true, physical addr, 8⟩ ::
    (if fastRdram rdramSize 8 addr then []
      else writeHooks32 rdramSize addr ++ writeHooks32 rdramSize (addr + 4))

/-- The hooks of the typed access a mark stands for; there are no other sizes. -/
def hooks (rdramSize : ℕ) : Event → List Hook
  | .load p n => if n = 8 then readHooks64 rdramSize p else readHooks (BitVec.ofNat 32 n) p
  | .store p n =>
    if n = 1 then writeHooks8 p
    else if n = 2 then writeHooks16 rdramSize p
    else if n = 4 then writeHooks32 rdramSize p
    else if n = 8 then writeHooks64 rdramSize p
    else [⟨true, physical p, BitVec.ofNat 32 n⟩]
  | _ => []

end Bus

namespace DebugState

def onHook (d : DebugState) (h : Bus.Hook) : DebugState :=
  if h.write then d.onBusWrite h.paddr h.size else d.onBusRead h.paddr h.size

/-- An enabled watchpoint of the enabled debugger stands for a byte of the access. -/
def watches (d : DebugState) (h : Bus.Hook) : Bool :=
  d.enabled && d.watchpoints.any fun w =>
    w.enabled && (if h.write then w.onWrite else w.onRead) &&
      overlaps (phys29 h.paddr) h.size w.address

theorem onAccess_eq (select : Watchpoint → Bool) (paddr size : U32) (d : DebugState) :
    d.onAccess select paddr size =
      if d.enabled && d.watchpoints.any fun w =>
        w.enabled && select w && overlaps (phys29 paddr) size w.address
      then d.control Debugger.onWatchpoint else d := by
  unfold onAccess
  cases d.enabled with
  | false => rfl
  | true =>
    cases empty : d.watchpoints with
    | nil => rfl
    | cons w ws => rfl

theorem onHook_eq (d : DebugState) (h : Bus.Hook) :
    d.onHook h = if d.watches h then d.control Debugger.onWatchpoint else d := by
  unfold onHook watches onBusWrite onBusRead
  cases h.write with
  | false => exact onAccess_eq _ _ _ d
  | true => exact onAccess_eq _ _ _ d

end DebugState

namespace Cpu

/-- The call of the trace callback in a step, if it gets there. -/
def traceLine (s : Sys) : List TraceEntry :=
  match executedPc s with
  | some pc =>
    let insn := (fetch (s.onCpu fun c => { c with inDelaySlot := c.branchPending }) pc).1
    [{ cycle := s.cpu.cycles, pc := pc, insn := insn, disasm := disassemble insn }]
  | none => []

end Cpu

end N64
