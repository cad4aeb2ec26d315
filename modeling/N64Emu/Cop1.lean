import N64Emu.CpuInteger
import Mathlib.Data.Rat.Floor

/-!
# The floating-point unit

Registers, FCR31 and the COP1 instructions. Host arithmetic and host floating
conversions are a parameter that returns a bit pattern and the IEEE flags it
raised; classification, comparison and conversion to integers are exact on the
bit patterns.
-/

set_option autoImplicit false

namespace N64

open Words Insn

/-- The flags `std::fetestexcept` reports. -/
structure HostFlags where
  invalid : Bool := false
  divByZero : Bool := false
  overflow : Bool := false
  underflow : Bool := false
  inexact : Bool := false
  deriving Inhabited

/-- Host results for a function code or a source, under a rounding mode. -/
structure HostFpu where
  arith32 : ℕ → U32 → U32 → U32 → U32 × HostFlags
  arith64 : ℕ → U64 → U64 → U32 → U64 × HostFlags
  f64ToF32 : U64 → U32 → U32 × HostFlags
  s32ToF32 : U32 → U32 → U32 × HostFlags
  s64ToF32 : U64 → U32 → U32 × HostFlags
  f32ToF64 : U32 → U32 → U64 × HostFlags
  s32ToF64 : U32 → U32 → U64 × HostFlags
  s64ToF64 : U64 → U32 → U64 × HostFlags
  deriving Inhabited

namespace Fpu

def kStatusFr : U32 := 1#32 <<< 26
def kFcr31RmMask : U32 := 0x00000003
def kFcr31FlagInexact : U32 := 1#32 <<< 2
def kFcr31FlagUnderflow : U32 := 1#32 <<< 3
def kFcr31FlagOverflow : U32 := 1#32 <<< 4
def kFcr31FlagDivZero : U32 := 1#32 <<< 5
def kFcr31FlagInvalid : U32 := 1#32 <<< 6
def kFcr31FlagMask : U32 := 0x0000007C
def kFcr31EnableMask : U32 := 0x00000F80
def kFcr31CauseMask : U32 := 0x0003F000
def kFcr31CauseUnimplemented : U32 := 1#32 <<< 17
def kFcr31Condition : U32 := 1#32 <<< 23
def kFcr31FlushSubnormals : U32 := 1#32 <<< 24
def kFcr31WritableMask : U32 := 0x0183FFFF
def kFcr0Implementation : U32 := 0x00000B00

/-- The masks and constants the source writes once for each width. -/
structure FloatFormat (w : ℕ) where
  expMask : BitVec w
  fracMask : BitVec w
  signalBit : BitVec w
  signBit : BitVec w
  canonicalNan : BitVec w
  infinity : BitVec w
  maxFinite : BitVec w
  minNormal : BitVec w
  fracBits : ℕ
  bias : ℕ

def single : FloatFormat 32 where
  expMask := 0x7F800000
  fracMask := 0x007FFFFF
  signalBit := 0x00400000
  signBit := 0x80000000
  canonicalNan := 0x7FBFFFFF
  infinity := 0x7F800000
  maxFinite := 0x7F7FFFFF
  minNormal := 0x00800000
  fracBits := 23
  bias := 127

def double : FloatFormat 64 where
  expMask := 0x7FF0000000000000
  fracMask := 0x000FFFFFFFFFFFFF
  signalBit := 0x0008000000000000
  signBit := 0x8000000000000000
  canonicalNan := 0x7FF7FFFFFFFFFFFF
  infinity := 0x7FF0000000000000
  maxFinite := 0x7FEFFFFFFFFFFFFF
  minNormal := 0x0010000000000000
  fracBits := 52
  bias := 1023

inductive InputIssue where
  | None
  | Invalid
  | Unimplemented
  deriving DecidableEq, Repr

section Format

variable {w : ℕ} (F : FloatFormat w)

def isNan (bits : BitVec w) : Bool := bits &&& F.expMask = F.expMask && bits &&& F.fracMask ≠ 0

def isSignalingNan (bits : BitVec w) : Bool := isNan F bits && bits &&& F.signalBit ≠ 0

def isSubnormal (bits : BitVec w) : Bool := bits &&& F.expMask = 0 && bits &&& F.fracMask ≠ 0

def isInf (bits : BitVec w) : Bool := bits &&& F.expMask = F.expMask && bits &&& F.fracMask = 0

def isFinite (bits : BitVec w) : Bool := bits &&& F.expMask ≠ F.expMask

/-- `value == 0`. -/
def isZero (bits : BitVec w) : Bool := bits &&& ~~~F.signBit = 0

/-- `value < 0`. -/
def isNegative (bits : BitVec w) : Bool :=
  bits &&& F.signBit ≠ 0 && !isZero F bits && !isNan F bits

def classifyComputationalOperand (bits : BitVec w) : InputIssue :=
  if isSignalingNan F bits then .Invalid
  else if isNan F bits || isSubnormal F bits then .Unimplemented
  else .None

def combineIssues (fs ft : InputIssue) : InputIssue :=
  if fs = .None ∨ ft = .Unimplemented then ft else fs

/-- The order of the source's `<` and `==` on operands that are not NaN. -/
def orderKey (bits : BitVec w) : ℤ :=
  let magnitude : ℤ := (bits &&& ~~~F.signBit).toNat
  if bits &&& F.signBit ≠ 0 then -magnitude else magnitude

def toRat (bits : BitVec w) : ℚ :=
  let exponent := ((bits &&& F.expMask) >>> F.fracBits).toNat
  let fraction := (bits &&& F.fracMask).toNat
  let mantissa := if exponent = 0 then fraction else 2 ^ F.fracBits + fraction
  let scale := if exponent = 0 then 1 else exponent
  let magnitude : ℚ :=
    if scale ≥ F.bias + F.fracBits then (mantissa * 2 ^ (scale - (F.bias + F.fracBits)) : ℕ)
    else (mantissa : ℚ) / (2 ^ (F.bias + F.fracBits - scale) : ℕ)
  if bits &&& F.signBit ≠ 0 then -magnitude else magnitude

/-- `ScopedFpEnvironment::flags`. -/
def environmentFlags (host : HostFlags) : U32 :=
  let result : U32 := 0
  let result := if host.invalid then result ||| kFcr31FlagInvalid else result
  let result := if host.divByZero then result ||| kFcr31FlagDivZero else result
  let result := if host.overflow then result ||| kFcr31FlagOverflow else result
  let result := if host.underflow then result ||| kFcr31FlagUnderflow else result
  let result := if host.inexact then result ||| kFcr31FlagInexact else result
  if result &&& kFcr31FlagOverflow ≠ 0 then result ||| kFcr31FlagInexact else result

def calculateArithmetic (arith : ℕ → BitVec w → BitVec w → U32 → BitVec w × HostFlags)
    (function : ℕ) (left right : BitVec w) (rm : U32) : BitVec w × U32 :=
  let (result, host) := arith function left right rm
  let flags := environmentFlags host
  let flags :=
    if function = 0x03 ∧ isZero F right then
      if isZero F left ∨ isNan F left then (flags ||| kFcr31FlagInvalid) &&& ~~~kFcr31FlagDivZero
      else if isFinite F left then flags ||| kFcr31FlagDivZero
      else flags
    else flags
  let flags := if function = 0x04 ∧ isNegative F left then flags ||| kFcr31FlagInvalid else flags
  let flags :=
    if function = 0x02 ∧ ((isInf F left ∧ isZero F right) ∨ (isInf F right ∧ isZero F left)) then
      flags ||| kFcr31FlagInvalid
    else flags
  let flags :=
    if isInf F result ∧ isFinite F left ∧ isFinite F right ∧
        (function ≠ 0x03 ∨ !isZero F right) then
      flags ||| (kFcr31FlagOverflow ||| kFcr31FlagInexact)
    else flags
  (result, flags)

/-- The flags of `convert_floating`, whose source is finite or not. -/
def convertFloating (sourceFinite : Bool) (r : BitVec w × HostFlags) : BitVec w × U32 :=
  let flags := environmentFlags r.2
  (r.1, if sourceFinite ∧ isInf F r.1 then flags ||| (kFcr31FlagOverflow ||| kFcr31FlagInexact)
    else flags)

def roundedInteger (value : ℚ) (rm : U32) : ℤ :=
  match (rm &&& kFcr31RmMask).toNat with
  | 1 => if value < 0 then ⌈value⌉ else ⌊value⌋
  | 2 => ⌈value⌉
  | 3 => ⌊value⌋
  | _ =>
    let lower := ⌊value⌋
    let fraction := value - lower
    if fraction < 1 / 2 then lower
    else if fraction > 1 / 2 then lower + 1
    else if lower % 2 = 0 then lower else lower + 1

/-- `convert_to_integer` to an integer of `bits` bits. -/
def convertToInteger (bits : ℕ) (source : BitVec w) (rm : U32) : BitVec bits × U32 :=
  let minimum : ℤ := -2 ^ (bits - 1)
  if !isFinite F source then (BitVec.ofInt bits minimum, kFcr31FlagInvalid)
  else
    let value := toRat F source
    let rounded := roundedInteger value rm
    if rounded < minimum ∨ rounded ≥ -minimum then
      (BitVec.ofInt bits minimum, kFcr31FlagInvalid)
    else (BitVec.ofInt bits rounded, if (rounded : ℚ) ≠ value then kFcr31FlagInexact else 0)

end Format

inductive Fmt where
  | Single | Double | Word | Long
  deriving DecidableEq, Repr

inductive Cop1Rs where
  | MFC1 | DMFC1 | CFC1 | MTC1 | DMTC1 | CTC1 | BC1
  | format (f : Fmt)
  deriving DecidableEq, Repr

def Cop1Rs.ofCode : ℕ → Option Cop1Rs
  | 0x00 => some .MFC1
  | 0x01 => some .DMFC1
  | 0x02 => some .CFC1
  | 0x04 => some .MTC1
  | 0x05 => some .DMTC1
  | 0x06 => some .CTC1
  | 0x08 => some .BC1
  | 0x10 => some (.format .Single)
  | 0x11 => some (.format .Double)
  | 0x14 => some (.format .Word)
  | 0x15 => some (.format .Long)
  | _ => none

end Fpu

open Fpu

namespace Cpu

def fpuFrMode (c : Cpu) : Bool := c.status &&& kStatusFr ≠ 0

def readFprWord (c : Cpu) (index : BitVec 5) : U32 := (c.fpr index).setWidth 32

def writeFprWord (c : Cpu) (index : BitVec 5) (value : U32) : Cpu :=
  let reg := (c.fpr index &&& 0xFFFFFFFF00000000) ||| value.setWidth 64
  { c with fpr := Function.update c.fpr index reg }

def readFprDouble (c : Cpu) (index : BitVec 5) : Option U64 :=
  if c.fpuFrMode then some (c.fpr index)
  else if index &&& 1 ≠ 0 then none
  else some ((c.readFprWord index).setWidth 64 ||| ((c.readFprWord (index + 1)).setWidth 64 <<< 32))

def writeFprDouble (c : Cpu) (index : BitVec 5) (value : U64) : Option Cpu :=
  if c.fpuFrMode then some { c with fpr := Function.update c.fpr index value }
  else if index &&& 1 ≠ 0 then none
  else
    some ((c.writeFprWord index (value.setWidth 32)).writeFprWord (index + 1)
      ((value >>> 32).setWidth 32))

/-- `(void)write_fpr_double(index, value)`. -/
def setFprDouble (c : Cpu) (index : BitVec 5) (value : U64) : Cpu :=
  (c.writeFprDouble index value).getD c

def raiseFpuUnimplemented (c : Cpu) : Cpu :=
  { c with fcr31 := (c.fcr31 &&& ~~~kFcr31CauseMask) ||| kFcr31CauseUnimplemented }.raise
    ExcCode.FPE

/-- `finish_fpu_operation`, with what runs when it returns true. -/
def finishFpuOperation (c : Cpu) (flags : U32) (k : Cpu → Cpu) : Cpu :=
  let flags := flags &&& kFcr31FlagMask
  let c := { c with fcr31 := (c.fcr31 &&& ~~~kFcr31CauseMask) ||| (flags <<< 10) }
  let enabled := (c.fcr31 &&& kFcr31EnableMask) >>> 5
  if flags &&& enabled ≠ 0 then c.raise ExcCode.FPE
  else k { c with fcr31 := c.fcr31 ||| flags }

def roundingMode (c : Cpu) : U32 := c.fcr31 &&& kFcr31RmMask

/-- The raw result and flags after the invalid, overflow and underflow rules of
`handle_single_result` and `handle_double_result`; `none` is unimplemented. -/
def roundResult {w : ℕ} (F : FloatFormat w) (c : Cpu) (raw : BitVec w) (flags : U32) :
    Option (BitVec w × U32) :=
  let rm := c.roundingMode
  let raw := if flags &&& kFcr31FlagInvalid ≠ 0 then F.canonicalNan else raw
  let raw :=
    if flags &&& kFcr31FlagOverflow ≠ 0 then
      let sign := raw &&& F.signBit
      let towardInfinity : Bool := rm = 0 ∨ (rm = 2 ∧ sign = 0) ∨ (rm = 3 ∧ sign ≠ 0)
      sign ||| (if towardInfinity then F.infinity else F.maxFinite)
    else raw
  if flags &&& kFcr31FlagUnderflow ≠ 0 ∨ isSubnormal F raw then
    let flush : Bool := c.fcr31 &&& kFcr31FlushSubnormals ≠ 0
    let underflowEnabled : Bool := c.fcr31 &&& ((1#32 <<< 8) ||| (1#32 <<< 7)) ≠ 0
    if !flush ∨ underflowEnabled then none
    else
      let sign := raw &&& F.signBit
      let towardMinimumNormal : Bool := (rm = 2 ∧ sign = 0) ∨ (rm = 3 ∧ sign ≠ 0)
      some (sign ||| (if towardMinimumNormal then F.minNormal else 0),
        flags ||| (kFcr31FlagUnderflow ||| kFcr31FlagInexact))
  else some (raw, flags)

def handleSingleResult (c : Cpu) (fd : BitVec 5) (r : U32 × U32) : Cpu :=
  match roundResult single c r.1 r.2 with
  | none => c.raiseFpuUnimplemented
  | some (raw, flags) => c.finishFpuOperation flags (·.writeFprWord fd raw)

def handleDoubleResult (c : Cpu) (fd : BitVec 5) (r : U64 × U32) : Cpu :=
  match roundResult double c r.1 r.2 with
  | none => c.raiseFpuUnimplemented
  | some (raw, flags) =>
    if !c.fpuFrMode ∧ fd &&& 1 ≠ 0 then c.raiseFpuUnimplemented
    else c.finishFpuOperation flags (·.setFprDouble fd raw)

def arithmeticSingle (fp : HostFpu) (c : Cpu) (function : ℕ) (fs ft fd : BitVec 5) : Cpu :=
  let fsRaw := c.readFprWord fs
  let ftRaw := c.readFprWord ft
  if function = 0x06 then c.writeFprWord fd fsRaw
  else
    let issue := classifyComputationalOperand single fsRaw
    let issue :=
      if function ≤ 0x03 then combineIssues issue (classifyComputationalOperand single ftRaw)
      else issue
    match issue with
    | .Unimplemented => c.raiseFpuUnimplemented
    | .Invalid => c.handleSingleResult fd (single.canonicalNan, kFcr31FlagInvalid)
    | .None =>
      if function = 0x05 then c.finishFpuOperation 0 (·.writeFprWord fd (fsRaw &&& 0x7FFFFFFF))
      else if function = 0x07 then
        c.finishFpuOperation 0 (·.writeFprWord fd (fsRaw ^^^ 0x80000000))
      else
        c.handleSingleResult fd
          (calculateArithmetic single fp.arith32 function fsRaw ftRaw c.roundingMode)

/-- The double operands; a one-operand function reads `ft` as zero. -/
def doubleOperands (c : Cpu) (function : ℕ) (fs ft : BitVec 5) : Option (U64 × U64) :=
  match c.readFprDouble fs with
  | none => none
  | some fsRaw =>
    if function ≤ 0x03 then (c.readFprDouble ft).map fun ftRaw => (fsRaw, ftRaw)
    else some (fsRaw, 0)

def arithmeticDouble (fp : HostFpu) (c : Cpu) (function : ℕ) (fs ft fd : BitVec 5) : Cpu :=
  match c.doubleOperands function fs ft with
  | none => c.raiseFpuUnimplemented
  | some (fsRaw, ftRaw) =>
    if function = 0x06 then (c.writeFprDouble fd fsRaw).getD c.raiseFpuUnimplemented
    else
      let issue := classifyComputationalOperand double fsRaw
      let issue :=
        if function ≤ 0x03 then combineIssues issue (classifyComputationalOperand double ftRaw)
        else issue
      match issue with
      | .Unimplemented => c.raiseFpuUnimplemented
      | .Invalid => c.handleDoubleResult fd (double.canonicalNan, kFcr31FlagInvalid)
      | .None =>
        if function = 0x05 then c.handleDoubleResult fd (fsRaw &&& 0x7FFFFFFFFFFFFFFF, 0)
        else if function = 0x07 then c.handleDoubleResult fd (fsRaw ^^^ 0x8000000000000000, 0)
        else
          c.handleDoubleResult fd
            (calculateArithmetic double fp.arith64 function fsRaw ftRaw c.roundingMode)

def setCondition (c : Cpu) (result : Bool) : Cpu :=
  { c with fcr31 :=
      if result then c.fcr31 ||| kFcr31Condition else c.fcr31 &&& ~~~kFcr31Condition }

def compareOperands {w : ℕ} (F : FloatFormat w) (c : Cpu) (conditionCode : ℕ)
    (fsRaw ftRaw : BitVec w) : Cpu :=
  let unordered := isNan F fsRaw || isNan F ftRaw
  let invalid := isSignalingNan F fsRaw || isSignalingNan F ftRaw ||
    (unordered && conditionCode.testBit 3)
  let equal := !unordered && orderKey F fsRaw = orderKey F ftRaw
  let less := !unordered && orderKey F fsRaw < orderKey F ftRaw
  c.finishFpuOperation (if invalid then kFcr31FlagInvalid else 0)
    (·.setCondition ((unordered && conditionCode.testBit 0) || (equal && conditionCode.testBit 1) ||
      (less && conditionCode.testBit 2)))

def compareDouble (c : Cpu) (conditionCode : ℕ) (fs ft : BitVec 5) : Cpu :=
  match c.readFprDouble fs, c.readFprDouble ft with
  | some fsRaw, some ftRaw => compareOperands double c conditionCode fsRaw ftRaw
  | _, _ => c.raiseFpuUnimplemented

def isIntegerConversion (function : ℕ) : Bool :=
  (0x08 ≤ function && function ≤ 0x0F) || function = 0x24 || function = 0x25

def convertInteger {w : ℕ} (F : FloatFormat w) (c : Cpu) (function : ℕ) (raw : BitVec w)
    (fd : BitVec 5) : Cpu :=
  let issue := classifyComputationalOperand F raw
  let rm : U32 :=
    if 0x08 ≤ function ∧ function ≤ 0x0F then BitVec.ofNat 32 ((function - 0x08) % 4)
    else c.roundingMode
  let toWord := (0x0C ≤ function ∧ function ≤ 0x0F) ∨ function = 0x24
  if issue = .Unimplemented then c.raiseFpuUnimplemented
  else if toWord then
    let r : U32 × U32 :=
      if issue = .Invalid then (0x80000000, kFcr31FlagInvalid) else convertToInteger F 32 raw rm
    c.finishFpuOperation r.2 (·.writeFprWord fd r.1)
  else if !c.fpuFrMode ∧ fd &&& 1 ≠ 0 then c.raiseFpuUnimplemented
  else
    let r : U64 × U32 :=
      if issue = .Invalid then (0x8000000000000000, kFcr31FlagInvalid)
      else convertToInteger F 64 raw rm
    c.finishFpuOperation r.2 (·.setFprDouble fd r.1)

def integerConversion (c : Cpu) (format : Fmt) (function : ℕ) (fs fd : BitVec 5) : Cpu :=
  match format with
  | .Single => convertInteger single c function (c.readFprWord fs) fd
  | .Double =>
    match c.readFprDouble fs with
    | none => c.raiseFpuUnimplemented
    | some raw => convertInteger double c function raw fd
  | .Word | .Long => c.raiseFpuUnimplemented

/-- CVT.S. -/
def convertSingle (fp : HostFpu) (c : Cpu) (format : Fmt) (fs fd : BitVec 5) : Cpu :=
  match format with
  | .Double =>
    match c.readFprDouble fs with
    | none => c.raiseFpuUnimplemented
    | some raw =>
      match classifyComputationalOperand double raw with
      | .Unimplemented => c.raiseFpuUnimplemented
      | .Invalid => c.handleSingleResult fd (single.canonicalNan, kFcr31FlagInvalid)
      | .None =>
        c.handleSingleResult fd
          (convertFloating single (isFinite double raw) (fp.f64ToF32 raw c.roundingMode))
  | .Word =>
    c.handleSingleResult fd
      (convertFloating single true (fp.s32ToF32 (c.readFprWord fs) c.roundingMode))
  | .Long =>
    match c.readFprDouble fs with
    | none => c.raiseFpuUnimplemented
    | some raw =>
      c.handleSingleResult fd (convertFloating single true (fp.s64ToF32 raw c.roundingMode))
  | .Single => c.raiseFpuUnimplemented

/-- CVT.D. -/
def convertDouble (fp : HostFpu) (c : Cpu) (format : Fmt) (fs fd : BitVec 5) : Cpu :=
  if !c.fpuFrMode ∧ fd &&& 1 ≠ 0 then c.raiseFpuUnimplemented
  else
    match format with
    | .Single =>
      let raw := c.readFprWord fs
      match classifyComputationalOperand single raw with
      | .Unimplemented => c.raiseFpuUnimplemented
      | .Invalid => c.handleDoubleResult fd (double.canonicalNan, kFcr31FlagInvalid)
      | .None =>
        c.handleDoubleResult fd
          (convertFloating double (isFinite single raw) (fp.f32ToF64 raw c.roundingMode))
    | .Word =>
      c.handleDoubleResult fd
        (convertFloating double true (fp.s32ToF64 (c.readFprWord fs) c.roundingMode))
    | .Long =>
      match c.readFprDouble fs with
      | none => c.raiseFpuUnimplemented
      | some raw =>
        c.handleDoubleResult fd (convertFloating double true (fp.s64ToF64 raw c.roundingMode))
    | .Double => c.raiseFpuUnimplemented

def execCop1Format (fp : HostFpu) (c : Cpu) (format : Fmt) (insn : U32) : Cpu :=
  let ft := rt insn
  let fs := rd insn
  let fd := sa insn
  let function := fn insn
  let floating : Bool := format = .Single ∨ format = .Double
  if function ≤ 0x07 ∧ floating then
    if format = .Single then arithmeticSingle fp c function fs ft fd
    else arithmeticDouble fp c function fs ft fd
  else if 0x30 ≤ function ∧ floating then
    if format = .Single then
      compareOperands single c (function - 0x30) (c.readFprWord fs) (c.readFprWord ft)
    else c.compareDouble (function - 0x30) fs ft
  else if isIntegerConversion function then c.integerConversion format function fs fd
  else if function = 0x20 then convertSingle fp c format fs fd
  else if function = 0x21 then convertDouble fp c format fs fd
  else c.raiseFpuUnimplemented

/-- CTC1 to FCR31. -/
def writeFcr31 (c : Cpu) (value : U32) : Cpu :=
  let c : Cpu := { c with fcr31 := value &&& kFcr31WritableMask }
  let causes : U32 := (c.fcr31 >>> 10) &&& kFcr31FlagMask
  let enables : U32 := (c.fcr31 >>> 5) &&& kFcr31FlagMask
  if c.fcr31 &&& kFcr31CauseUnimplemented ≠ 0 ∨ causes &&& enables ≠ 0 then c.raise ExcCode.FPE
  else c

/-- BC1F, BC1T, BC1FL and BC1TL. -/
def branchCop1 (c : Cpu) (cop1Rt : ℕ) (insn : U32) : Cpu :=
  if cop1Rt > 3 then c.raiseFpuUnimplemented
  else
    let condition : Bool := c.fcr31 &&& kFcr31Condition ≠ 0
    let branchOnTrue := cop1Rt.testBit 0
    if cop1Rt.testBit 1 then c.branchLikelyIf (condition == branchOnTrue) insn
    else c.branchIf (condition == branchOnTrue) insn

def execCop1 (fp : HostFpu) (c : Cpu) (insn : U32) : Cpu :=
  let cop1Rt := rt insn
  let fs := rd insn
  if !c.coprocessorUsable 1 then c.raiseUnusable 1
  else
    match Cop1Rs.ofCode (rs insn).toNat with
    | some .MFC1 => c.writeGpr cop1Rt (sext32 (c.readFprWord fs))
    | some .DMFC1 =>
      match c.readFprDouble fs with
      | none => c.raiseFpuUnimplemented
      | some value => c.writeGpr cop1Rt value
    | some .CFC1 =>
      let value := if fs = 31 then c.fcr31 else if fs = 0 then kFcr0Implementation else 0
      c.writeGpr cop1Rt (sext32 value)
    | some .MTC1 => c.writeFprWord fs ((c.gpr cop1Rt).setWidth 32)
    | some .DMTC1 => (c.writeFprDouble fs (c.gpr cop1Rt)).getD c.raiseFpuUnimplemented
    | some .CTC1 => if fs = 31 then c.writeFcr31 ((c.gpr cop1Rt).setWidth 32) else c
    | some .BC1 => c.branchCop1 cop1Rt.toNat insn
    | some (.format f) => execCop1Format fp c f insn
    | none => c.raiseFpuUnimplemented

end Cpu

end N64
