import N64Emu.State
import N64Emu.Insn
import N64Emu.Loops
import Mathlib.Data.List.FinRange

/-!
# The RSP vector unit

The computational COP2 instructions, lane by lane. Integers stand for the
signed temporaries, which never overflow their 64 bits.
-/

set_option autoImplicit false

namespace N64.RspVector

open Words Loops

def kAccumulatorModulus : ℤ := 2 ^ 48
def kAccumulatorMask : U64 := 0xFFFFFFFFFFFF
def kAccumulatorSign : U64 := 0x800000000000

def kElementSelect : List (List (Fin 8)) := [
  [0, 1, 2, 3, 4, 5, 6, 7],
  [0, 1, 2, 3, 4, 5, 6, 7],
  [0, 0, 2, 2, 4, 4, 6, 6],
  [1, 1, 3, 3, 5, 5, 7, 7],
  [0, 0, 0, 0, 4, 4, 4, 4],
  [1, 1, 1, 1, 5, 5, 5, 5],
  [2, 2, 2, 2, 6, 6, 6, 6],
  [3, 3, 3, 3, 7, 7, 7, 7],
  [0, 0, 0, 0, 0, 0, 0, 0],
  [1, 1, 1, 1, 1, 1, 1, 1],
  [2, 2, 2, 2, 2, 2, 2, 2],
  [3, 3, 3, 3, 3, 3, 3, 3],
  [4, 4, 4, 4, 4, 4, 4, 4],
  [5, 5, 5, 5, 5, 5, 5, 5],
  [6, 6, 6, 6, 6, 6, 6, 6],
  [7, 7, 7, 7, 7, 7, 7, 7]]

def elementSelect (element : BitVec 4) (lane : Fin 8) : Fin 8 :=
  (kElementSelect.getD element.toNat []).getD lane.val 0

/-- A lane by its number, the index the lane arrays are read at. -/
def laneAt (number : ℕ) : Fin 8 := Fin.ofNat 8 number

def signedLane (value : U16) : ℤ := value.toInt

def laneBits (value : ℤ) : U16 := BitVec.ofInt 16 value

def fromAccumulatorBits (raw : U64) : ℤ :=
  let raw := raw &&& kAccumulatorMask
  if raw &&& kAccumulatorSign = 0 then (raw.toNat : ℤ) else -(kAccumulatorModulus - raw.toNat)

def wrapAccumulator (value : ℤ) : ℤ := fromAccumulatorBits (BitVec.ofInt 64 value)

def replaceAccumulatorLow (acc : ℤ) (low : U16) : ℤ :=
  fromAccumulatorBits
    ((BitVec.ofInt 64 acc &&& kAccumulatorMask &&& ~~~0xFFFF#64) ||| low.setWidth 64)

def accumulatorShift16 (acc : ℤ) : ℤ :=
  if acc ≥ 0 then acc / 0x10000 else -((-acc + 0xFFFF) / 0x10000)

def arithmeticShift1 (value : ℤ) : ℤ :=
  if value ≥ 0 then value / 2 else -((-value + 1) / 2)

def replaceAccumulatorUpper (acc : ℤ) (upper : U32) : ℤ :=
  fromAccumulatorBits ((upper.setWidth 64 <<< 16) ||| (BitVec.ofInt 64 acc &&& 0xFFFF#64))

def clamp (value low high : ℤ) : ℤ :=
  if value < low then low else if high < value then high else value

def signedClamp (value : ℤ) : U16 := laneBits (clamp value (-32768) 32767)

def signedAccumulatorClamp (acc : ℤ) : U16 := signedClamp (accumulatorShift16 acc)

def unsignedAccumulatorClamp (acc : ℤ) : U16 :=
  laneBits (clamp (accumulatorShift16 acc) 0 0xFFFF)

def accumulatorLowClamp (acc : ℤ) : U16 :=
  let middle := accumulatorShift16 acc
  if middle > 32767 then 0xFFFF else if middle < -32768 then 0 else laneBits acc

def flagIndex (lane : Fin 8) (high : Bool) : ℕ := lane.val + if high then 8 else 0

def flag (value : U16) (lane : Fin 8) (high : Bool) : Bool := value.getLsbD (flagIndex lane high)

def setFlag (value : U16) (lane : Fin 8) (enabled high : Bool) : U16 :=
  let mask := 1#16 <<< flagIndex lane high
  if enabled then value ||| mask else value &&& ~~~mask

/-- The locals of `integer_square_root`. -/
structure SquareRoot where
  value : U64
  result : U64 := 0
  bit : U64 := 1#64 <<< 62

def squareRootStep (t : SquareRoot) : SquareRoot :=
  if t.result + t.bit ≤ t.value then
    { value := t.value - (t.result + t.bit)
      result := (t.result >>> 1) + t.bit
      bit := t.bit >>> 2 }
  else { t with result := t.result >>> 1, bit := t.bit >>> 2 }

def integerSquareRoot (value : U64) : U32 :=
  let t := whileDo (fun t : SquareRoot => t.value < t.bit)
    (fun t => { t with bit := t.bit >>> 2 }) 32 { value := value }
  (whileDo (fun t : SquareRoot => t.bit != 0) squareRootStep 32 t).result.setWidth 32

/-- `full`, before the table subtracts 0x10000. -/
def divisionFull (address : ℕ) : U32 :=
  let full : U32 :=
    if address < 512 then BitVec.ofNat 32 (2 ^ 26 / (address + 512))
    else
      let index := address - 512
      let fraction := index / 2
      let exponent := if index % 2 ≠ 0 then 42 else 41
      integerSquareRoot (BitVec.ofNat 64 (2 ^ exponent / (fraction + 256)))
  if 0x1FFFF < full then 0x1FFFF else full

def divisionRom (address : ℕ) : U16 := (divisionFull address - 0x10000).setWidth 16

/-- The argument and result are the bits of the source's `s32`. -/
def divisionEstimate (input : U32) (squareRoot doublePrecision : Bool) : U32 :=
  let negative := input.toInt < 0
  let magnitude :=
    if !doublePrecision then if negative then -input else input
    else if negative then if input.toInt ≥ -32768 then -input else ~~~input
    else input
  let shift : U32 :=
    if magnitude = 0 then if doublePrecision then 0 else 16 else magnitude.clz
  let normalized := if magnitude = 0 then magnitude else magnitude <<< shift.toNat
  let address := (normalized >>> 22) &&& 0x1FF
  let address := if squareRoot then (address &&& 0x1FE) ||| 0x200 ||| (shift &&& 1) else address
  let outputShift := shift ^^^ 31
  let outputShift := if squareRoot then outputShift >>> 1 else outputShift
  let output :=
    (0x40000000#32 ||| ((divisionRom address.toNat).setWidth 32 <<< 14)) >>> outputShift.toNat
  if input = 0 then 0x7FFFFFFF
  else if input.toInt = -32768 then 0xFFFF0000
  else if negative then ~~~output
  else output

abbrev Lanes := Fin 8 → U16

/-- The unit and the `result` array of `exec_vector`. -/
structure VectorStep where
  unit : VectorUnit
  result : Lanes := fun _ => 0

def forLanes (body : Fin 8 → VectorStep → VectorStep) (t : VectorStep) : VectorStep :=
  (List.finRange 8).foldl (fun t lane => body lane t) t

namespace VectorStep

def setResult (t : VectorStep) (lane : Fin 8) (v : U16) : VectorStep :=
  { t with result := Function.update t.result lane v }

def setAccumulator (t : VectorStep) (lane : Fin 8) (acc : ℤ) : VectorStep :=
  { t with unit.accumulator := Function.update t.unit.accumulator lane acc }

def setAccumulatorLow (t : VectorStep) (lane : Fin 8) (low : U16) : VectorStep :=
  t.setAccumulator lane (replaceAccumulatorLow (t.unit.accumulator lane) low)

/-- The lane's result, copied to the low accumulator. -/
def store (t : VectorStep) (lane : Fin 8) (v : U16) : VectorStep :=
  (t.setResult lane v).setAccumulatorLow lane v

def setVco (t : VectorStep) (lane : Fin 8) (enabled high : Bool) : VectorStep :=
  { t with unit.vco := setFlag t.unit.vco lane enabled high }

def setVcc (t : VectorStep) (lane : Fin 8) (enabled high : Bool) : VectorStep :=
  { t with unit.vcc := setFlag t.unit.vcc lane enabled high }

end VectorStep

/-- VRNDP and VRNDN. -/
def roundLane (function : ℕ) (vs : BitVec 5) (st : Lanes) (lane : Fin 8) (t : VectorStep) :
    VectorStep :=
  let value := signedLane (st lane) * if vs &&& 1 ≠ 0 then 0x10000 else 1
  let acc := t.unit.accumulator lane
  let add := if function = 0x02 then acc ≥ 0 else acc < 0
  let acc := if add then wrapAccumulator (acc + value) else acc
  (t.setAccumulator lane acc).setResult lane (signedAccumulatorClamp acc)

/-- VMULQ. -/
def mulqLane (ss st : Lanes) (lane : Fin 8) (t : VectorStep) : VectorStep :=
  let product := signedLane (ss lane) * signedLane (st lane)
  let product := if product < 0 then product + 31 else product
  (t.setAccumulator lane (wrapAccumulator (product * 0x10000))).setResult lane
    (signedClamp (arithmeticShift1 product) &&& 0xFFF0)

/-- VMACQ. -/
def macqLane (lane : Fin 8) (t : VectorStep) : VectorStep :=
  let raw := BitVec.ofInt 64 (t.unit.accumulator lane) &&& kAccumulatorMask
  let upper := (raw >>> 16).setWidth 32
  let upper :=
    if upper.toInt < -0x20 ∧ upper &&& 0x20 = 0 then upper + 0x20
    else if upper.toInt > 0x20 ∧ upper &&& 0x20 = 0 then upper - 0x20
    else upper
  (t.setAccumulator lane (replaceAccumulatorUpper (t.unit.accumulator lane) upper)).setResult lane
    (signedClamp (arithmeticShift1 upper.toInt) &&& 0xFFF0)

/-- The accumulator a multiply instruction computes before wrapping. -/
def multiply (function : ℕ) (s t : U16) (acc : ℤ) : ℤ :=
  let ss := signedLane s
  let st := signedLane t
  let us : ℤ := s.toNat
  let ut : ℤ := t.toNat
  match function with
  | 0x00 => ss * st * 2 + 0x8000
  | 0x01 => ss * st * 2 + 0x8000
  | 0x04 => us * ut / 0x10000
  | 0x05 => ss * ut
  | 0x06 => us * st
  | 0x07 => ss * st * 0x10000
  | 0x08 => acc + ss * st * 2
  | 0x09 => acc + ss * st * 2
  | 0x0C => acc + us * ut / 0x10000
  | 0x0D => acc + ss * ut
  | 0x0E => acc + us * st
  | 0x0F => acc + ss * st * 0x10000
  | _ => acc

def multiplyResult (function : ℕ) (acc : ℤ) : U16 :=
  match function with
  | 0x00 | 0x05 | 0x07 | 0x08 | 0x0D | 0x0F => signedAccumulatorClamp acc
  | 0x01 | 0x09 => unsignedAccumulatorClamp acc
  | _ => accumulatorLowClamp acc

/-- VMULF, VMULU, VMUDL, VMUDM, VMUDN, VMUDH and the accumulating forms. -/
def multiplyLane (function : ℕ) (ss st : Lanes) (lane : Fin 8) (t : VectorStep) : VectorStep :=
  let acc := wrapAccumulator (multiply function (ss lane) (st lane) (t.unit.accumulator lane))
  (t.setAccumulator lane acc).setResult lane (multiplyResult function acc)

/-- VADD. -/
def addLane (ss st : Lanes) (lane : Fin 8) (t : VectorStep) : VectorStep :=
  let carry := if flag t.unit.vco lane false then 1 else 0
  t.store lane (signedClamp (signedLane (ss lane) + signedLane (st lane) + carry))

/-- VSUB. -/
def subLane (ss st : Lanes) (lane : Fin 8) (t : VectorStep) : VectorStep :=
  let carry := if flag t.unit.vco lane false then 1 else 0
  t.store lane (signedClamp (signedLane (ss lane) - signedLane (st lane) - carry))

/-- VABS. -/
def absLane (ss st : Lanes) (lane : Fin 8) (t : VectorStep) : VectorStep :=
  let a := signedLane (ss lane)
  let b := signedLane (st lane)
  let arithmetic :=
    if a < 0 then if b = -32768 then 32767 else -b else if a > 0 then b else 0
  t.store lane (laneBits arithmetic)

/-- VADDC. -/
def addcLane (ss st : Lanes) (lane : Fin 8) (t : VectorStep) : VectorStep :=
  let sum := (ss lane).toNat + (st lane).toNat
  let t := t.setVco lane (sum > 0xFFFF) false
  let t := t.setVco lane false true
  t.store lane (BitVec.ofNat 16 sum)

/-- VSUBC. -/
def subcLane (ss st : Lanes) (lane : Fin 8) (t : VectorStep) : VectorStep :=
  let difference : ℤ := (ss lane).toNat - (st lane).toNat
  let t := t.setVco lane (difference < 0) false
  let t := t.setVco lane (ss lane ≠ st lane) true
  t.store lane (laneBits difference)

/-- VSAR: elements 8, 9 and 10 select the accumulator's high, middle and low. -/
def sarLane (element : BitVec 4) (lane : Fin 8) (t : VectorStep) : VectorStep :=
  let raw := BitVec.ofInt 64 (t.unit.accumulator lane) &&& kAccumulatorMask
  let e := element.toNat
  t.setResult lane (if 8 ≤ e ∧ e ≤ 10 then (raw >>> ((10 - e) * 16)).setWidth 16 else 0)

/-- VLT, VEQ, VNE and VGE. -/
def compareLane (function : ℕ) (ss st : Lanes) (lane : Fin 8) (t : VectorStep) : VectorStep :=
  let a := signedLane (ss lane)
  let b := signedLane (st lane)
  let ne := flag t.unit.vco lane true
  let carry := flag t.unit.vco lane false
  let condition : Bool :=
    match function with
    | 0x20 => a < b ∨ (a = b ∧ ne ∧ carry)
    | 0x21 => a = b ∧ !ne
    | 0x22 => a ≠ b ∨ ne
    | _ => a > b ∨ (a = b ∧ !(ne && carry))
  (t.setVcc lane condition false).store lane (if condition then ss lane else st lane)

/-- VCL. -/
def clLane (ss st : Lanes) (lane : Fin 8) (t : VectorStep) : VectorStep :=
  let sign := flag t.unit.vco lane false
  let equal := !flag t.unit.vco lane true
  let a := ss lane
  let b := st lane
  let adjusted := if sign then 0 - b else b
  let lowZero : Bool := a - adjusted == 0
  let unsignedZero : Bool := a.toNat + b.toNat < 0x10000
  let extended := t.unit.vce.getLsbD lane.val
  let extendedLow :=
    (lowZero && unsignedZero && !extended) || ((lowZero || unsignedZero) && extended)
  let low := if equal && sign then extendedLow else flag t.unit.vcc lane false
  let high := if equal && !sign then adjusted ≤ a else flag t.unit.vcc lane true
  let t := t.setVcc lane low false
  let t := t.setVcc lane high true
  t.store lane (if (if sign then low else high) then adjusted else a)

/-- VCH. -/
def chLane (ss st : Lanes) (lane : Fin 8) (t : VectorStep) : VectorStep :=
  let a := signedLane (ss lane)
  let b := signedLane (st lane)
  let sign : Bool := (ss lane ^^^ st lane) &&& 0x8000 != 0
  let corner : Bool := b = -32768
  let bits := if sign then ~~~st lane else st lane
  let extension : Bool := sign && a = signedLane bits
  let bits := if sign && !corner then bits + 1 else bits
  let equal : Bool := (a = signedLane bits && !corner) || extension
  let low : Bool := if sign then signedLane (bits - ss lane) ≥ 0 else b < 0
  let high : Bool := (if sign then -1 else a) ≥ b
  let t := t.setResult lane (if (if sign then low else high) then bits else ss lane)
  let t := t.setVcc lane low false
  let t := t.setVcc lane high true
  let t := t.setVco lane sign false
  let t := t.setVco lane (!equal) true
  let t := if extension then { t with unit.vce := t.unit.vce ||| (1#8 <<< lane.val) } else t
  t.setAccumulatorLow lane (t.result lane)

/-- VCR. -/
def crLane (ss st : Lanes) (lane : Fin 8) (t : VectorStep) : VectorStep :=
  let b := signedLane (st lane)
  let sign : Bool := (ss lane ^^^ st lane) &&& 0x8000 != 0
  let signMask : U16 := if sign then 0xFFFF else 0
  let low : Bool := b ≤ signedLane (~~~(ss lane &&& signMask))
  let high : Bool := signedLane (ss lane ||| signMask) ≥ b
  let t := t.setResult lane (if (if sign then low else high) then st lane ^^^ signMask else ss lane)
  let t := t.setVcc lane low false
  let t := t.setVcc lane high true
  t.setAccumulatorLow lane (t.result lane)

/-- VMRG. -/
def mergeLane (ss st : Lanes) (lane : Fin 8) (t : VectorStep) : VectorStep :=
  t.store lane (if flag t.unit.vcc lane false then ss lane else st lane)

/-- VAND, VNAND, VOR, VNOR, VXOR and VNXOR. -/
def logicLane (function : ℕ) (ss st : Lanes) (lane : Fin 8) (t : VectorStep) : VectorStep :=
  t.store lane <|
    match function with
    | 0x28 => ss lane &&& st lane
    | 0x29 => ~~~(ss lane &&& st lane)
    | 0x2A => ss lane ||| st lane
    | 0x2B => ~~~(ss lane ||| st lane)
    | 0x2C => ss lane ^^^ st lane
    | _ => ~~~(ss lane ^^^ st lane)

/-- VRCP, VRCPL, VRCPH, VMOV, VRSQ, VRSQL and VRSQH. -/
def divide (function : ℕ) (element : BitVec 4) (vs vt vd : BitVec 5) (st : Lanes)
    (v : VectorUnit) : VectorStep :=
  let input := v.vpr vt (laneAt element.toNat)
  let dest : Fin 8 := laneAt vs.toNat
  let t := forLanes (fun lane t => t.setAccumulatorLow lane (st lane))
    { unit := v, result := v.vpr vd }
  if function = 0x33 then t.setResult dest (st dest)
  else if function = 0x32 ∨ function = 0x36 then
    let t := t.setResult dest ((t.unit.divOut >>> 16).setWidth 16)
    { t with
      unit.divIn := input.setWidth 32 <<< 16
      unit.divHighPending := true }
  else
    let divIn :=
      if (function = 0x31 ∨ function = 0x35) ∧ t.unit.divHighPending then
        t.unit.divIn ||| input.setWidth 32
      else input.signExtend 32
    let squareRoot : Bool := function = 0x34 ∨ function = 0x35
    let divOut := divisionEstimate divIn squareRoot t.unit.divHighPending
    let t := { t with unit.divIn := divIn, unit.divOut := divOut, unit.divHighPending := false }
    t.setResult dest (divOut.setWidth 16)

/-- The unit and result after the function's switch, or `none` when nothing
is written back. -/
def vectorFunction (function : ℕ) (element : BitVec 4) (vs vt vd : BitVec 5) (ss st : Lanes)
    (v : VectorUnit) : Option VectorStep :=
  let t : VectorStep := { unit := v }
  let clearVcc (t : VectorStep) : VectorStep := { t with unit.vcc := 0 }
  let clearCarry (t : VectorStep) : VectorStep := { t with unit.vco := 0 }
  let clearFlags (t : VectorStep) : VectorStep := { t with unit.vco := 0, unit.vce := 0 }
  match function with
  | 0x02 | 0x0A => some (forLanes (roundLane function vs st) t)
  | 0x03 => some (forLanes (mulqLane ss st) t)
  | 0x0B => some (forLanes macqLane t)
  | 0x00 | 0x01 | 0x04 | 0x05 | 0x06 | 0x07 | 0x08 | 0x09 | 0x0C | 0x0D | 0x0E | 0x0F =>
    some (forLanes (multiplyLane function ss st) t)
  | 0x10 => some (clearCarry (forLanes (addLane ss st) t))
  | 0x11 => some (clearCarry (forLanes (subLane ss st) t))
  | 0x13 => some (forLanes (absLane ss st) t)
  | 0x14 => some (forLanes (addcLane ss st) t)
  | 0x15 => some (forLanes (subcLane ss st) t)
  | 0x1D => some (forLanes (sarLane element) t)
  | 0x20 | 0x21 | 0x22 | 0x23 =>
    some (clearFlags (forLanes (compareLane function ss st) (clearVcc t)))
  | 0x24 => some (clearFlags (forLanes (clLane ss st) t))
  | 0x25 => some (forLanes (chLane ss st) (clearFlags (clearVcc t)))
  | 0x26 => some (clearFlags (forLanes (crLane ss st) (clearVcc t)))
  | 0x27 => some (forLanes (mergeLane ss st) t)
  | 0x28 | 0x29 | 0x2A | 0x2B | 0x2C | 0x2D => some (forLanes (logicLane function ss st) t)
  | 0x30 | 0x31 | 0x32 | 0x33 | 0x34 | 0x35 | 0x36 =>
    some (divide function element vs vt vd st v)
  | _ => none

def execVector (v : VectorUnit) (insn : U32) : VectorUnit :=
  let element : BitVec 4 := insn.extractLsb' 21 4
  let vt := Insn.rt insn
  let vs := Insn.rd insn
  let vd := Insn.sa insn
  let sourceT : Lanes := fun lane => v.vpr vt (elementSelect element lane)
  match vectorFunction (Insn.fn insn) element vs vt vd (v.vpr vs) sourceT v with
  | some t => { t.unit with vpr := Function.update t.unit.vpr vd t.result }
  | none => v

def vectorByte (v : VectorUnit) (reg : BitVec 5) (byte : ℕ) : U8 :=
  let value := v.vpr reg (laneAt (byte / 2))
  if byte % 2 = 0 then (value >>> 8).setWidth 8 else value.setWidth 8

def setVectorLane (v : VectorUnit) (reg : BitVec 5) (lane : Fin 8) (value : U16) : VectorUnit :=
  { v with vpr := Function.update v.vpr reg (Function.update (v.vpr reg) lane value) }

def setVectorByte (v : VectorUnit) (reg : BitVec 5) (byte : ℕ) (value : U8) : VectorUnit :=
  let lane := v.vpr reg (laneAt (byte / 2))
  setVectorLane v reg (laneAt (byte / 2))
    (if byte % 2 = 0 then (lane &&& 0x00FF) ||| (value.setWidth 16 <<< 8)
      else (lane &&& 0xFF00) ||| value.setWidth 16)

end N64.RspVector
