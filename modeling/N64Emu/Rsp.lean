import N64Emu.RspVector
import N64Emu.BusRead
import N64Emu.Rdp

/-!
# The RSP

The scalar interpreter. Stores reach the RSP's DMEM and the bus copy; MTC0
reaches the SP and DP registers. The break callback is not set anywhere.
-/

set_option autoImplicit false

namespace N64.Rsp

open Words Loops Insn

def reset (_ : Rsp) : Rsp := {}

def writeGpr (r : Rsp) (idx : BitVec 5) (value : U32) : Rsp :=
  if idx ≠ 0 then { r with gpr := Function.update r.gpr idx value } else r

def fetch (r : Rsp) (pc : U32) : U32 :=
  let off := (pc &&& kImemMask).toNat
  join32 (r.imem off) (r.imem (off + 1)) (r.imem (off + 2)) (r.imem (off + 3))

def dmemOff (addr : U32) : ℕ := (addr &&& 0xFFF).toNat

def loadByte (r : Rsp) (addr : U32) : U32 := (r.dmem (dmemOff addr)).setWidth 32

def loadHalf (r : Rsp) (addr : U32) : U32 :=
  let a := addr &&& 0xFFF
  (join16 (r.dmem a.toNat) (r.dmem (dmemOff (a + 1)))).setWidth 32

def loadWord (r : Rsp) (addr : U32) : U32 :=
  let a := addr &&& 0xFFF
  join32 (r.dmem a.toNat) (r.dmem (dmemOff (a + 1))) (r.dmem (dmemOff (a + 2)))
    (r.dmem (dmemOff (a + 3)))

/-- `bus_->sp_dmem()[off] = dmem_[off]` and its notification. -/
def mirrorDmem (s : Sys) (off : U32) : Sys :=
  (s.pokeSpDmem off.toNat (s.rsp.dmem off.toNat)).notifyMemoryWrite (0x04000000 + off) 1

def storeByte (s : Sys) (addr : U32) (v : U8) : Sys :=
  let a := addr &&& 0xFFF
  mirrorDmem (s.pokeRspDmem a.toNat v) a

def storeHalf (s : Sys) (addr : U32) (v : U16) : Sys :=
  let a := addr &&& 0xFFF
  let a1 := (a + 1) &&& 0xFFF
  let s := s.pokeRspDmem a.toNat ((v >>> 8).setWidth 8)
  let s := s.pokeRspDmem a1.toNat (v.setWidth 8)
  let s := s.pokeSpDmem a.toNat (s.rsp.dmem a.toNat)
  let s := s.pokeSpDmem a1.toNat (s.rsp.dmem a1.toNat)
  let s := s.notifyMemoryWrite (0x04000000 + a) 1
  s.notifyMemoryWrite (0x04000000 + a1) 1

def storeWord (s : Sys) (addr : U32) (v : U32) : Sys :=
  let a := addr &&& 0xFFF
  let s := s.pokeRspDmem a.toNat (byteAt v 24)
  let s := s.pokeRspDmem (dmemOff (a + 1)) (byteAt v 16)
  let s := s.pokeRspDmem (dmemOff (a + 2)) (byteAt v 8)
  let s := s.pokeRspDmem (dmemOff (a + 3)) (byteAt v 0)
  upTo (fun i s => mirrorDmem s ((a + BitVec.ofNat 32 i) &&& 0xFFF)) 4 s

def branchAbs (r : Rsp) (target : U32) : Rsp :=
  { r with nextPc := target &&& kImemMask, branchPending := true }

def branchRel (r : Rsp) (offImm : U32) : Rsp :=
  let off := offImm <<< 2
  { r with nextPc := (r.pc + 4 + off) &&& kImemMask, branchPending := true }

def link (r : Rsp) (reg : BitVec 5) : Rsp := writeGpr r reg ((r.pc + 8) &&& kImemMask)

def doBreak (s : Sys) : Sys :=
  let s := { s with rsp.broke := true, rsp.halted := true, rsp.branchPending := false }
  let s := s.pushMemToBus
  SpRegs.notifyBreak s s.rsp.intrOnBreak

def boolWord (b : Bool) : U32 := if b then 1 else 0

/-- The SPECIAL functions other than BREAK. -/
def execSpecialReg (r : Rsp) (insn : U32) : Rsp :=
  let vs := r.gpr (rs insn)
  let vt := r.gpr (rt insn)
  match fn insn with
  | 0x00 => writeGpr r (rd insn) (vt <<< (sa insn).toNat)
  | 0x02 => writeGpr r (rd insn) (vt >>> (sa insn).toNat)
  | 0x03 => writeGpr r (rd insn) (vt.sshiftRight (sa insn).toNat)
  | 0x04 => writeGpr r (rd insn) (vt <<< (vs &&& 31).toNat)
  | 0x06 => writeGpr r (rd insn) (vt >>> (vs &&& 31).toNat)
  | 0x07 => writeGpr r (rd insn) (vt.sshiftRight (vs &&& 31).toNat)
  | 0x08 => branchAbs r vs
  | 0x09 => branchAbs (link r (if rd insn = 0 then 31 else rd insn)) vs
  | 0x20 | 0x21 => writeGpr r (rd insn) (vs + vt)
  | 0x22 | 0x23 => writeGpr r (rd insn) (vs - vt)
  | 0x24 => writeGpr r (rd insn) (vs &&& vt)
  | 0x25 => writeGpr r (rd insn) (vs ||| vt)
  | 0x26 => writeGpr r (rd insn) (vs ^^^ vt)
  | 0x27 => writeGpr r (rd insn) (~~~(vs ||| vt))
  | 0x2A => writeGpr r (rd insn) (boolWord (vs.slt vt))
  | 0x2B => writeGpr r (rd insn) (boolWord (vs.ult vt))
  | _ => r

def execSpecial (s : Sys) (insn : U32) : Sys :=
  if fn insn = 0x0D then doBreak s else { s with rsp := execSpecialReg s.rsp insn }

def execRegimm (r : Rsp) (insn : U32) : Rsp :=
  let neg := (r.gpr (rs insn)).msb
  match (rt insn).toNat with
  | 0x00 => if neg then branchRel r (simm32 insn) else r
  | 0x01 => if !neg then branchRel r (simm32 insn) else r
  | 0x10 => let r := link r 31; if neg then branchRel r (simm32 insn) else r
  | 0x11 => let r := link r 31; if !neg then branchRel r (simm32 insn) else r
  | _ => r

/-- MFC0 of the SP registers 0 to 7 and the DPC registers 8 to 15. -/
def moveFromCop0 (s : Sys) (rdF : ℕ) : U32 × Sys :=
  if rdF ≤ 7 then
    if rdF = 7 then SpRegs.readSemaphore s
    else (SpRegs.read s.bus.spRegs (BitVec.ofNat 32 (rdF * 4)), s)
  else if rdF ≤ 15 then (DpRegs.read s.bus.dpRegs (BitVec.ofNat 32 ((rdF - 8) * 4)), s)
  else (0, s)

def moveToCop0 (s : Sys) (rdF : ℕ) (val : U32) : Sys :=
  if rdF ≤ 7 then
    let s := SpRegs.write s (BitVec.ofNat 32 (rdF * 4)) val
    if rdF = 4 then
      { s with
          rsp.halted := (s.bus.spRegs.status &&& SpRegisters.StHalt) != 0
          rsp.intrOnBreak := (s.bus.spRegs.status &&& SpRegisters.StIntrOnBreak) != 0 }
    else s
  else if rdF ≤ 15 then DpRegs.write s (BitVec.ofNat 32 ((rdF - 8) * 4)) val
  else s

def execCop0 (s : Sys) (insn : U32) : Sys :=
  if rs insn = 0 then
    let (val, s) := moveFromCop0 s (rd insn).toNat
    { s with rsp := writeGpr s.rsp (rt insn) val }
  else if rs insn = 4 then moveToCop0 s (rd insn).toNat (s.rsp.gpr (rt insn))
  else s

def execCop2 (r : Rsp) (insn : U32) : Rsp :=
  let subop := rs insn
  let scalar := rt insn
  let vectorReg := rd insn
  let element := (insn.extractLsb' 7 4).toNat
  let v := r.vector
  if subop &&& 0x10 ≠ 0 then { r with vector := RspVector.execVector v insn }
  else
    match subop.toNat with
    | 0x00 =>
      let value := join16 (RspVector.vectorByte v vectorReg element)
        (RspVector.vectorByte v vectorReg ((element + 1) % 16))
      writeGpr r scalar (value.signExtend 32)
    | 0x02 =>
      let value :=
        match (vectorReg &&& 3).toNat with
        | 0 => v.vco
        | 1 => v.vcc
        | _ => v.vce.setWidth 16
      writeGpr r scalar (value.signExtend 32)
    | 0x04 =>
      let value : U16 := (r.gpr scalar).setWidth 16
      let v := RspVector.setVectorByte v vectorReg element ((value >>> 8).setWidth 8)
      { r with vector :=
          if element ≠ 15 then
            RspVector.setVectorByte v vectorReg (element + 1) (value.setWidth 8)
          else v }
    | 0x06 =>
      let value : U16 := (r.gpr scalar).setWidth 16
      { r with vector :=
          match (vectorReg &&& 3).toNat with
          | 0 => { v with vco := value }
          | 1 => { v with vcc := value }
          | _ => { v with vce := value.setWidth 8 } }
    | _ => r

/-- `sign_extend7(insn)`. -/
def signExtend7 (insn : U32) : ℤ := (insn.extractLsb' 0 7).toInt

/-- The address scale of a vector transfer, or `none` when unsupported. -/
def vectorScale (subop : ℕ) : Option ℕ :=
  match subop with
  | 0 => some 0
  | 1 => some 1
  | 2 => some 2
  | 3 => some 3
  | 4 | 5 => some 4
  | 6 | 7 => some 3
  | 8 | 9 | 10 | 11 => some 4
  | _ => none

/-- One byte of a vector register to or from DMEM. -/
def transferByte (store : Bool) (vt : BitVec 5) (addr : U32) (byte : ℕ) (s : Sys) : Sys :=
  if store then storeByte s addr (RspVector.vectorByte s.rsp.vector vt byte)
  else
    let value := (loadByte s.rsp addr).setWidth 8
    { s with rsp.vector := RspVector.setVectorByte s.rsp.vector vt byte value }

/-- One lane of a vector register to or from a byte of DMEM, shifted. -/
def transferShifted (store : Bool) (vt : BitVec 5) (addr : U32) (lane : Fin 8) (shift : ℕ)
    (s : Sys) : Sys :=
  if store then storeByte s addr ((s.rsp.vector.vpr vt lane >>> shift).setWidth 8)
  else
    let value := (loadByte s.rsp addr <<< shift).setWidth 16
    { s with rsp.vector := RspVector.setVectorLane s.rsp.vector vt lane value }

def transferTransposed (store : Bool) (vt : BitVec 5) (element : ℕ) (address : U32) (lane : ℕ)
    (s : Sys) : Sys :=
  let addr := address + BitVec.ofNat 32 (lane * 2)
  if store then
    let reg := vt + BitVec.ofNat 5 ((element / 2 + lane) % 8)
    storeHalf s addr (s.rsp.vector.vpr reg (RspVector.laneAt lane))
  else
    let reg := vt + BitVec.ofNat 5 lane
    let dest := RspVector.laneAt (lane + 8 - element / 2)
    let value := (loadHalf s.rsp addr).setWidth 16
    { s with rsp.vector := RspVector.setVectorLane s.rsp.vector reg dest value }

def execVectorMemory (s : Sys) (insn : U32) (store : Bool) : Sys :=
  let vt := rt insn
  let subop := (rd insn).toNat
  let element := (insn.extractLsb' 7 4).toNat
  match vectorScale subop with
  | none => s
  | some scale =>
    let signedAddress : ℤ := (s.rsp.gpr (rs insn)).toNat + signExtend7 insn * 2 ^ scale
    let address := BitVec.ofInt 32 signedAddress &&& 0xFFF
    let at_ (i : ℕ) : U32 := address + BitVec.ofNat 32 i
    if subop = 6 ∨ subop = 7 then
      if element ≠ 0 then s
      else
        let shift := if subop = 6 then 8 else 7
        upTo (fun lane s => transferShifted store vt (at_ lane) (RspVector.laneAt lane) shift s) 8 s
    else if subop = 8 then
      if element ≠ 0 then s
      else
        upTo (fun lane s =>
          transferShifted store vt (at_ (lane * 2)) (RspVector.laneAt lane) 7 s) 8 s
    else if subop = 9 then
      let firstLane := element / 2 % 8
      let count := min 4 (8 - firstLane)
      upTo (fun i s =>
        transferShifted store vt (at_ (i * 4)) (RspVector.laneAt (firstLane + i)) 7 s) count s
    else if subop = 10 then
      if !store then s
      else upTo (fun i s => transferByte true vt (at_ i) ((element + i) % 16) s) 16 s
    else if subop = 11 then upTo (transferTransposed store vt element address) 8 s
    else if subop ≤ 3 then
      upTo (fun i s =>
        if element + i < 16 then transferByte store vt (at_ i) (element + i) s else s)
        (2 ^ subop) s
    else if subop = 4 then
      let count := min (16 - (address &&& 15).toNat) (16 - element)
      upTo (fun i s => transferByte store vt (at_ i) (element + i) s) count s
    else
      let count := (address &&& 15).toNat
      let aligned := address &&& ~~~15
      let vectorStart := 16 - count
      upTo (fun i s =>
        transferByte store vt (aligned + BitVec.ofNat 32 i) ((element + vectorStart + i) % 16) s)
        count s

/-- `gpr_[rs] + simm`. -/
def effective (r : Rsp) (insn : U32) : U32 := r.gpr (rs insn) + simm32 insn

def execLwl (r : Rsp) (insn : U32) : Rsp :=
  let addr := effective r insn
  let mem := loadWord r (addr &&& ~~~3)
  let n := (addr &&& 3).toNat
  let mask := 0xFFFFFFFF#32 <<< ((3 - n) * 8)
  let merged := mem <<< ((3 - n) * 8)
  writeGpr r (rt insn) ((r.gpr (rt insn) &&& ~~~mask) ||| (merged &&& mask))

def execLwr (r : Rsp) (insn : U32) : Rsp :=
  let addr := effective r insn
  let mem := loadWord r (addr &&& ~~~3)
  let n := (addr &&& 3).toNat
  let mask := 0xFFFFFFFF#32 >>> (n * 8)
  let merged := mem >>> (n * 8)
  writeGpr r (rt insn) ((r.gpr (rt insn) &&& ~~~mask) ||| (merged &&& mask))

def execSwl (s : Sys) (insn : U32) : Sys :=
  let addr := effective s.rsp insn
  let aligned := addr &&& ~~~3
  let n := (addr &&& 3).toNat
  let reg := s.rsp.gpr (rt insn)
  let mem := loadWord s.rsp aligned
  let mask := 0xFFFFFFFF#32 <<< ((3 - n) * 8)
  storeWord s aligned ((mem &&& ~~~mask) ||| ((reg >>> ((3 - n) * 8)) &&& mask))

def execSwr (s : Sys) (insn : U32) : Sys :=
  let addr := effective s.rsp insn
  let aligned := addr &&& ~~~3
  let n := (addr &&& 3).toNat
  let reg := s.rsp.gpr (rt insn)
  let mem := loadWord s.rsp aligned
  let mask := 0xFFFFFFFF#32 >>> (n * 8)
  storeWord s aligned ((mem &&& ~~~mask) ||| ((reg <<< (n * 8)) &&& mask))

/-- The opcodes that touch the RSP alone. -/
def executeReg (r : Rsp) (insn : U32) : Rsp :=
  let vs := r.gpr (rs insn)
  let vt := r.gpr (rt insn)
  let imm32 : U32 := (imm insn).setWidth 32
  match op insn with
  | 0x01 => execRegimm r insn
  | 0x02 => branchAbs r ((target insn <<< 2) &&& kImemMask)
  | 0x03 => branchAbs (link r 31) ((target insn <<< 2) &&& kImemMask)
  | 0x04 => if vs = vt then branchRel r (simm32 insn) else r
  | 0x05 => if vs ≠ vt then branchRel r (simm32 insn) else r
  | 0x06 => if vs.toInt ≤ 0 then branchRel r (simm32 insn) else r
  | 0x07 => if vs.toInt > 0 then branchRel r (simm32 insn) else r
  | 0x08 | 0x09 => writeGpr r (rt insn) (vs + simm32 insn)
  | 0x0A => writeGpr r (rt insn) (boolWord (vs.slt (simm32 insn)))
  | 0x0B => writeGpr r (rt insn) (boolWord (vs.ult (simm32 insn)))
  | 0x0C => writeGpr r (rt insn) (vs &&& imm32)
  | 0x0D => writeGpr r (rt insn) (vs ||| imm32)
  | 0x0E => writeGpr r (rt insn) (vs ^^^ imm32)
  | 0x0F => writeGpr r (rt insn) (imm32 <<< 16)
  | 0x12 => execCop2 r insn
  | 0x20 => writeGpr r (rt insn) (((loadByte r (effective r insn)).setWidth 8).signExtend 32)
  | 0x21 => writeGpr r (rt insn) (((loadHalf r (effective r insn)).setWidth 16).signExtend 32)
  | 0x22 => execLwl r insn
  | 0x23 => writeGpr r (rt insn) (loadWord r (effective r insn))
  | 0x24 => writeGpr r (rt insn) (loadByte r (effective r insn))
  | 0x25 => writeGpr r (rt insn) (loadHalf r (effective r insn))
  | 0x26 => execLwr r insn
  | _ => r

def execute (s : Sys) (insn : U32) : Sys :=
  match op insn with
  | 0x00 => execSpecial s insn
  | 0x10 => execCop0 s insn
  | 0x28 => storeByte s (effective s.rsp insn) ((s.rsp.gpr (rt insn)).setWidth 8)
  | 0x29 => storeHalf s (effective s.rsp insn) ((s.rsp.gpr (rt insn)).setWidth 16)
  | 0x2A => execSwl s insn
  | 0x2B => storeWord s (effective s.rsp insn) (s.rsp.gpr (rt insn))
  | 0x2E => execSwr s insn
  | 0x32 => execVectorMemory s insn false
  | 0x3A => execVectorMemory s insn true
  | _ => { s with rsp := executeReg s.rsp insn }

/-- The state `step` passes to `execute`. -/
def enterStep (r : Rsp) : Rsp :=
  let r := { r with inDelaySlot := r.branchPending }
  if r.branchPending then r
  else { r with nextPc := (r.pc + 4) &&& kImemMask, branchPending := false }

/-- The program counters after an instruction at `insnPc` that did not halt. -/
def advancePc (r : Rsp) (insnPc : U32) (delaySlot : Bool) : Rsp :=
  if delaySlot then
    { r with pc := r.nextPc, nextPc := (r.nextPc + 4) &&& kImemMask, branchPending := false }
  else if r.branchPending then { r with pc := (insnPc + 4) &&& kImemMask }
  else { r with pc := r.nextPc, nextPc := (r.nextPc + 4) &&& kImemMask }

def retire (r : Rsp) : Rsp :=
  { r with
      gpr := Function.update r.gpr 0 0
      cycles := r.cycles + 1
      retired := r.retired + 1
      inDelaySlot := false }

def step (s : Sys) : Sys :=
  if s.rsp.halted then { s with rsp.cycles := s.rsp.cycles + 1 }
  else
    let insnPc := s.rsp.pc
    let delaySlot := s.rsp.branchPending
    let insn := fetch s.rsp insnPc
    let s := execute { s with rsp := enterStep s.rsp } insn
    if s.rsp.halted then Sys.pushMemToBus { s with rsp := retire s.rsp }
    else { s with rsp := retire (advancePc s.rsp insnPc delaySlot) }

end N64.Rsp
