import N64Emu.CpuControl

/-!
# Integer instructions

The opcode tables, the branch helpers, and the SPECIAL and REGIMM groups,
none of which reach memory.
-/

set_option autoImplicit false

namespace N64

open Words Insn

inductive Op where
  | SPECIAL | REGIMM | J | JAL | BEQ | BNE | BLEZ | BGTZ | ADDI | ADDIU | SLTI | SLTIU | ANDI | ORI
  | XORI | LUI | COP0 | COP1 | COP2 | BEQL | BNEL | BLEZL | BGTZL | DADDI | DADDIU | LDL | LDR | LB
  | LH | LWL | LW | LBU | LHU | LWR | LWU | SB | SH | SWL | SW | SDL | SDR | SWR | CACHE | LL | LWC1
  | LLD | LDC1 | LD | SC | SWC1 | SCD | SDC1 | SD
  deriving DecidableEq, Repr

def Op.ofCode : ℕ → Option Op
  | 0x00 => some .SPECIAL
  | 0x01 => some .REGIMM
  | 0x02 => some .J
  | 0x03 => some .JAL
  | 0x04 => some .BEQ
  | 0x05 => some .BNE
  | 0x06 => some .BLEZ
  | 0x07 => some .BGTZ
  | 0x08 => some .ADDI
  | 0x09 => some .ADDIU
  | 0x0A => some .SLTI
  | 0x0B => some .SLTIU
  | 0x0C => some .ANDI
  | 0x0D => some .ORI
  | 0x0E => some .XORI
  | 0x0F => some .LUI
  | 0x10 => some .COP0
  | 0x11 => some .COP1
  | 0x12 => some .COP2
  | 0x14 => some .BEQL
  | 0x15 => some .BNEL
  | 0x16 => some .BLEZL
  | 0x17 => some .BGTZL
  | 0x18 => some .DADDI
  | 0x19 => some .DADDIU
  | 0x1A => some .LDL
  | 0x1B => some .LDR
  | 0x20 => some .LB
  | 0x21 => some .LH
  | 0x22 => some .LWL
  | 0x23 => some .LW
  | 0x24 => some .LBU
  | 0x25 => some .LHU
  | 0x26 => some .LWR
  | 0x27 => some .LWU
  | 0x28 => some .SB
  | 0x29 => some .SH
  | 0x2A => some .SWL
  | 0x2B => some .SW
  | 0x2C => some .SDL
  | 0x2D => some .SDR
  | 0x2E => some .SWR
  | 0x2F => some .CACHE
  | 0x30 => some .LL
  | 0x31 => some .LWC1
  | 0x34 => some .LLD
  | 0x35 => some .LDC1
  | 0x37 => some .LD
  | 0x38 => some .SC
  | 0x39 => some .SWC1
  | 0x3C => some .SCD
  | 0x3D => some .SDC1
  | 0x3F => some .SD
  | _ => none

inductive SpecialFn where
  | SLL | SRL | SRA | SLLV | SRLV | SRAV | JR | JALR | SYSCALL | BREAK | SYNC | MFHI | MTHI | MFLO
  | MTLO | DSLLV | DSRLV | DSRAV | MULT | MULTU | DIV | DIVU | DMULT | DMULTU | DDIV | DDIVU | ADD
  | ADDU | SUB | SUBU | AND | OR | XOR | NOR | SLT | SLTU | DADD | DADDU | DSUB | DSUBU | TGE | TGEU
  | TLT | TLTU | TEQ | TNE | DSLL | DSRL | DSRA | DSLL32 | DSRL32 | DSRA32
  deriving DecidableEq, Repr

def SpecialFn.ofCode : ℕ → Option SpecialFn
  | 0x00 => some .SLL
  | 0x02 => some .SRL
  | 0x03 => some .SRA
  | 0x04 => some .SLLV
  | 0x06 => some .SRLV
  | 0x07 => some .SRAV
  | 0x08 => some .JR
  | 0x09 => some .JALR
  | 0x0C => some .SYSCALL
  | 0x0D => some .BREAK
  | 0x0F => some .SYNC
  | 0x10 => some .MFHI
  | 0x11 => some .MTHI
  | 0x12 => some .MFLO
  | 0x13 => some .MTLO
  | 0x14 => some .DSLLV
  | 0x16 => some .DSRLV
  | 0x17 => some .DSRAV
  | 0x18 => some .MULT
  | 0x19 => some .MULTU
  | 0x1A => some .DIV
  | 0x1B => some .DIVU
  | 0x1C => some .DMULT
  | 0x1D => some .DMULTU
  | 0x1E => some .DDIV
  | 0x1F => some .DDIVU
  | 0x20 => some .ADD
  | 0x21 => some .ADDU
  | 0x22 => some .SUB
  | 0x23 => some .SUBU
  | 0x24 => some .AND
  | 0x25 => some .OR
  | 0x26 => some .XOR
  | 0x27 => some .NOR
  | 0x2A => some .SLT
  | 0x2B => some .SLTU
  | 0x2C => some .DADD
  | 0x2D => some .DADDU
  | 0x2E => some .DSUB
  | 0x2F => some .DSUBU
  | 0x30 => some .TGE
  | 0x31 => some .TGEU
  | 0x32 => some .TLT
  | 0x33 => some .TLTU
  | 0x34 => some .TEQ
  | 0x36 => some .TNE
  | 0x38 => some .DSLL
  | 0x3A => some .DSRL
  | 0x3B => some .DSRA
  | 0x3C => some .DSLL32
  | 0x3E => some .DSRL32
  | 0x3F => some .DSRA32
  | _ => none

inductive RegimmRt where
  | BLTZ | BGEZ | BLTZL | BGEZL | TGEI | TGEIU | TLTI | TLTIU | TEQI | TNEI | BLTZAL | BGEZAL
  | BLTZALL | BGEZALL
  deriving DecidableEq, Repr

def RegimmRt.ofCode : ℕ → Option RegimmRt
  | 0x00 => some .BLTZ
  | 0x01 => some .BGEZ
  | 0x02 => some .BLTZL
  | 0x03 => some .BGEZL
  | 0x08 => some .TGEI
  | 0x09 => some .TGEIU
  | 0x0A => some .TLTI
  | 0x0B => some .TLTIU
  | 0x0C => some .TEQI
  | 0x0E => some .TNEI
  | 0x10 => some .BLTZAL
  | 0x11 => some .BGEZAL
  | 0x12 => some .BLTZALL
  | 0x13 => some .BGEZALL
  | _ => none

namespace Cpu

def writeGpr (c : Cpu) (idx : BitVec 5) (value : U64) : Cpu :=
  if idx ≠ 0 then { c with gpr := Function.update c.gpr idx value } else c

def setHiLo (c : Cpu) (hi lo : U64) : Cpu := { c with hi := hi, lo := lo }

def branchAbs (c : Cpu) (targetPc : U64) : Cpu :=
  { c with nextPc := targetPc, branchPending := true }

def branchRel (c : Cpu) (offsetImm : U64) : Cpu :=
  { c with nextPc := c.pc + 4 + (offsetImm <<< 2), branchPending := true }

/-- A likely branch that is not taken skips its delay slot. -/
def nullify (c : Cpu) : Cpu := { c with nextPc := c.pc + 8, branchPending := false }

def link (c : Cpu) (reg : BitVec 5) : Cpu := c.writeGpr reg (c.pc + 8)

def branchIf (c : Cpu) (taken : Bool) (insn : U32) : Cpu :=
  if taken then c.branchRel (simm64 insn) else c.branchAbs (c.pc + 8)

def branchLikelyIf (c : Cpu) (taken : Bool) (insn : U32) : Cpu :=
  if taken then c.branchRel (simm64 insn) else c.nullify

def trapIf (c : Cpu) (condition : Bool) : Cpu := if condition then c.raise ExcCode.Tr else c

def jumpTarget (c : Cpu) (insn : U32) : U64 :=
  (c.pc &&& 0xFFFFFFFFF0000000) ||| ((target insn).setWidth 64 <<< 2)

def boolWord (b : Bool) : U64 := if b then 1 else 0

def addOverflowS32 (a b : U32) : Bool × U32 :=
  let wide := a.toInt + b.toInt
  let result := BitVec.ofInt 32 wide
  (wide ≠ result.toInt, result)

def subOverflowS32 (a b : U32) : Bool × U32 :=
  let wide := a.toInt - b.toInt
  let result := BitVec.ofInt 32 wide
  (wide ≠ result.toInt, result)

def s64Max : ℤ := 0x7FFFFFFFFFFFFFFF
def s64Min : ℤ := -0x8000000000000000

def addOverflowS64 (a b : U64) : Bool × U64 :=
  if (b.toInt > 0 ∧ a.toInt > s64Max - b.toInt) ∨ (b.toInt < 0 ∧ a.toInt < s64Min - b.toInt) then
    (true, 0)
  else (false, a + b)

def subOverflowS64 (a b : U64) : Bool × U64 :=
  if (b.toInt > 0 ∧ a.toInt < s64Min + b.toInt) ∨ (b.toInt < 0 ∧ a.toInt > s64Max + b.toInt) then
    (true, 0)
  else (false, a - b)

/-- The write of a checked 32-bit result, or the overflow exception. -/
def writeChecked32 (c : Cpu) (idx : BitVec 5) (r : Bool × U32) : Cpu :=
  if r.1 then c.raise ExcCode.Ov else c.writeGpr idx (sext32 r.2)

def writeChecked64 (c : Cpu) (idx : BitVec 5) (r : Bool × U64) : Cpu :=
  if r.1 then c.raise ExcCode.Ov else c.writeGpr idx r.2

/-- `mult_u64`: the high and low words, by the 128-bit product. -/
def multU64 (a b : U64) : U64 × U64 :=
  let r := a.setWidth 128 * b.setWidth 128
  ((r >>> 64).setWidth 64, r.setWidth 64)

def multS64 (a b : U64) : U64 × U64 :=
  let r := a.signExtend 128 * b.signExtend 128
  ((r >>> 64).setWidth 64, r.setWidth 64)

def mult (c : Cpu) (s t : U32) : Cpu :=
  let r := sext32 s * sext32 t
  c.setHiLo (sext32 ((r >>> 32).setWidth 32)) (sext32 (r.setWidth 32))

def multu (c : Cpu) (s t : U32) : Cpu :=
  let r : U64 := s.setWidth 64 * t.setWidth 64
  c.setHiLo (sext32 ((r >>> 32).setWidth 32)) (sext32 (r.setWidth 32))

def div (c : Cpu) (num den : U32) : Cpu :=
  if den = 0 then c.setHiLo (sext32 num) (sext32 (if num.toInt < 0 then 1 else 0xFFFFFFFF))
  else if num = 0x80000000 ∧ den = 0xFFFFFFFF then c.setHiLo 0 (sext32 0x80000000)
  else c.setHiLo (sext32 (num.srem den)) (sext32 (num.sdiv den))

def divu (c : Cpu) (num den : U32) : Cpu :=
  if den = 0 then c.setHiLo (sext32 num) (sext32 0xFFFFFFFF)
  else c.setHiLo (sext32 (num % den)) (sext32 (num / den))

def ddiv (c : Cpu) (num den : U64) : Cpu :=
  if den = 0 then c.setHiLo num (if num.toInt < 0 then 1 else ~~~0)
  else if num = 0x8000000000000000 ∧ den = ~~~0 then c.setHiLo 0 num
  else c.setHiLo (num.srem den) (num.sdiv den)

def ddivu (c : Cpu) (num den : U64) : Cpu :=
  if den = 0 then c.setHiLo num (~~~0) else c.setHiLo (num % den) (num / den)

/-- The reserved-instruction path of the default cases. -/
def reserved (c : Cpu) : Cpu :=
  { c with unknownOpcodeCount := c.unknownOpcodeCount + 1 }.raise ExcCode.RI

def execSpecialFn (c : Cpu) (f : SpecialFn) (insn : U32) : Cpu :=
  let rs64 := c.gpr (rs insn)
  let rt64 := c.gpr (rt insn)
  let rs32 : U32 := rs64.setWidth 32
  let rt32 : U32 := rt64.setWidth 32
  let shift := (sa insn).toNat
  let shift5 := (rs32 &&& 31).toNat
  let shift6 := (rs32 &&& 63).toNat
  match f with
  | .SLL => c.writeGpr (rd insn) (sext32 (rt32 <<< shift))
  | .SRL => c.writeGpr (rd insn) (sext32 (rt32 >>> shift))
  | .SRA => c.writeGpr (rd insn) (sext32 (rt32.sshiftRight shift))
  | .SLLV => c.writeGpr (rd insn) (sext32 (rt32 <<< shift5))
  | .SRLV => c.writeGpr (rd insn) (sext32 (rt32 >>> shift5))
  | .SRAV => c.writeGpr (rd insn) (sext32 (rt32.sshiftRight shift5))
  | .JR => c.branchAbs rs64
  | .JALR => (c.link (if rd insn = 0 then 31 else rd insn)).branchAbs rs64
  | .SYSCALL => c.raise ExcCode.Sys
  | .BREAK => c.raise ExcCode.Bp
  | .SYNC => c
  | .MFHI => c.writeGpr (rd insn) c.hi
  | .MTHI => { c with hi := rs64 }
  | .MFLO => c.writeGpr (rd insn) c.lo
  | .MTLO => { c with lo := rs64 }
  | .DSLLV => c.writeGpr (rd insn) (rt64 <<< shift6)
  | .DSRLV => c.writeGpr (rd insn) (rt64 >>> shift6)
  | .DSRAV => c.writeGpr (rd insn) (rt64.sshiftRight shift6)
  | .MULT => c.mult rs32 rt32
  | .MULTU => c.multu rs32 rt32
  | .DIV => c.div rs32 rt32
  | .DIVU => c.divu rs32 rt32
  | .DMULT => c.setHiLo (multS64 rs64 rt64).1 (multS64 rs64 rt64).2
  | .DMULTU => c.setHiLo (multU64 rs64 rt64).1 (multU64 rs64 rt64).2
  | .DDIV => c.ddiv rs64 rt64
  | .DDIVU => c.ddivu rs64 rt64
  | .ADD => c.writeChecked32 (rd insn) (addOverflowS32 rs32 rt32)
  | .ADDU => c.writeGpr (rd insn) (sext32 (rs32 + rt32))
  | .SUB => c.writeChecked32 (rd insn) (subOverflowS32 rs32 rt32)
  | .SUBU => c.writeGpr (rd insn) (sext32 (rs32 - rt32))
  | .AND => c.writeGpr (rd insn) (rs64 &&& rt64)
  | .OR => c.writeGpr (rd insn) (rs64 ||| rt64)
  | .XOR => c.writeGpr (rd insn) (rs64 ^^^ rt64)
  | .NOR => c.writeGpr (rd insn) (~~~(rs64 ||| rt64))
  | .SLT => c.writeGpr (rd insn) (boolWord (rs64.slt rt64))
  | .SLTU => c.writeGpr (rd insn) (boolWord (rs64.ult rt64))
  | .DADD => c.writeChecked64 (rd insn) (addOverflowS64 rs64 rt64)
  | .DADDU => c.writeGpr (rd insn) (rs64 + rt64)
  | .DSUB => c.writeChecked64 (rd insn) (subOverflowS64 rs64 rt64)
  | .DSUBU => c.writeGpr (rd insn) (rs64 - rt64)
  | .TGE => c.trapIf (rt64.sle rs64)
  | .TGEU => c.trapIf (rt64.ule rs64)
  | .TLT => c.trapIf (rs64.slt rt64)
  | .TLTU => c.trapIf (rs64.ult rt64)
  | .TEQ => c.trapIf (rs64 == rt64)
  | .TNE => c.trapIf (rs64 != rt64)
  | .DSLL => c.writeGpr (rd insn) (rt64 <<< shift)
  | .DSRL => c.writeGpr (rd insn) (rt64 >>> shift)
  | .DSRA => c.writeGpr (rd insn) (rt64.sshiftRight shift)
  | .DSLL32 => c.writeGpr (rd insn) (rt64 <<< (shift + 32))
  | .DSRL32 => c.writeGpr (rd insn) (rt64 >>> (shift + 32))
  | .DSRA32 => c.writeGpr (rd insn) (rt64.sshiftRight (shift + 32))

def execSpecial (c : Cpu) (insn : U32) : Cpu :=
  match SpecialFn.ofCode (fn insn) with
  | some f => c.execSpecialFn f insn
  | none => c.reserved

def execRegimmRt (c : Cpu) (r : RegimmRt) (insn : U32) : Cpu :=
  let rs64 := c.gpr (rs insn)
  let rsNeg := rs64.msb
  match r with
  | .BLTZ => c.branchIf rsNeg insn
  | .BGEZ => c.branchIf (!rsNeg) insn
  | .BLTZL => c.branchLikelyIf rsNeg insn
  | .BGEZL => c.branchLikelyIf (!rsNeg) insn
  | .TGEI => c.trapIf ((simm64 insn).sle rs64)
  | .TGEIU => c.trapIf ((simm64 insn).ule rs64)
  | .TLTI => c.trapIf (rs64.slt (simm64 insn))
  | .TLTIU => c.trapIf (rs64.ult (simm64 insn))
  | .TEQI => c.trapIf (rs64 == simm64 insn)
  | .TNEI => c.trapIf (rs64 != simm64 insn)
  | .BLTZAL => (c.link 31).branchIf rsNeg insn
  | .BGEZAL => (c.link 31).branchIf (!rsNeg) insn
  | .BLTZALL => (c.link 31).branchLikelyIf rsNeg insn
  | .BGEZALL => (c.link 31).branchLikelyIf (!rsNeg) insn

def execRegimm (c : Cpu) (insn : U32) : Cpu :=
  match RegimmRt.ofCode (rt insn).toNat with
  | some r => c.execRegimmRt r insn
  | none => c.reserved

end Cpu

end N64
