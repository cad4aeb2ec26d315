import N64Emu.Words

/-!
# Instruction fields

The field extraction both processors share.
-/

set_option autoImplicit false

namespace N64.Insn

open Words

def op (i : U32) : ℕ := (i >>> 26).toNat
def rs (i : U32) : BitVec 5 := i.extractLsb' 21 5
def rt (i : U32) : BitVec 5 := i.extractLsb' 16 5
def rd (i : U32) : BitVec 5 := i.extractLsb' 11 5
def sa (i : U32) : BitVec 5 := i.extractLsb' 6 5
def fn (i : U32) : ℕ := (i &&& 63).toNat
def imm (i : U32) : U16 := i.setWidth 16
def target (i : U32) : U32 := i &&& 0x03FFFFFF

/-- `static_cast<s32>(simm(i))`. -/
def simm32 (i : U32) : U32 := (imm i).signExtend 32

/-- `static_cast<s64>(simm(i))`. -/
def simm64 (i : U32) : U64 := (imm i).signExtend 64

end N64.Insn
