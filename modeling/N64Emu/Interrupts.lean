import N64Emu.State
import N64Emu.Loops

/-!
# The MIPS interface

Interrupt aggregation toward the CPU. Every change of the pending bits or the
mask ends in `notify`, which is the wired callback into Cause.IP2.
-/

set_option autoImplicit false

namespace N64

open Words Loops

def CAUSE_IP2 : U32 := 1#32 <<< 10
def CAUSE_IP7 : U32 := 1#32 <<< 15

def Cpu.setCop0Reg (c : Cpu) (i : BitVec 5) (v : U32) : Cpu :=
  { c with cop0 := Function.update c.cop0 i v }

def Cpu.setRcpInterrupt (c : Cpu) (level : Bool) : Cpu :=
  if level then c.setCop0Reg Cop0Reg.Cause (c.cop0 Cop0Reg.Cause ||| CAUSE_IP2)
  else c.setCop0Reg Cop0Reg.Cause (c.cop0 Cop0Reg.Cause &&& ~~~CAUSE_IP2)

namespace MiIntr

def SP : U32 := 1#32 <<< 0
def SI : U32 := 1#32 <<< 1
def AI : U32 := 1#32 <<< 2
def VI : U32 := 1#32 <<< 3
def PI : U32 := 1#32 <<< 4
def DP : U32 := 1#32 <<< 5

end MiIntr

namespace Mi

def cpuIrqLevel (m : MipsInterface) : Bool := (m.intr &&& m.intrMask) != 0

def reset (_ : MipsInterface) : MipsInterface := { mode := 0, intr := 0, intrMask := 0 }

def read (m : MipsInterface) (offset : U32) : U32 :=
  match (offset &&& 0xFC).toNat with
  | 0x00 => m.mode
  | 0x04 => 0x02020102
  | 0x08 => m.intr
  | 0x0C => m.intrMask
  | _ => 0

def notify (s : Sys) : Sys :=
  { s with cpu := s.cpu.setRcpInterrupt (cpuIrqLevel s.bus.mi) }

/-- One pair of clear and set bits of an `MI_INTR_MASK` write. -/
def maskStep (value : U32) (i : ℕ) (mask : U32) : U32 :=
  let mask := onBit value (1#32 <<< (i * 2)) (· &&& ~~~(1#32 <<< i)) mask
  onBit value (1#32 <<< (i * 2 + 1)) (· ||| (1#32 <<< i)) mask

def write (s : Sys) (offset value : U32) : Sys :=
  match (offset &&& 0xFC).toNat with
  | 0x00 => { s with bus.mi.mode := value }
  | 0x0C =>
    let mask := upTo (maskStep value) 6 s.bus.mi.intrMask
    notify { s with bus.mi.intrMask := mask &&& 0x3F }
  | _ => s

def raise (s : Sys) (maskBit : U32) : Sys :=
  notify { s with bus.mi.intr := s.bus.mi.intr ||| maskBit }

def clear (s : Sys) (maskBit : U32) : Sys :=
  notify { s with bus.mi.intr := s.bus.mi.intr &&& ~~~maskBit }

end Mi

end N64
