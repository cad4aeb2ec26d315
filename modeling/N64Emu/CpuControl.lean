import N64Emu.Interrupts
import N64Emu.Insn

/-!
# CPU control state

Address translation, exception entry, interrupts and the counters. A failed
translation or probe returns the CPU after the exception it raised.
-/

set_option autoImplicit false

namespace N64

open Words

def SR_IE : U32 := 1#32 <<< 0
def SR_EXL : U32 := 1#32 <<< 1
def SR_ERL : U32 := 1#32 <<< 2
def SR_KSU : U32 := 0x18
def SR_BEV : U32 := 1#32 <<< 22
def CAUSE_BD : U32 := 1#32 <<< 31

def TLB_INDEX_MASK : U32 := 0x1F
def TLB_PROBE_FAIL : U32 := 1#32 <<< 31
def TLB_PAGE_MASK : U32 := 0x01FFE000
def TLB_ENTRY_HI_MASK : U32 := 0xFFFFE0FF
def TLB_ENTRY_LO_MASK : U32 := 0x3FFFFFFF
def TLB_ENTRY_LO_GLOBAL : U32 := 1#32 <<< 0
def TLB_ENTRY_LO_VALID : U32 := 1#32 <<< 1
def TLB_ENTRY_LO_DIRTY : U32 := 1#32 <<< 2

namespace ExcCode

def Int : U32 := 0
def Mod : U32 := 1
def TLBL : U32 := 2
def TLBS : U32 := 3
def AdEL : U32 := 4
def AdES : U32 := 5
def Sys : U32 := 8
def Bp : U32 := 9
def RI : U32 := 10
def CpU : U32 := 11
def Ov : U32 := 12
def Tr : U32 := 13
def FPE : U32 := 15

end ExcCode

inductive TranslationFault where
  | AddressError
  | TlbMiss
  | TlbInvalid
  | TlbModified
  deriving DecidableEq, Repr

namespace TlbEntry

def pairMask (e : TlbEntry) : U32 := (e.pageMask &&& TLB_PAGE_MASK) ||| 0x1FFF

def global (e : TlbEntry) : Bool :=
  e.entryLo0 &&& TLB_ENTRY_LO_GLOBAL ≠ 0 && e.entryLo1 &&& TLB_ENTRY_LO_GLOBAL ≠ 0

/-- The entry maps `v` for the address space `asid`. -/
def hit (e : TlbEntry) (v asid : U32) : Bool :=
  v &&& ~~~e.pairMask = e.entryHi &&& ~~~e.pairMask &&
    (e.global || e.entryHi &&& 0xFF = asid)

def pageSize (e : TlbEntry) : U32 := (e.pairMask + 1) >>> 1

/-- The half of the pair that `v` selects. -/
def lo (e : TlbEntry) (v : U32) : U32 := if v &&& e.pageSize ≠ 0 then e.entryLo1 else e.entryLo0

def paddr (e : TlbEntry) (v : U32) : PhysicalAddress :=
  let pageOffsetMask := e.pageSize - 1
  let physicalBase : U64 :=
    ((e.lo v &&& 0x3FFFFFC0).setWidth 64 <<< 6) &&& ~~~(pageOffsetMask.setWidth 64)
  (physicalBase ||| (v &&& pageOffsetMask).setWidth 64).setWidth 32 &&& 0x1FFFFFFF

end TlbEntry

namespace Cpu

def reset (_ : Cpu) : Cpu :=
  let c : Cpu := { pc := 0xBFC00000, nextPc := 0xBFC00000 + 4 }
  let c := c.setCop0Reg Cop0Reg.Random 31
  let c := c.setCop0Reg Cop0Reg.Status 0x34000000
  let c := c.setCop0Reg Cop0Reg.PRId 0x00000B22
  c.setCop0Reg Cop0Reg.Config 0x7006E463

def setPc (c : Cpu) (pc : U64) : Cpu :=
  { c with pc := pc, nextPc := pc + 4, branchPending := false, llBit := false }

def status (c : Cpu) : U32 := c.cop0 Cop0Reg.Status

/-- Zero in kernel mode, one in supervisor mode, more in user mode. -/
def mode (c : Cpu) : ℕ :=
  if c.status &&& (SR_EXL ||| SR_ERL) ≠ 0 then 0 else ((c.status &&& SR_KSU) >>> 3).toNat

def tlbEntries (c : Cpu) : List TlbEntry := (List.range 32).map fun i => c.tlb (BitVec.ofNat 5 i)

def translateEntry (e : TlbEntry) (v : U32) (isStore : Bool) :
    Except TranslationFault PhysicalAddress :=
  if e.lo v &&& TLB_ENTRY_LO_VALID = 0 then .error .TlbInvalid
  else if isStore ∧ e.lo v &&& TLB_ENTRY_LO_DIRTY = 0 then .error .TlbModified
  else .ok (e.paddr v)

def translateAddress (c : Cpu) (vaddr : U64) (isStore : Bool) :
    Except TranslationFault PhysicalAddress :=
  let v : U32 := vaddr.setWidth 32
  if (c.mode ≥ 2 ∧ v.toNat ≥ 0x80000000) ∨ (c.mode = 1 ∧ v.toNat ≥ 0xE0000000) then
    .error .AddressError
  else if 0x80000000 ≤ v.toNat ∧ v.toNat ≤ 0x9FFFFFFF then
    if c.mode ≠ 0 then .error .AddressError else .ok (v &&& 0x1FFFFFFF)
  else if 0xA0000000 ≤ v.toNat ∧ v.toNat ≤ 0xBFFFFFFF then
    if c.mode ≠ 0 then .error .AddressError else .ok (v &&& 0x1FFFFFFF)
  else
    let currentAsid := c.cop0 Cop0Reg.EntryHi &&& 0xFF
    match c.tlbEntries.find? fun e => e.hit v currentAsid with
    | some e => translateEntry e v isStore
    | none => .error .TlbMiss

def kernelMode (c : Cpu) : Bool :=
  if c.status &&& (SR_EXL ||| SR_ERL) ≠ 0 then true else (c.status &&& SR_KSU) >>> 3 = 0

def coprocessorUsable (c : Cpu) (cop : ℕ) : Bool :=
  if cop = 0 ∧ c.kernelMode then true else c.status &&& (1#32 <<< (28 + cop)) ≠ 0

/-- Count, and the timer's interrupt bit when it meets Compare. -/
def bumpCount (c : Cpu) : Cpu :=
  let c := c.setCop0Reg Cop0Reg.Count (c.cop0 Cop0Reg.Count + 1)
  if c.cop0 Cop0Reg.Count = c.cop0 Cop0Reg.Compare then
    c.setCop0Reg Cop0Reg.Cause (c.cop0 Cop0Reg.Cause ||| CAUSE_IP7)
  else c

def advanceCount (c : Cpu) : Cpu :=
  let c := c.bumpCount
  let wired := c.cop0 Cop0Reg.Wired &&& TLB_INDEX_MASK
  let random := c.cop0 Cop0Reg.Random &&& TLB_INDEX_MASK
  c.setCop0Reg Cop0Reg.Random (if random ≤ wired then 31 else random - 1)

/-- Cause and EPC at exception entry. -/
def enterCause (c : Cpu) (excCode ce : U32) : Cpu :=
  let cause := c.cop0 Cop0Reg.Cause
  let cause := (cause &&& ~~~0x7C#32) ||| ((excCode &&& 0x1F) <<< 2)
  let cause := (cause &&& ~~~(0x3#32 <<< 28)) ||| ((ce &&& 0x3) <<< 28)
  if c.status &&& SR_EXL = 0 then
    if c.inDelaySlot then
      (c.setCop0Reg Cop0Reg.EPC ((c.pc - 4).setWidth 32)).setCop0Reg Cop0Reg.Cause
        (cause ||| CAUSE_BD)
    else
      (c.setCop0Reg Cop0Reg.EPC (c.pc.setWidth 32)).setCop0Reg Cop0Reg.Cause
        (cause &&& ~~~CAUSE_BD)
  else c.setCop0Reg Cop0Reg.Cause cause

def isTlbException (excCode : U32) : Bool :=
  excCode = ExcCode.TLBL || excCode = ExcCode.TLBS || excCode = ExcCode.Mod

/-- BadVAddr, Context and EntryHi at exception entry. -/
def enterBadVaddr (c : Cpu) (excCode : U32) (badVaddr : U64) : Cpu :=
  let bad : U32 := badVaddr.setWidth 32
  let c :=
    if excCode = ExcCode.AdEL ∨ excCode = ExcCode.AdES ∨ isTlbException excCode then
      c.setCop0Reg Cop0Reg.BadVAddr bad
    else c
  if isTlbException excCode then
    let c := c.setCop0Reg Cop0Reg.Context
      ((c.cop0 Cop0Reg.Context &&& 0xFF800000) ||| ((bad >>> 9) &&& 0x007FFFF0))
    c.setCop0Reg Cop0Reg.EntryHi ((c.cop0 Cop0Reg.EntryHi &&& 0xFF) ||| (bad &&& 0xFFFFE000))
  else c

def exceptionVector (sr : U32) (tlbRefill : Bool) : U64 :=
  let bev : Bool := sr &&& SR_BEV ≠ 0
  if tlbRefill ∧ sr &&& SR_EXL = 0 then if bev then 0xBFC00200 else 0x80000000
  else if bev then 0xBFC00380 else 0x80000180

def raiseException (c : Cpu) (excCode : U32) (badVaddr : U64) (ce : U32) (tlbRefill : Bool) :
    Cpu :=
  let sr := c.status
  let c := { c with exceptionCount := c.exceptionCount + 1 }
  let c := enterCause c excCode ce
  let c := enterBadVaddr c excCode badVaddr
  let c := c.setCop0Reg Cop0Reg.Status (sr ||| SR_EXL)
  let vector := exceptionVector sr tlbRefill
  { c with pc := vector, nextPc := vector + 4, branchPending := false, llBit := false }

/-- `raise_exception(exc_code)`. -/
def raise (c : Cpu) (excCode : U32) : Cpu := raiseException c excCode 0 0 false

/-- `raise_exception(ExcCode::CpU, 0, cop)`. -/
def raiseUnusable (c : Cpu) (cop : U32) : Cpu := raiseException c ExcCode.CpU 0 cop false

def raiseTranslationFault (c : Cpu) (fault : TranslationFault) (badVaddr : U64) (isStore : Bool) :
    Cpu :=
  match fault with
  | .AddressError =>
    raiseException c (if isStore then ExcCode.AdES else ExcCode.AdEL) badVaddr 0 false
  | .TlbMiss => raiseException c (if isStore then ExcCode.TLBS else ExcCode.TLBL) badVaddr 0 true
  | .TlbInvalid =>
    raiseException c (if isStore then ExcCode.TLBS else ExcCode.TLBL) badVaddr 0 false
  | .TlbModified => raiseException c ExcCode.Mod badVaddr 0 false

def translateOrRaise (c : Cpu) (vaddr badVaddr : U64) (isStore : Bool) :
    Except Cpu PhysicalAddress :=
  match c.translateAddress vaddr isStore with
  | .ok p => .ok p
  | .error fault => .error (raiseTranslationFault c fault badVaddr isStore)

/-- `probe_read` and `probe_write`. -/
def probe (c : Cpu) (vaddr : U64) (size : U64) (isStore : Bool) : Except Cpu PhysicalAddress :=
  if vaddr &&& (size - 1) ≠ 0 then
    .error (raiseException c (if isStore then ExcCode.AdES else ExcCode.AdEL) vaddr 0 false)
  else translateOrRaise c vaddr vaddr isStore

def probeRead (c : Cpu) (vaddr size : U64) : Except Cpu PhysicalAddress := probe c vaddr size false

def probeWrite (c : Cpu) (vaddr size : U64) : Except Cpu PhysicalAddress := probe c vaddr size true

def checkInterrupts (c : Cpu) : Cpu :=
  if c.status &&& SR_IE = 0 then c
  else if c.status &&& (SR_EXL ||| SR_ERL) ≠ 0 then c
  else if c.cop0 Cop0Reg.Cause &&& c.status &&& 0xFF00 ≠ 0 then raise c ExcCode.Int
  else c

end Cpu

end N64
