import N64Emu.Cop1
import N64Emu.BusWrite

/-!
# CPU memory access, COP0 and the step

Loads and stores go through the translation and the bus; each marks the
access in the log before it happens. Changes of the address mapping mark a
flush of the block cache.
-/

set_option autoImplicit false

namespace N64

open Words Insn

namespace Sys

def onCpu (s : Sys) (f : Cpu → Cpu) : Sys := { s with cpu := f s.cpu }

@[simp]
theorem onCpu_cpu (s : Sys) (f : Cpu → Cpu) : (s.onCpu f).cpu = f s.cpu := rfl

/-- Go on at a physical address, or with the CPU that raised. -/
def access (s : Sys) (r : Except Cpu PhysicalAddress) (k : PhysicalAddress → Sys) : Sys :=
  match r with
  | .error c => { s with cpu := c }
  | .ok p => k p

end Sys

namespace Cpu

def clearLlBit (c : Cpu) : Cpu := { c with llBit := false }

/-- `rs64(insn) + simm(insn)`. -/
def effective (c : Cpu) (insn : U32) : U64 := c.gpr (rs insn) + simm64 insn

section Access

variable {α : Type}

/-- The value of a bus read of the CPU, given to `k` with the CPU. -/
def readInto (read : Sys → U32 → α × Sys) (size : ℕ) (s : Sys) (p : PhysicalAddress)
    (k : α → Cpu → Cpu) : Sys :=
  let (v, s) := read (s.emit (.load p size)) p
  s.onCpu (k v)

/-- `load_byte` to `load_double`, with what runs when they return true. -/
def loadWith (read : Sys → U32 → α × Sys) (size : ℕ) (s : Sys) (vaddr : U64)
    (k : α → Cpu → Cpu) : Sys :=
  s.access (s.cpu.probeRead vaddr (BitVec.ofNat 64 size)) fun p => readInto read size s p k

/-- `store_byte` to `store_double`. -/
def storeWith (write : Sys → U32 → α → Sys) (size : ℕ) (s : Sys) (vaddr : U64) (value : α) : Sys :=
  s.access (s.cpu.probeWrite vaddr (BitVec.ofNat 64 size)) fun p =>
    (write (s.emit (.store p size)) p value).onCpu clearLlBit

/-- The unaligned loads: `k` gets the aligned word and the byte offset in it. -/
def mergeLoad (read : Sys → U32 → α × Sys) (size : ℕ) (s : Sys) (insn : U32)
    (k : α → ℕ → Cpu → Cpu) : Sys :=
  let addr := s.cpu.effective insn
  let lowMask : U64 := BitVec.ofNat 64 (size - 1)
  s.access (s.cpu.translateOrRaise (addr &&& ~~~lowMask) addr false) fun p =>
    readInto read size s p fun mem => k mem (addr &&& lowMask).toNat

/-- The unaligned stores: the aligned word is read, merged and written. -/
def mergeStore (read : Sys → U32 → α × Sys) (write : Sys → U32 → α → Sys) (size : ℕ) (s : Sys)
    (insn : U32) (merge : α → ℕ → α) : Sys :=
  let addr := s.cpu.effective insn
  let lowMask : U64 := BitVec.ofNat 64 (size - 1)
  s.access (s.cpu.translateOrRaise (addr &&& ~~~lowMask) addr true) fun p =>
    let (mem, s) := read (s.emit (.load p size)) p
    (write (s.emit (.store p size)) p (merge mem (addr &&& lowMask).toNat)).onCpu clearLlBit

/-- SC and SCD. -/
def storeConditional (write : Sys → U32 → α → Sys) (size : ℕ) (s : Sys) (insn : U32) (value : α) :
    Sys :=
  let addr := s.cpu.effective insn
  let hadReservation := s.cpu.llBit
  let reservedAddr := s.cpu.llAddr
  let s := s.onCpu clearLlBit
  s.access (s.cpu.probeWrite addr (BitVec.ofNat 64 size)) fun p =>
    if hadReservation ∧ p.setWidth 64 = reservedAddr then
      (write (s.emit (.store p size)) p value).onCpu (·.writeGpr (rt insn) 1)
    else s.onCpu (·.writeGpr (rt insn) 0)

/-- LL and LLD. -/
def loadLinked (read : Sys → U32 → α × Sys) (size : ℕ) (s : Sys) (insn : U32) (conv : α → U64) :
    Sys :=
  s.access (s.cpu.probeRead (s.cpu.effective insn) (BitVec.ofNat 64 size)) fun p =>
    readInto read size s p fun v c =>
      { c.writeGpr (rt insn) (conv v) with llBit := true, llAddr := p.setWidth 64 }

end Access

def loadByte (s : Sys) (vaddr : U64) (signExtend : Bool) (k : U64 → Cpu → Cpu) : Sys :=
  loadWith Bus.read8 1 s vaddr fun v => k (if signExtend then sext8 v else v.setWidth 64)

def loadHalf (s : Sys) (vaddr : U64) (signExtend : Bool) (k : U64 → Cpu → Cpu) : Sys :=
  loadWith Bus.read16 2 s vaddr fun v => k (if signExtend then sext16 v else v.setWidth 64)

def loadWord (s : Sys) (vaddr : U64) (signExtend : Bool) (k : U64 → Cpu → Cpu) : Sys :=
  loadWith Bus.read32 4 s vaddr fun v => k (if signExtend then sext32 v else v.setWidth 64)

def loadDouble (s : Sys) (vaddr : U64) (k : U64 → Cpu → Cpu) : Sys :=
  loadWith Bus.read64 8 s vaddr k

def storeByte (s : Sys) (vaddr : U64) (value : U8) : Sys := storeWith Bus.write8 1 s vaddr value
def storeHalf (s : Sys) (vaddr : U64) (value : U16) : Sys := storeWith Bus.write16 2 s vaddr value
def storeWord (s : Sys) (vaddr : U64) (value : U32) : Sys := storeWith Bus.write32 4 s vaddr value
def storeDouble (s : Sys) (vaddr : U64) (value : U64) : Sys := storeWith Bus.write64 8 s vaddr value

def rt32 (c : Cpu) (insn : U32) : U32 := (c.gpr (rt insn)).setWidth 32

def execLwl (s : Sys) (insn : U32) : Sys :=
  mergeLoad Bus.read32 4 s insn fun mem n c =>
    let mask := 0xFFFFFFFF#32 <<< ((3 - n) * 8)
    let merged := mem <<< ((3 - n) * 8)
    c.writeGpr (rt insn) (sext32 ((c.rt32 insn &&& ~~~mask) ||| (merged &&& mask)))

def execLwr (s : Sys) (insn : U32) : Sys :=
  mergeLoad Bus.read32 4 s insn fun mem n c =>
    let mask := 0xFFFFFFFF#32 >>> (n * 8)
    let merged := mem >>> (n * 8)
    c.writeGpr (rt insn) (sext32 ((c.rt32 insn &&& ~~~mask) ||| (merged &&& mask)))

def execSwl (s : Sys) (insn : U32) : Sys :=
  let reg := s.cpu.rt32 insn
  mergeStore Bus.read32 Bus.write32 4 s insn fun mem n =>
    let mask := 0xFFFFFFFF#32 <<< ((3 - n) * 8)
    (mem &&& ~~~mask) ||| ((reg >>> ((3 - n) * 8)) &&& mask)

def execSwr (s : Sys) (insn : U32) : Sys :=
  let reg := s.cpu.rt32 insn
  mergeStore Bus.read32 Bus.write32 4 s insn fun mem n =>
    let mask := 0xFFFFFFFF#32 >>> (n * 8)
    (mem &&& ~~~mask) ||| ((reg <<< (n * 8)) &&& mask)

def execLdl (s : Sys) (insn : U32) : Sys :=
  mergeLoad Bus.read64 8 s insn fun mem n c =>
    let mask := (~~~0#64) <<< ((7 - n) * 8)
    let merged := mem <<< ((7 - n) * 8)
    c.writeGpr (rt insn) ((c.gpr (rt insn) &&& ~~~mask) ||| (merged &&& mask))

def execLdr (s : Sys) (insn : U32) : Sys :=
  mergeLoad Bus.read64 8 s insn fun mem n c =>
    let mask := (~~~0#64) >>> (n * 8)
    let merged := mem >>> (n * 8)
    c.writeGpr (rt insn) ((c.gpr (rt insn) &&& ~~~mask) ||| (merged &&& mask))

def execSdl (s : Sys) (insn : U32) : Sys :=
  let reg := s.cpu.gpr (rt insn)
  mergeStore Bus.read64 Bus.write64 8 s insn fun mem n =>
    let mask := (~~~0#64) <<< ((7 - n) * 8)
    (mem &&& ~~~mask) ||| ((reg >>> ((7 - n) * 8)) &&& mask)

def execSdr (s : Sys) (insn : U32) : Sys :=
  let reg := s.cpu.gpr (rt insn)
  mergeStore Bus.read64 Bus.write64 8 s insn fun mem n =>
    let mask := (~~~0#64) >>> (n * 8)
    (mem &&& ~~~mask) ||| ((reg <<< (n * 8)) &&& mask)

/-- The COP0 write of `set_cop0`. -/
def setCop0Value (c : Cpu) (idx : BitVec 5) (v : U32) : Cpu :=
  if idx = Cop0Reg.Random ∨ idx = Cop0Reg.PRId then c
  else if idx = Cop0Reg.Index then c.setCop0Reg idx (v &&& (TLB_PROBE_FAIL ||| TLB_INDEX_MASK))
  else if idx = Cop0Reg.EntryLo0 ∨ idx = Cop0Reg.EntryLo1 then
    c.setCop0Reg idx (v &&& TLB_ENTRY_LO_MASK)
  else if idx = Cop0Reg.Context then
    c.setCop0Reg idx ((c.cop0 idx &&& 0x007FFFF0) ||| (v &&& 0xFF800000))
  else if idx = Cop0Reg.PageMask then c.setCop0Reg idx (v &&& TLB_PAGE_MASK)
  else if idx = Cop0Reg.Wired then
    (c.setCop0Reg idx (v &&& TLB_INDEX_MASK)).setCop0Reg Cop0Reg.Random 31
  else if idx = Cop0Reg.EntryHi then c.setCop0Reg idx (v &&& TLB_ENTRY_HI_MASK)
  else if idx = Cop0Reg.Compare then
    let c := c.setCop0Reg idx v
    c.setCop0Reg Cop0Reg.Cause (c.cop0 Cop0Reg.Cause &&& ~~~(1#32 <<< 15))
  else if idx = Cop0Reg.Cause then
    c.setCop0Reg idx ((c.cop0 idx &&& ~~~0x300#32) ||| (v &&& 0x300))
  else c.setCop0Reg idx v

def setCop0 (s : Sys) (idx : BitVec 5) (v : U32) : Sys :=
  let s := s.onCpu (·.setCop0Value idx v)
  if idx = Cop0Reg.EntryHi ∨ idx = Cop0Reg.Status then s.emit .flush else s

def tlbReadIndexed (c : Cpu) : Cpu :=
  let entry := c.tlb ((c.cop0 Cop0Reg.Index).setWidth 5)
  let c := c.setCop0Reg Cop0Reg.PageMask entry.pageMask
  let c := c.setCop0Reg Cop0Reg.EntryHi entry.entryHi
  let c := c.setCop0Reg Cop0Reg.EntryLo0 entry.entryLo0
  c.setCop0Reg Cop0Reg.EntryLo1 entry.entryLo1

def tlbWriteIndexed (c : Cpu) (index : U32) : Cpu :=
  let entry : TlbEntry :=
    { pageMask := c.cop0 Cop0Reg.PageMask &&& TLB_PAGE_MASK
      entryHi := c.cop0 Cop0Reg.EntryHi &&& TLB_ENTRY_HI_MASK
      entryLo0 := c.cop0 Cop0Reg.EntryLo0 &&& TLB_ENTRY_LO_MASK
      entryLo1 := c.cop0 Cop0Reg.EntryLo1 &&& TLB_ENTRY_LO_MASK }
  { c with tlb := Function.update c.tlb (index.setWidth 5) entry }

def tlbProbe (c : Cpu) : Cpu :=
  let query := c.cop0 Cop0Reg.EntryHi
  match c.tlbEntries.findIdx? fun e => e.hit query (query &&& 0xFF) with
  | some i => c.setCop0Reg Cop0Reg.Index (BitVec.ofNat 32 i)
  | none => c.setCop0Reg Cop0Reg.Index TLB_PROBE_FAIL

def doEret (c : Cpu) : Cpu :=
  let sr := c.status
  let erl : Bool := sr &&& SR_ERL ≠ 0
  let target : U64 :=
    (if erl then c.cop0 Cop0Reg.ErrorEPC else c.cop0 Cop0Reg.EPC).setWidth 64
  let c := c.setCop0Reg Cop0Reg.Status (if erl then sr &&& ~~~SR_ERL else sr &&& ~~~SR_EXL)
  { c with llBit := false, pc := target, nextPc := target, branchPending := false }

def execCop0Co (s : Sys) (c0fn : ℕ) : Sys :=
  match c0fn with
  | 0x01 => (s.onCpu tlbReadIndexed).emit .flush
  | 0x02 => (s.onCpu fun c => c.tlbWriteIndexed (c.cop0 Cop0Reg.Index)).emit .flush
  | 0x06 => (s.onCpu fun c => c.tlbWriteIndexed (c.cop0 Cop0Reg.Random)).emit .flush
  | 0x08 => s.onCpu tlbProbe
  | 0x18 => s.onCpu doEret
  | _ => s

def execCop0 (s : Sys) (insn : U32) : Sys :=
  if !s.cpu.coprocessorUsable 0 then s.onCpu (·.raiseUnusable 0)
  else
    match (rs insn).toNat with
    | 0x00 => s.onCpu fun c => c.writeGpr (rt insn) (sext32 (c.cop0 (rd insn)))
    | 0x01 => s.onCpu fun c => c.writeGpr (rt insn) ((c.cop0 (rd insn)).setWidth 64)
    | 0x04 => setCop0 s (rd insn) (s.cpu.rt32 insn)
    | 0x05 => setCop0 s (rd insn) (s.cpu.rt32 insn)
    | 0x10 => execCop0Co s (fn insn)
    | _ =>
      if insn &&& (1#32 <<< 25) ≠ 0 then
        if fn insn = 0x18 then s.onCpu doEret else s
      else s

def execCop2 (c : Cpu) : Cpu := if !c.coprocessorUsable 2 then c.raiseUnusable 2 else c

/-- LWC1 and SWC1 check the coprocessor first; LDC1 and SDC1 also the register. -/
def withCop1 (s : Sys) (k : Sys) : Sys :=
  if !s.cpu.coprocessorUsable 1 then s.onCpu (·.raiseUnusable 1) else k

def executeOp (fp : HostFpu) (s : Sys) (o : Op) (insn : U32) : Sys :=
  let c := s.cpu
  let rs64 := c.gpr (rs insn)
  let rt64 := c.gpr (rt insn)
  let rs32 : U32 := rs64.setWidth 32
  let imm64 : U64 := (imm insn).setWidth 64
  let addr := c.effective insn
  let toRt : U64 → Cpu → Cpu := fun v c => c.writeGpr (rt insn) v
  match o with
  | .SPECIAL => s.onCpu (·.execSpecial insn)
  | .REGIMM => s.onCpu (·.execRegimm insn)
  | .J => s.onCpu fun c => c.branchAbs (c.jumpTarget insn)
  | .JAL => s.onCpu fun c => (c.link 31).branchAbs (c.jumpTarget insn)
  | .BEQ => s.onCpu (·.branchIf (rs64 == rt64) insn)
  | .BNE => s.onCpu (·.branchIf (rs64 != rt64) insn)
  | .BLEZ => s.onCpu (·.branchIf (rs64.sle 0) insn)
  | .BGTZ => s.onCpu (·.branchIf (BitVec.slt 0 rs64) insn)
  | .BEQL => s.onCpu (·.branchLikelyIf (rs64 == rt64) insn)
  | .BNEL => s.onCpu (·.branchLikelyIf (rs64 != rt64) insn)
  | .BLEZL => s.onCpu (·.branchLikelyIf (rs64.sle 0) insn)
  | .BGTZL => s.onCpu (·.branchLikelyIf (BitVec.slt 0 rs64) insn)
  | .ADDI => s.onCpu (·.writeChecked32 (rt insn) (addOverflowS32 rs32 (simm32 insn)))
  | .ADDIU => s.onCpu (toRt (sext32 (rs32 + simm32 insn)))
  | .SLTI => s.onCpu (toRt (boolWord (rs64.slt (simm64 insn))))
  | .SLTIU => s.onCpu (toRt (boolWord (rs64.ult (simm64 insn))))
  | .ANDI => s.onCpu (toRt (rs64 &&& imm64))
  | .ORI => s.onCpu (toRt (rs64 ||| imm64))
  | .XORI => s.onCpu (toRt (rs64 ^^^ imm64))
  | .LUI => s.onCpu (toRt (sext32 ((imm insn).setWidth 32 <<< 16)))
  | .COP0 => execCop0 s insn
  | .COP1 => s.onCpu (execCop1 fp · insn)
  | .COP2 => s.onCpu execCop2
  | .DADDI => s.onCpu (·.writeChecked64 (rt insn) (addOverflowS64 rs64 (simm64 insn)))
  | .DADDIU => s.onCpu (toRt (rs64 + simm64 insn))
  | .LDL => execLdl s insn
  | .LDR => execLdr s insn
  | .LB => loadByte s addr true toRt
  | .LH => loadHalf s addr true toRt
  | .LWL => execLwl s insn
  | .LW => loadWord s addr true toRt
  | .LBU => loadByte s addr false toRt
  | .LHU => loadHalf s addr false toRt
  | .LWR => execLwr s insn
  | .LWU => loadWord s addr false toRt
  | .SB => storeByte s addr (rt64.setWidth 8)
  | .SH => storeHalf s addr (rt64.setWidth 16)
  | .SWL => execSwl s insn
  | .SW => storeWord s addr (rt64.setWidth 32)
  | .SDL => execSdl s insn
  | .SDR => execSdr s insn
  | .SWR => execSwr s insn
  | .CACHE => s
  | .LL => loadLinked Bus.read32 4 s insn sext32
  | .LLD => loadLinked Bus.read64 8 s insn id
  | .LD => loadDouble s addr toRt
  | .SC => storeConditional Bus.write32 4 s insn (rt64.setWidth 32)
  | .SCD => storeConditional Bus.write64 8 s insn rt64
  | .SD => storeDouble s addr rt64
  | .LWC1 =>
    withCop1 s (loadWord s addr false fun v c => c.writeFprWord (rt insn) (v.setWidth 32))
  | .LDC1 =>
    withCop1 s <|
      if !c.fpuFrMode ∧ rt insn &&& 1 ≠ 0 then s.onCpu raiseFpuUnimplemented
      else loadDouble s addr fun v c => c.setFprDouble (rt insn) v
  | .SWC1 => withCop1 s (storeWord s addr (c.readFprWord (rt insn)))
  | .SDC1 =>
    withCop1 s <|
      match c.readFprDouble (rt insn) with
      | none => s.onCpu raiseFpuUnimplemented
      | some v => storeDouble s addr v

def execute (fp : HostFpu) (s : Sys) (insn : U32) : Sys :=
  match Op.ofCode (op insn) with
  | some o => executeOp fp s o insn
  | none => s.onCpu reserved

theorem execute_of_code (fp : HostFpu) (s : Sys) {insn : U32} (o : Op)
    (code : Op.ofCode (op insn) = some o) : execute fp s insn = executeOp fp s o insn := by
  rw [execute, code]

/-- `fetch`: the word, or zero with the exception raised. -/
def fetch (s : Sys) (vaddr : U64) : U32 × Sys :=
  if vaddr &&& 3 ≠ 0 then (0, s.onCpu (·.raiseException ExcCode.AdEL vaddr 0 false))
  else
    match s.cpu.translateOrRaise vaddr vaddr false with
    | .error c => (0, { s with cpu := c })
    | .ok p => Bus.read32 s p

/-- The mark a fetch leaves; a step records it after its other events. -/
def fetchEvents (c : Cpu) (vaddr : U64) : List Event :=
  match c.translateAddress vaddr false with
  | .ok p => [.load p 4]
  | .error _ => []

def retire (c : Cpu) : Cpu :=
  let c := { c with gpr := Function.update c.gpr 0 0 }
  let c := c.advanceCount
  { c with cycles := c.cycles + 1, inDelaySlot := false }

/-- The program counters before the instruction at `pc` executes. -/
def enterStep (c : Cpu) : Cpu :=
  if c.branchPending then c else { c with nextPc := c.pc + 4, branchPending := false }

/-- The program counters after an instruction at `insnPc` that did not raise. -/
def advancePc (c : Cpu) (insnPc : U64) (delaySlot : Bool) : Cpu :=
  if delaySlot then { c with pc := c.nextPc, nextPc := c.nextPc + 4, branchPending := false }
  else if c.branchPending then { c with pc := insnPc + 4 }
  else { c with pc := c.nextPc, nextPc := c.nextPc + 4 }

/-- Execute a fetched word and finish the step; `excBefore` is the exception
count before the fetch. -/
def finishStep (fp : HostFpu) (s : Sys) (insnPc : U64) (delaySlot : Bool) (excBefore : U64)
    (insn : U32) : Sys :=
  let s := execute fp (s.onCpu enterStep) insn
  if s.cpu.exceptionCount ≠ excBefore then
    s.onCpu fun c => { c.retire with branchPending := false }
  else s.onCpu fun c => (c.advancePc insnPc delaySlot).retire

def stepInsn (fp : HostFpu) (s : Sys) : Sys :=
  let insnPc := s.cpu.pc
  let delaySlot := s.cpu.branchPending
  let s := s.onCpu fun c => { c with inDelaySlot := delaySlot }
  let excBefore := s.cpu.exceptionCount
  let marks := fetchEvents s.cpu insnPc
  let (insn, s) := fetch s insnPc
  if s.cpu.exceptionCount ≠ excBefore then s.onCpu retire
  else (finishStep fp s insnPc delaySlot excBefore insn).emitAll marks

def step (fp : HostFpu) (s : Sys) : Sys :=
  if s.cpu.halted then s.onCpu fun c => { c with cycles := c.cycles + 1 }
  else if s.cpu.branchPending then stepInsn fp s
  else
    let excBeforeIrq := s.cpu.exceptionCount
    let s := s.onCpu checkInterrupts
    if s.cpu.exceptionCount ≠ excBeforeIrq then s.onCpu retire
    else stepInsn fp s

end Cpu

end N64
