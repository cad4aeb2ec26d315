import N64Emu.CpuControl
import N64Emu.BusRead

/-!
# The basic-block cache

A direct-mapped table of fetched instruction words. Slots whose index does not
follow from the physical address are listed apart, and each of them knows its
position in that list. The hit and miss counters are left out.
-/

set_option autoImplicit false

namespace N64

open Words Loops Insn

def isBranchOrJump (insn : U32) : Bool :=
  match op insn with
  | 0x00 => fn insn = 0x08 || fn insn = 0x09
  | 0x01 =>
    match (rt insn).toNat with
    | 0x00 | 0x01 | 0x02 | 0x03 | 0x10 | 0x11 | 0x12 | 0x13 => true
    | _ => false
  | 0x02 | 0x03 | 0x04 | 0x05 | 0x06 | 0x07 | 0x14 | 0x15 | 0x16 | 0x17 => true
  | 0x11 => rs insn = 0x08
  | _ => false

def isTerminalNoDelay (insn : U32) : Bool :=
  if op insn = 0x00 then fn insn = 0x0C || fn insn = 0x0D
  else if op insn = 0x10 then
    if rs insn = 0x10 then
      fn insn = 0x01 || fn insn = 0x02 || fn insn = 0x06 || fn insn = 0x08 || fn insn = 0x18
    else if rs insn = 0x04 then
      rd insn = 12 || rd insn = 13 || rd insn = 11 || rd insn = 10 || rd insn = 16
    else false
  else false

/-- A fetched block. `paddrs` is a ghost: where each word was read, which the
source computes and does not keep. -/
structure BasicBlock where
  startPc : U64 := 0
  paddr : PhysicalAddress := 0
  insns : List U32 := []
  endsWithBranch : Bool := false
  paddrs : List PhysicalAddress := []
  deriving DecidableEq

namespace BasicBlock

def blkStart (b : BasicBlock) : ℕ := b.paddr.toNat

def blkEnd (b : BasicBlock) : ℕ := b.blkStart + b.insns.length * 4

/-- The test `invalidate` makes against the range `[paddr, pEnd)`. -/
def overlaps (b : BasicBlock) (paddr pEnd : ℕ) : Bool := paddr < b.blkEnd && pEnd > b.blkStart

end BasicBlock

structure Slot where
  tagPc : U64 := ~~~0
  block : BasicBlock := {}
  valid : Bool := false
  aliasedPosition : Option ℕ := none
  deriving DecidableEq

structure BlockCache where
  table : ℕ → Slot := fun _ => {}
  physicallyAliasedSlots : List ℕ := []
  count : ℕ := 0

namespace BlockCache

def kMaxBlockInsns : ℕ := 32
def kDirectTableSize : ℕ := 65536

/-- `(vaddr >> 2) & kDirectTableMask`. -/
def slotIndex (vaddr : U64) : ℕ := (vaddr >>> 2).toNat % kDirectTableSize

def setSlot (c : BlockCache) (i : ℕ) (slot : Slot) : BlockCache :=
  { c with table := Function.update c.table i slot }

def setAliased (c : BlockCache) (i : ℕ) (position : Option ℕ) : BlockCache :=
  c.setSlot i { c.table i with aliasedPosition := position }

def markPhysicallyAliased (c : BlockCache) (i : ℕ) : BlockCache :=
  match (c.table i).aliasedPosition with
  | some _ => c
  | none =>
    { c.setAliased i (some c.physicallyAliasedSlots.length) with
        physicallyAliasedSlots := c.physicallyAliasedSlots ++ [i] }

def unmarkPhysicallyAliased (c : BlockCache) (i : ℕ) : BlockCache :=
  match (c.table i).aliasedPosition with
  | none => c
  | some position =>
    let replacement := c.physicallyAliasedSlots.getLastD 0
    let slots := (c.physicallyAliasedSlots.set position replacement).dropLast
    let c := c.setAliased replacement (some position)
    { c.setAliased i none with physicallyAliasedSlots := slots }

def invalidateSlot (c : BlockCache) (i : ℕ) : BlockCache :=
  if !(c.table i).valid then c
  else
    let c := c.unmarkPhysicallyAliased i
    { c.setSlot i { c.table i with valid := false, tagPc := ~~~0 } with count := c.count - 1 }

def lookup (c : BlockCache) (vaddr : U64) : Option BasicBlock :=
  let slot := c.table (slotIndex vaddr)
  if slot.valid ∧ slot.tagPc = vaddr then some slot.block else none

/-- The words from `currPc` on, each with its address, and whether a branch
ended them. -/
def fetchWords (s : Sys) : ℕ → U64 → List (PhysicalAddress × U32) × Bool
  | 0, _ => ([], false)
  | fuel+1, currPc =>
    match s.cpu.translateAddress currPc false with
    | .error _ => ([], false)
    | .ok paddr =>
      let insn := Bus.read32Const s paddr
      if isBranchOrJump insn then
        match s.cpu.translateAddress (currPc + 4) false with
        | .error _ => ([(paddr, insn)], true)
        | .ok delay => ([(paddr, insn), (delay, Bus.read32Const s delay)], true)
      else if isTerminalNoDelay insn then ([(paddr, insn)], false)
      else if (currPc + 4) &&& 0xFFF = 0 then ([(paddr, insn)], false)
      else
        let rest := fetchWords s fuel (currPc + 4)
        ((paddr, insn) :: rest.1, rest.2)

/-- The block `compile` builds for `vaddr`. -/
def buildBlock (s : Sys) (vaddr : U64) (firstPaddr : PhysicalAddress) : BasicBlock :=
  let words := fetchWords s kMaxBlockInsns vaddr
  { startPc := vaddr
    paddr := firstPaddr
    insns := words.1.map (·.2)
    endsWithBranch := words.2
    paddrs := words.1.map (·.1) }

def directMapped (vaddr : U64) (firstPaddr : PhysicalAddress) : Bool :=
  let virtual32 : U32 := vaddr.setWidth 32
  0x80000000 ≤ virtual32.toNat && virtual32.toNat ≤ 0xBFFFFFFF &&
    firstPaddr = virtual32 &&& 0x1FFFFFFF

/-- The table entry `compile` makes of a block. -/
def insert (c : BlockCache) (vaddr : U64) (blk : BasicBlock) : BlockCache :=
  let idx := slotIndex vaddr
  let c := c.unmarkPhysicallyAliased idx
  let count := if (c.table idx).valid then c.count else c.count + 1
  let c := { c.setSlot idx { c.table idx with tagPc := vaddr, block := blk, valid := true } with
    count := count }
  if directMapped vaddr blk.paddr then c else c.markPhysicallyAliased idx

def compile (c : BlockCache) (s : Sys) (vaddr : U64) : Option BasicBlock × BlockCache :=
  match s.cpu.translateAddress vaddr false with
  | .error _ => (none, c)
  | .ok firstPaddr =>
    let blk := buildBlock s vaddr firstPaddr
    if blk.insns.isEmpty then (none, c) else (some blk, c.insert vaddr blk)

def clear (c : BlockCache) : BlockCache :=
  { table := fun i =>
      if i < kDirectTableSize then
        { c.table i with valid := false, tagPc := ~~~0, aliasedPosition := none }
      else c.table i
    physicallyAliasedSlots := []
    count := 0 }

/-- One candidate word of `invalidate`. -/
def invalidateWord (paddr pEnd word : ℕ) (c : BlockCache) : BlockCache :=
  let i := word % kDirectTableSize
  if (c.table i).valid && (c.table i).block.overlaps paddr pEnd then c.invalidateSlot i else c

/-- One pass of the loop over the aliased slots, with its cursor. -/
def invalidateAliased (paddr pEnd : ℕ) (t : BlockCache × ℕ) : BlockCache × ℕ :=
  let slotIndex := t.1.physicallyAliasedSlots.getD t.2 0
  if (t.1.table slotIndex).block.overlaps paddr pEnd then (t.1.invalidateSlot slotIndex, t.2)
  else (t.1, t.2 + 1)

def invalidate (c : BlockCache) (paddr : PhysicalAddress) (size : U32) : BlockCache :=
  if size = 0 then c.clear
  else if size.toNat ≥ kDirectTableSize * 4 then c.clear
  else
    let pEnd := paddr.toNat + size.toNat
    let firstWord := paddr.toNat / 4
    let lastWord := (pEnd - 1) / 4
    let firstCandidate := firstWord - kMaxBlockInsns
    let c := upTo (fun i c => invalidateWord paddr.toNat pEnd (firstCandidate + i) c)
      (lastWord + 1 - firstCandidate) c
    -- each pass removes a slot or moves the cursor, so the list bounds the passes
    (whileDo (fun t => t.2 < t.1.physicallyAliasedSlots.length)
      (invalidateAliased paddr.toNat pEnd) c.physicallyAliasedSlots.length (c, 0)).1

end BlockCache

end N64
