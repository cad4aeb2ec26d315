import N64Emu.CpuEffect
import N64Emu.DeviceInvariant

/-!
# What an instruction can do to the machine

One inversion for the whole instruction set: an instruction stays in the CPU,
reads or writes the bus at a translated address, or changes COP0 when the mode
allows it. Every invariant of the step is proved from these cases.
-/

set_option autoImplicit false

namespace N64

open Words Insn

def isLoadLinked (insn : U32) : Prop := op insn = 0x30 ∨ op insn = 0x34

def isStoreConditional (insn : U32) : Prop := op insn = 0x38 ∨ op insn = 0x3C

def isEret (insn : U32) : Prop := op insn = 0x10 ∧ insn &&& (1#32 <<< 25) ≠ 0 ∧ fn insn = 0x18

def isMoveToCop0 (insn : U32) : Prop := op insn = 0x10 ∧ (rs insn = 4 ∨ rs insn = 5)

def isTlbWriteIndexed (insn : U32) : Prop := op insn = 0x10 ∧ rs insn = 0x10 ∧ fn insn = 0x02

namespace Sys

/-- A typed write of the bus at `p` and its size. -/
inductive Wrote (p : PhysicalAddress) (s : Sys) : ℕ → Sys → Prop
  | byte (v : U8) : Wrote p s 1 (Bus.write8 s p v)
  | half (v : U16) : Wrote p s 2 (Bus.write16 s p v)
  | word (v : U32) : Wrote p s 4 (Bus.write32 s p v)
  | double (v : U64) : Wrote p s 8 (Bus.write64 s p v)

theorem Wrote.frame {p : PhysicalAddress} {s t : Sys} {size : ℕ} (h : Wrote p s size t) :
    Frame Part.all s t := by
  cases h with
  | byte v => exact frame_write8 s p v
  | half v => exact frame_write16 s p v
  | word v => exact frame_write32 s p v
  | double v => exact frame_write64 s p v

theorem Wrote.preserves {P : Sys → Prop} (inv : DeviceInvariant P) {p : PhysicalAddress} {s t : Sys}
    {size : ℕ} (h : Wrote p s size t) (start : P s) : P t := by
  cases h with
  | byte v => exact inv.write8 p v start
  | half v => exact inv.write16 p v start
  | word v => exact inv.write32 p v start
  | double v => exact inv.write64 p v start

/-- The state in which a store writes: an unaligned store has read the word. -/
inductive BeforeStore (p : PhysicalAddress) (size : ℕ) (s : Sys) : Sys → Prop
  | aligned : BeforeStore p size s s
  | merge {u : Sys} (read : Frame [] (s.emit (.load p size)) u) : BeforeStore p size s u

inductive Effect (insn : U32) (s : Sys) : Sys → Prop
  | cpu {c : Cpu} (h : Cpu.Effect insn s.cpu c) : Effect insn s { s with cpu := c }
  | load {vaddr : U64} {p : PhysicalAddress} {size : ℕ} {u : Sys} {c : Cpu}
      (translated : s.cpu.translateAddress vaddr false = .ok p)
      (read : Frame [] (s.emit (.load p size)) u) (same : Cpu.Straight s.cpu c) :
      Effect insn s { u with cpu := c }
  | linked {vaddr : U64} {p : PhysicalAddress} {size : ℕ} {u : Sys} {c : Cpu}
      (code : isLoadLinked insn) (translated : s.cpu.translateAddress vaddr false = .ok p)
      (read : Frame [] (s.emit (.load p size)) u) (same : Cpu.Straight s.cpu c) :
      Effect insn s { u with cpu := { c with llBit := true, llAddr := p.setWidth 64 } }
  | store {vaddr : U64} {p : PhysicalAddress} {size : ℕ} {u t : Sys}
      (translated : s.cpu.translateAddress vaddr true = .ok p) (before : BeforeStore p size s u)
      (wrote : Wrote p (u.emit (.store p size)) size t) : Effect insn s (t.onCpu Cpu.clearLlBit)
  | conditional {vaddr : U64} {p : PhysicalAddress} {size : ℕ} {t : Sys}
      (code : isStoreConditional insn) (reserved : s.cpu.llBit = true)
      (same : p.setWidth 64 = s.cpu.llAddr)
      (translated : s.cpu.translateAddress vaddr true = .ok p)
      (wrote : Wrote p ((s.onCpu Cpu.clearLlBit).emit (.store p size)) size t) :
      Effect insn s (t.onCpu (·.writeGpr (rt insn) 1))
  | refused {d : Cpu} (code : isStoreConditional insn) (same : Cpu.Straight s.cpu.clearLlBit d) :
      Effect insn s { s with cpu := d }
  | setCop0 (usable : s.cpu.coprocessorUsable 0 = true) (code : isMoveToCop0 insn) (v : U32) :
      Effect insn s (Cpu.setCop0 s (rd insn) v)
  | tlbRead (usable : s.cpu.coprocessorUsable 0 = true) :
      Effect insn s ((s.onCpu Cpu.tlbReadIndexed).emit .flush)
  | tlbWrite (usable : s.cpu.coprocessorUsable 0 = true) (index : U32)
      (source : index = s.cpu.cop0 Cop0Reg.Index ∧ isTlbWriteIndexed insn ∨
        index = s.cpu.cop0 Cop0Reg.Random) :
      Effect insn s ((s.onCpu (·.tlbWriteIndexed index)).emit .flush)
  | tlbProbe (usable : s.cpu.coprocessorUsable 0 = true) : Effect insn s (s.onCpu Cpu.tlbProbe)
  | eret (usable : s.cpu.coprocessorUsable 0 = true) (code : isEret insn) :
      Effect insn s (s.onCpu Cpu.doEret)

end Sys

namespace Cpu

section Faults

variable {c d : Cpu} {vaddr bad : U64} {isStore : Bool}

/-- A fault of the translation of an access, at the address that is reported. -/
theorem translateOrRaise_error
    (block : ∀ f, c.translateAddress vaddr isStore = .error f ↔
      c.translateAddress bad isStore = .error f)
    (h : c.translateOrRaise vaddr bad isStore = .error d) :
    ∃ code refill, Missed c code bad refill ∧ d = c.raiseException code bad 0 refill := by
  unfold translateOrRaise at h
  cases fault : c.translateAddress vaddr isStore with
  | ok p => rw [fault] at h; cases h
  | error f =>
    rw [fault] at h
    cases h
    obtain ⟨code, refill, miss, raises⟩ := missed_translation ((block f).mp fault)
    exact ⟨code, refill, miss, raises bad⟩

theorem translateOrRaise_ok {p : PhysicalAddress}
    (h : c.translateOrRaise vaddr bad isStore = .ok p) :
    c.translateAddress vaddr isStore = .ok p := by
  unfold translateOrRaise at h
  cases fault : c.translateAddress vaddr isStore with
  | ok q => rw [fault] at h; cases h; rfl
  | error f => rw [fault] at h; cases h

theorem probe_error {size : U64} (h : c.probe vaddr size isStore = .error d) :
    ∃ code refill, Missed c code vaddr refill ∧ d = c.raiseException code vaddr 0 refill := by
  unfold probe at h
  split at h
  · cases h
    refine ⟨_, false, ?_, rfl⟩
    cases isStore <;> exact missed_other (by decide)
  · exact translateOrRaise_error (fun _ => Iff.rfl) h

theorem probe_ok {size : U64} {p : PhysicalAddress} (h : c.probe vaddr size isStore = .ok p) :
    c.translateAddress vaddr isStore = .ok p := by
  unfold probe at h
  split at h
  · cases h
  · exact translateOrRaise_ok h

end Faults

section Access

variable {α : Type} {insn : U32} {s : Sys} {size : ℕ}

theorem effect_raised {code : U32} {bad : U64} {refill : Bool}
    (miss : Missed s.cpu code bad refill) :
    s.Effect insn { s with cpu := s.cpu.raiseException code bad 0 refill } :=
  .cpu (.raised s.cpu.fcr31 s.cpu.unknownOpcodeCount s.cpu.llBit miss)

theorem effect_access {r : Except Cpu PhysicalAddress} {k : PhysicalAddress → Sys}
    (fault : ∀ d, r = .error d → ∃ code bad refill,
      Missed s.cpu code bad refill ∧ d = s.cpu.raiseException code bad 0 refill)
    (go : ∀ p, r = .ok p → s.Effect insn (k p)) : s.Effect insn (s.access r k) := by
  cases h : r with
  | error d =>
    obtain ⟨code, bad, refill, miss, rfl⟩ := fault d h
    exact effect_raised miss
  | ok p => exact go p h

def PureRead (read : Sys → U32 → α × Sys) : Prop := ∀ s p, Frame [] s (read s p).2

def TypedWrite (size : ℕ) (write : Sys → U32 → α → Sys) : Prop :=
  ∀ s p v, Sys.Wrote p s size (write s p v)

theorem frame_cpu {t u : Sys} (h : Frame [] t u) : u.cpu = t.cpu :=
  congrArg Prod.fst (h.parts .irq List.not_mem_nil)

variable {read : Sys → U32 → α × Sys} {write : Sys → U32 → α → Sys}

theorem pureRead_read8 : PureRead Bus.read8 := frame_read8
theorem pureRead_read16 : PureRead Bus.read16 := frame_read16
theorem pureRead_read32 : PureRead Bus.read32 := frame_read32
theorem pureRead_read64 : PureRead Bus.read64 := frame_read64

theorem typed_write8 : TypedWrite 1 Bus.write8 := fun _ _ v => .byte v
theorem typed_write16 : TypedWrite 2 Bus.write16 := fun _ _ v => .half v
theorem typed_write32 : TypedWrite 4 Bus.write32 := fun _ _ v => .word v
theorem typed_write64 : TypedWrite 8 Bus.write64 := fun _ _ v => .double v

theorem effect_readInto (pure : PureRead read) {vaddr : U64} {p : PhysicalAddress}
    (translated : s.cpu.translateAddress vaddr false = .ok p) {k : α → Cpu → Cpu}
    (straight : ∀ v d, Straight d (k v d)) : s.Effect insn (readInto read size s p k) := by
  have frame := pure (s.emit (.load p size)) p
  have same : (read (s.emit (.load p size)) p).2.cpu = s.cpu := (frame_cpu frame).trans rfl
  refine .load translated frame ?_
  rw [same]
  exact straight _ _

theorem effect_loadWith (pure : PureRead read) {vaddr : U64} {k : α → Cpu → Cpu}
    (straight : ∀ v d, Straight d (k v d)) : s.Effect insn (loadWith read size s vaddr k) := by
  refine effect_access (fun d h => ?_) fun p h => effect_readInto pure (probe_ok h) straight
  obtain ⟨code, refill, raised⟩ := probe_error h
  exact ⟨code, vaddr, refill, raised⟩

theorem effect_loadLinked (pure : PureRead read) (code : isLoadLinked insn) (conv : α → U64) :
    s.Effect insn (loadLinked read size s insn conv) := by
  refine effect_access (fun d h => ?_) fun p h => ?_
  · obtain ⟨code, refill, raised⟩ := probe_error h
    exact ⟨code, _, refill, raised⟩
  · have frame := pure (s.emit (.load p size)) p
    have same : (read (s.emit (.load p size)) p).2.cpu = s.cpu := (frame_cpu frame).trans rfl
    refine .linked code (probe_ok h) frame ?_
    rw [same]
    exact straight_writeGpr _ _

theorem effect_storeWith (typed : TypedWrite size write) (vaddr : U64) (value : α) :
    s.Effect insn (storeWith write size s vaddr value) := by
  refine effect_access (fun d h => ?_) fun p h => .store (probe_ok h) .aligned (typed _ p value)
  obtain ⟨code, refill, raised⟩ := probe_error h
  exact ⟨code, vaddr, refill, raised⟩

theorem merge_error {c d : Cpu} {addr lowMask : U64} {isStore : Bool} (low : lowMask.toNat < 8)
    (h : c.translateOrRaise (addr &&& ~~~lowMask) addr isStore = .error d) :
    ∃ code bad refill, Missed c code bad refill ∧ d = c.raiseException code bad 0 refill := by
  obtain ⟨code, refill, raised⟩ :=
    translateOrRaise_error (fun f => translateAddress_align c low addr isStore f) h
  exact ⟨code, addr, refill, raised⟩

theorem effect_mergeLoad (pure : PureRead read) (small : (BitVec.ofNat 64 (size - 1)).toNat < 8)
    {k : α → ℕ → Cpu → Cpu} (straight : ∀ v n d, Straight d (k v n d)) :
    s.Effect insn (mergeLoad read size s insn k) :=
  effect_access (fun _ h => merge_error small h) fun _ h =>
    effect_readInto pure (translateOrRaise_ok h) fun v => straight v _

theorem effect_mergeStore (pure : PureRead read) (typed : TypedWrite size write)
    (small : (BitVec.ofNat 64 (size - 1)).toNat < 8) (merge : α → ℕ → α) :
    s.Effect insn (mergeStore read write size s insn merge) :=
  effect_access (fun _ h => merge_error small h) fun p h =>
    .store (translateOrRaise_ok h) (.merge (pure (s.emit (.load p size)) p)) (typed _ p _)

theorem effect_storeConditional (typed : TypedWrite size write) (code : isStoreConditional insn)
    (value : α) : s.Effect insn (storeConditional write size s insn value) := by
  simp only [storeConditional]
  cases h : (s.onCpu clearLlBit).cpu.probeWrite (s.cpu.effective insn) (BitVec.ofNat 64 size) with
  | error d =>
    obtain ⟨code, refill, miss, rfl⟩ := probe_error h
    exact .cpu (.raised s.cpu.fcr31 s.cpu.unknownOpcodeCount false ⟨miss.field, miss.refill_iff⟩)
  | ok p =>
    have cleared := probe_ok h
    have translated : s.cpu.translateAddress (s.cpu.effective insn) true = .ok p := cleared
    simp only [Sys.access]
    split
    case isTrue granted => exact .conditional code granted.1 granted.2 translated (typed _ p value)
    case isFalse => exact .refused code (straight_writeGpr _ _)

end Access

section Cop0

variable {insn : U32} {s : Sys}

theorem effect_onCpu {f : Cpu → Cpu} (h : Effect insn s.cpu (f s.cpu)) :
    s.Effect insn (s.onCpu f) :=
  .cpu h

theorem effect_nothing : s.Effect insn s := .cpu (.straight Straight.refl)

theorem rs_co (co : rs insn = 0x10) : insn &&& (1#32 <<< 25) ≠ 0 := by
  intro clear
  have set := congrArg (fun x => x.getLsbD 4) co
  have bit := congrArg (fun x => x.getLsbD 25) clear
  simp [rs] at set
  simp [set] at bit

theorem effect_execCop0Co (usable : s.cpu.coprocessorUsable 0 = true) (code : op insn = 0x10)
    (co : rs insn = 0x10) : s.Effect insn (execCop0Co s (fn insn)) := by
  unfold execCop0Co
  split
  · exact .tlbRead usable
  case h_2 field => exact .tlbWrite usable _ (Or.inl ⟨rfl, code, co, field⟩)
  · exact .tlbWrite usable _ (Or.inr rfl)
  · exact .tlbProbe usable
  case h_5 field =>
    exact .eret usable ⟨code, rs_co co, field⟩
  · exact effect_nothing

theorem effect_execCop0 (code : op insn = 0x10) : s.Effect insn (execCop0 s insn) := by
  unfold execCop0
  split
  · exact effect_onCpu (effect_raiseUnusable _)
  case isFalse able =>
    have usable : s.cpu.coprocessorUsable 0 = true := by simpa using able
    split
    · exact effect_onCpu (effect_writeGpr _ _)
    · exact effect_onCpu (effect_writeGpr _ _)
    case h_3 field => exact .setCop0 usable ⟨code, Or.inl (BitVec.eq_of_toNat_eq field)⟩ _
    case h_4 field => exact .setCop0 usable ⟨code, Or.inr (BitVec.eq_of_toNat_eq field)⟩ _
    case h_5 field => exact effect_execCop0Co usable code (BitVec.eq_of_toNat_eq field)
    · split_ifs
      case pos co eret => exact .eret usable ⟨code, co, eret⟩
      · exact effect_nothing
      · exact effect_nothing

theorem effect_withCop1 {k : Sys} (h : s.Effect insn k) : s.Effect insn (withCop1 s k) := by
  unfold withCop1
  split
  · exact effect_onCpu (effect_raiseUnusable _)
  · exact h

end Cop0

section Dispatch

variable {insn : U32} {s : Sys}

theorem effect_jump {f : Cpu → Cpu} (same : Quiet s.cpu (f s.cpu))
    (jumps : isBranchOrJump insn = true) : s.Effect insn (s.onCpu f) :=
  effect_onCpu (.branch same jumps)

theorem effect_toRt (idx : BitVec 5) (value : U64) :
    s.Effect insn (s.onCpu (·.writeGpr idx value)) :=
  effect_onCpu (effect_writeGpr idx value)

section Memory

variable (vaddr : U64)

theorem effect_loadByte (signExtend : Bool) {k : U64 → Cpu → Cpu}
    (straight : ∀ v d, Straight d (k v d)) : s.Effect insn (loadByte s vaddr signExtend k) :=
  effect_loadWith pureRead_read8 fun _ d => straight _ d

theorem effect_loadHalf (signExtend : Bool) {k : U64 → Cpu → Cpu}
    (straight : ∀ v d, Straight d (k v d)) : s.Effect insn (loadHalf s vaddr signExtend k) :=
  effect_loadWith pureRead_read16 fun _ d => straight _ d

theorem effect_loadWord (signExtend : Bool) {k : U64 → Cpu → Cpu}
    (straight : ∀ v d, Straight d (k v d)) : s.Effect insn (loadWord s vaddr signExtend k) :=
  effect_loadWith pureRead_read32 fun _ d => straight _ d

theorem effect_loadDouble {k : U64 → Cpu → Cpu} (straight : ∀ v d, Straight d (k v d)) :
    s.Effect insn (loadDouble s vaddr k) :=
  effect_loadWith pureRead_read64 straight

theorem effect_storeByte (value : U8) : s.Effect insn (storeByte s vaddr value) :=
  effect_storeWith typed_write8 vaddr value

theorem effect_storeHalf (value : U16) : s.Effect insn (storeHalf s vaddr value) :=
  effect_storeWith typed_write16 vaddr value

theorem effect_storeWord (value : U32) : s.Effect insn (storeWord s vaddr value) :=
  effect_storeWith typed_write32 vaddr value

theorem effect_storeDouble (value : U64) : s.Effect insn (storeDouble s vaddr value) :=
  effect_storeWith typed_write64 vaddr value

theorem effect_execLwl : s.Effect insn (execLwl s insn) :=
  effect_mergeLoad pureRead_read32 (by decide) fun _ _ _ => straight_writeGpr _ _

theorem effect_execLwr : s.Effect insn (execLwr s insn) :=
  effect_mergeLoad pureRead_read32 (by decide) fun _ _ _ => straight_writeGpr _ _

theorem effect_execLdl : s.Effect insn (execLdl s insn) :=
  effect_mergeLoad pureRead_read64 (by decide) fun _ _ _ => straight_writeGpr _ _

theorem effect_execLdr : s.Effect insn (execLdr s insn) :=
  effect_mergeLoad pureRead_read64 (by decide) fun _ _ _ => straight_writeGpr _ _

theorem effect_execSwl : s.Effect insn (execSwl s insn) := by
  simp only [execSwl]
  exact effect_mergeStore pureRead_read32 typed_write32 (by decide) _

theorem effect_execSwr : s.Effect insn (execSwr s insn) := by
  simp only [execSwr]
  exact effect_mergeStore pureRead_read32 typed_write32 (by decide) _

theorem effect_execSdl : s.Effect insn (execSdl s insn) := by
  simp only [execSdl]
  exact effect_mergeStore pureRead_read64 typed_write64 (by decide) _

theorem effect_execSdr : s.Effect insn (execSdr s insn) := by
  simp only [execSdr]
  exact effect_mergeStore pureRead_read64 typed_write64 (by decide) _

end Memory

theorem effect_executeOp (fp : HostFpu) (o : Op) (h : Op.ofCode (op insn) = some o) :
    s.Effect insn (executeOp fp s o insn) := by
  have gpr : ∀ (v : U64) (d : Cpu), Straight d (d.writeGpr (rt insn) v) :=
    fun v d => straight_writeGpr _ v
  unfold Op.ofCode at h
  split at h <;> cases h <;> dsimp only [executeOp]
  case h_1 code => exact effect_onCpu (effect_execSpecial code)
  case h_2 code => exact effect_onCpu (effect_execRegimm code)
  case h_3 code => exact effect_jump (quiet_branchAbs _) (by simp [isBranchOrJump, code])
  case h_4 code =>
    exact effect_jump ((straight_writeGpr _ _).toQuiet.trans (quiet_branchAbs _))
      (by simp [isBranchOrJump, code])
  case h_5 code => exact effect_jump (quiet_branchIf _ _) (by simp [isBranchOrJump, code])
  case h_6 code => exact effect_jump (quiet_branchIf _ _) (by simp [isBranchOrJump, code])
  case h_7 code => exact effect_jump (quiet_branchIf _ _) (by simp [isBranchOrJump, code])
  case h_8 code => exact effect_jump (quiet_branchIf _ _) (by simp [isBranchOrJump, code])
  case h_17 code => exact effect_execCop0 code
  case h_18 code => exact effect_onCpu (effect_execCop1 fp code)
  case h_9 => exact effect_onCpu (effect_writeChecked32 _ _)
  case h_19 =>
    refine effect_onCpu ?_
    unfold execCop2
    split
    · exact effect_raiseUnusable _
    · exact .straight Straight.refl
  case h_20 code => exact effect_jump (quiet_branchLikelyIf _ _) (by simp [isBranchOrJump, code])
  case h_21 code => exact effect_jump (quiet_branchLikelyIf _ _) (by simp [isBranchOrJump, code])
  case h_22 code => exact effect_jump (quiet_branchLikelyIf _ _) (by simp [isBranchOrJump, code])
  case h_23 code => exact effect_jump (quiet_branchLikelyIf _ _) (by simp [isBranchOrJump, code])
  case h_24 => exact effect_onCpu (effect_writeChecked64 _ _)
  case h_26 => exact effect_execLdl
  case h_27 => exact effect_execLdr
  case h_28 => exact effect_loadByte _ _ gpr
  case h_29 => exact effect_loadHalf _ _ gpr
  case h_30 => exact effect_execLwl
  case h_31 => exact effect_loadWord _ _ gpr
  case h_32 => exact effect_loadByte _ _ gpr
  case h_33 => exact effect_loadHalf _ _ gpr
  case h_34 => exact effect_execLwr
  case h_35 => exact effect_loadWord _ _ gpr
  case h_36 => exact effect_storeByte _ _
  case h_37 => exact effect_storeHalf _ _
  case h_38 => exact effect_execSwl
  case h_39 => exact effect_storeWord _ _
  case h_40 => exact effect_execSdl
  case h_41 => exact effect_execSdr
  case h_42 => exact effect_execSwr
  case h_43 => exact effect_nothing
  case h_44 code => exact effect_loadLinked pureRead_read32 (Or.inl code) _
  case h_45 =>
    exact effect_withCop1 (effect_loadWord _ _ fun _ _ => straight_writeFprWord _ _)
  case h_46 code => exact effect_loadLinked pureRead_read64 (Or.inr code) _
  case h_47 =>
    refine effect_withCop1 ?_
    split
    · exact effect_onCpu effect_raiseFpuUnimplemented
    · exact effect_loadDouble _ fun _ _ => straight_setFprDouble _ _
  case h_48 => exact effect_loadDouble _ gpr
  case h_49 code => exact effect_storeConditional typed_write32 (Or.inl code) _
  case h_50 => exact effect_withCop1 (effect_storeWord _ _)
  case h_51 code => exact effect_storeConditional typed_write64 (Or.inr code) _
  case h_52 =>
    refine effect_withCop1 ?_
    split
    · exact effect_onCpu effect_raiseFpuUnimplemented
    · exact effect_storeDouble _ _
  case h_53 => exact effect_storeDouble _ _
  all_goals exact effect_toRt _ _

theorem effect_execute (fp : HostFpu) : s.Effect insn (execute fp s insn) := by
  unfold execute
  split
  case h_1 o h => exact effect_executeOp fp o h
  case h_2 => exact effect_onCpu effect_reserved

end Dispatch

end Cpu

end N64
