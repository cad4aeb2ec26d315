import N64Emu.DelaySlot
import N64Emu.RetimedCpu
import N64Emu.RunActs

/-!
# Steps at another time

Two machines alike but for the time of their CPUs stay so over every act that
reads none of the registers that keep time, while the timer goes off in both or
in neither.
-/

set_option autoImplicit false

namespace N64

open Words Insn

/-- The machine with its CPU at another time. -/
structure Sys.Retimed (more : U64) (s t : Sys) : Prop where
  cpu : Cpu.Retimed more s.cpu t.cpu
  devices : t = { s with cpu := t.cpu }

namespace Sys

variable {more : U64} {s t : Sys}

theorem Retimed.eq (same : Retimed more s t) : t = s.beside (Cpu.retiming more t.cpu) :=
  same.devices.trans (congrArg (fun c => { s with cpu := c }) same.cpu.eq)

theorem retimed_beside (more : U64) (h : Cpu) (s : Sys) :
    Retimed more s (s.beside (Cpu.retiming more h)) := ⟨Cpu.retimed_retimed more h s.cpu, rfl⟩

theorem Retimed.device (same : Retimed more s t) {f : Sys → Sys}
    (each : ∀ g u, f (u.beside g) = (f u).beside g) : Retimed more (f s) (f t) := by
  rw [same.eq, each]
  exact retimed_beside more t.cpu (f s)

theorem Retimed.read (same : Retimed more s t) {α : Type} {read : Sys → U32 → α × Sys}
    (each : ∀ g u p, read (u.beside g) p = readBeside g (read u p)) (p : U32) :
    (read t p).1 = (read s p).1 ∧ Retimed more (read s p).2 (read t p).2 := by
  rw [same.eq, each]
  exact ⟨rfl, retimed_beside more t.cpu (read s p).2⟩

theorem Retimed.onCpu (same : Retimed more s t) {f : Cpu → Cpu}
    (each : Cpu.Retimed more (f s.cpu) (f t.cpu)) : Retimed more (s.onCpu f) (t.onCpu f) :=
  ⟨each, congrArg (fun u : Sys => { u with cpu := f t.cpu }) same.devices⟩

theorem Retimed.mapCpu (same : Retimed more s t) (f : Cpu → Cpu)
    (commutes : ∀ h c, f (Cpu.retimed more h c) = Cpu.retimed more h (f c)) :
    Retimed more (s.onCpu f) (t.onCpu f) := same.onCpu (same.cpu.map f commutes)

theorem Retimed.setCpu (same : Retimed more s t) {c d : Cpu} (each : Cpu.Retimed more c d) :
    Retimed more { s with cpu := c } { t with cpu := d } :=
  ⟨each, congrArg (fun u : Sys => { u with cpu := d }) same.devices⟩

theorem Retimed.emit (same : Retimed more s t) (e : Event) : Retimed more (s.emit e) (t.emit e) :=
  same.device (f := (·.emit e)) fun _ _ => rfl

theorem Retimed.emitAll (same : Retimed more s t) (es : List Event) :
    Retimed more (s.emitAll es) (t.emitAll es) :=
  same.device (f := (·.emitAll es)) fun _ _ => rfl

end Sys

theorem enterStep_cop0 (c : Cpu) : c.enterStep.cop0 = c.cop0 := by
  unfold Cpu.enterStep
  split <;> rfl

namespace Cpu

section Access

variable {more : U64} {s t : Sys} {c d : Cpu}

/-- The same address, or an exception raised in both. -/
inductive Answered (more : U64) : Except Cpu PhysicalAddress → Except Cpu PhysicalAddress → Prop
  | ok (p : PhysicalAddress) : Answered more (.ok p) (.ok p)
  | error {c d : Cpu} (same : Retimed more c d) : Answered more (.error c) (.error d)

theorem Retimed.translateOrRaise (same : Retimed more c d) (vaddr bad : U64) (isStore : Bool) :
    Answered more (c.translateOrRaise vaddr bad isStore)
      (d.translateOrRaise vaddr bad isStore) := by
  rw [N64.Cpu.translateOrRaise, N64.Cpu.translateOrRaise, same.translateAddress]
  cases c.translateAddress vaddr isStore with
  | ok p => exact .ok p
  | error fault => exact .error (same.raiseTranslationFault fault bad isStore)

theorem Retimed.probe (same : Retimed more c d) (vaddr size : U64) (isStore : Bool) :
    Answered more (c.probe vaddr size isStore) (d.probe vaddr size isStore) := by
  unfold N64.Cpu.probe
  split
  · exact .error (same.raiseException _ _ _ _)
  · exact same.translateOrRaise _ _ _

theorem Answered.access {r r' : Except Cpu PhysicalAddress} (answered : Answered more r r')
    (same : s.Retimed more t) {k k' : PhysicalAddress → Sys}
    (each : ∀ p, (k p).Retimed more (k' p)) : (s.access r k).Retimed more (t.access r' k') := by
  cases answered with
  | ok p => exact each p
  | error raised => exact same.setCpu raised

variable {α : Type} {read : Sys → U32 → α × Sys} {write : Sys → U32 → α → Sys}
  (reads : ∀ g u p, read (Sys.beside u g) p = readBeside g (read u p))
  (writes : ∀ g u p v, write (Sys.beside u g) p v = (write u p v).beside g)

include reads in
theorem retimed_readInto (same : s.Retimed more t) (size : ℕ) (p : PhysicalAddress)
    {k : α → Cpu → Cpu} (each : ∀ v {c d}, Retimed more c d → Retimed more (k v c) (k v d)) :
    (readInto read size s p k).Retimed more (readInto read size t p k) := by
  obtain ⟨value, left⟩ := (same.emit (.load p size)).read reads p
  simp only [readInto]
  rw [value]
  exact left.onCpu (each _ left.cpu)

include reads in
theorem retimed_loadWith (same : s.Retimed more t) (size : ℕ) (vaddr : U64)
    {k : α → Cpu → Cpu} (each : ∀ v {c d}, Retimed more c d → Retimed more (k v c) (k v d)) :
    (loadWith read size s vaddr k).Retimed more (loadWith read size t vaddr k) :=
  (same.cpu.probe vaddr _ false).access same fun p => retimed_readInto reads same size p each

include writes in
theorem retimed_stored (same : s.Retimed more t) (size : ℕ) (p : PhysicalAddress) (value : α) :
    (write (s.emit (.store p size)) p value).Retimed more
      (write (t.emit (.store p size)) p value) :=
  (same.emit (.store p size)).device (f := (write · p value)) fun g u => writes g u p value

theorem Retimed.clearLlBit (same : Retimed more c d) : Retimed more c.clearLlBit d.clearLlBit :=
  same.map (·.clearLlBit) fun _ _ => rfl

include writes in
theorem retimed_storeWith (same : s.Retimed more t) (size : ℕ) (vaddr : U64) (value : α) :
    (storeWith write size s vaddr value).Retimed more (storeWith write size t vaddr value) :=
  (same.cpu.probe vaddr _ true).access same fun p =>
    have stored := retimed_stored writes same size p value
    stored.onCpu stored.cpu.clearLlBit

include reads in
theorem retimed_mergeLoad (same : s.Retimed more t) (size : ℕ) (insn : U32)
    {k : α → ℕ → Cpu → Cpu}
    (each : ∀ v n {c d}, Retimed more c d → Retimed more (k v n c) (k v n d)) :
    (mergeLoad read size s insn k).Retimed more (mergeLoad read size t insn k) := by
  simp only [mergeLoad, same.cpu.effective]
  exact (same.cpu.translateOrRaise _ _ false).access same fun p =>
    retimed_readInto reads same size p fun v => each v _

include reads writes in
theorem retimed_mergeStore (same : s.Retimed more t) (size : ℕ) (insn : U32) (merge : α → ℕ → α) :
    (mergeStore read write size s insn merge).Retimed more
      (mergeStore read write size t insn merge) := by
  simp only [mergeStore, same.cpu.effective]
  refine (same.cpu.translateOrRaise _ _ true).access same fun p => ?_
  obtain ⟨value, left⟩ := (same.emit (.load p size)).read reads p
  rw [value]
  have stored := retimed_stored writes left size p (merge (read (s.emit (.load p size)) p).1
    (s.cpu.effective insn &&& BitVec.ofNat 64 (size - 1)).toNat)
  exact stored.onCpu stored.cpu.clearLlBit

include writes in
theorem retimed_storeConditional (same : s.Retimed more t) (size : ℕ) (insn : U32) (value : α) :
    (storeConditional write size s insn value).Retimed more
      (storeConditional write size t insn value) := by
  have cleared : (s.onCpu clearLlBit).Retimed more (t.onCpu clearLlBit) :=
    same.onCpu same.cpu.clearLlBit
  simp only [storeConditional, same.cpu.effective]
  refine (cleared.cpu.probe _ _ true).access cleared fun p => ?_
  rw [same.cpu.llBit, same.cpu.llAddr]
  split
  · have stored := retimed_stored writes cleared size p value
    exact stored.onCpu (stored.cpu.writeGpr _ _)
  · exact cleared.onCpu (cleared.cpu.writeGpr _ _)

include reads in
theorem retimed_loadLinked (same : s.Retimed more t) (size : ℕ) (insn : U32) (conv : α → U64) :
    (loadLinked read size s insn conv).Retimed more (loadLinked read size t insn conv) := by
  simp only [loadLinked, same.cpu.effective]
  refine (same.cpu.probe _ _ false).access same fun p => ?_
  refine retimed_readInto reads same size p fun v {c d} same => ?_
  exact (same.writeGpr (rt insn) (conv v)).map
    (fun e => { e with llBit := true, llAddr := p.setWidth 64 }) fun _ _ => rfl

end Access

section Cop0

variable {more : U64} {s t : Sys} {c d : Cpu}

/-- The COP0 registers whose values an instruction hands on. -/
def cop0Reads (insn : U32) : List (BitVec 5) :=
  if op insn = 0x10 then
    match (rs insn).toNat with
    | 0x00 => [rd insn]
    | 0x01 => [rd insn]
    | 0x04 => []
    | 0x05 => []
    | _ => if fn insn = 0x06 then [Cop0Reg.Random] else if fn insn = 0x18 then [Cop0Reg.EPC] else []
  else []

/-- The two have the same values in the registers the instruction reads. -/
def SameReads (insn : U32) (c d : Cpu) : Prop := ∀ i ∈ cop0Reads insn, d.cop0 i = c.cop0 i

theorem retimed_setCop0 (same : s.Retimed more t) (i : BitVec 5) (v : U32) :
    (setCop0 s i v).Retimed more (setCop0 t i v) := by
  have set : (s.onCpu (·.setCop0Value i v)).Retimed more (t.onCpu (·.setCop0Value i v)) :=
    same.onCpu (same.cpu.setCop0Value i v)
  simp only [setCop0]
  split
  · exact set.emit .flush
  · exact set

theorem Retimed.tlbReadIndexed (same : Retimed more c d) :
    Retimed more c.tlbReadIndexed d.tlbReadIndexed := by
  simp only [N64.Cpu.tlbReadIndexed]
  rw [same.tlb, same.cop0 Cop0Reg.Index (by decide)]
  exact (((same.setCop0Reg _ _).setCop0Reg _ _).setCop0Reg _ _).setCop0Reg _ _

theorem Retimed.tlbWriteIndexed (same : Retimed more c d) (index : U32) :
    Retimed more (c.tlbWriteIndexed index) (d.tlbWriteIndexed index) :=
  same.map (·.tlbWriteIndexed index) fun _ _ => rfl

theorem Retimed.tlbProbe (same : Retimed more c d) : Retimed more c.tlbProbe d.tlbProbe := by
  have entries : d.tlbEntries = c.tlbEntries := by
    rw [tlbEntries, same.tlb]
    rfl
  simp only [N64.Cpu.tlbProbe, entries, same.cop0 Cop0Reg.EntryHi (by decide)]
  split <;> exact same.setCop0Reg _ _

theorem Retimed.doEret (same : Retimed more c d)
    (epc : d.cop0 Cop0Reg.EPC = c.cop0 Cop0Reg.EPC) : Retimed more c.doEret d.doEret := by
  simp only [N64.Cpu.doEret, epc, same.cop0 Cop0Reg.ErrorEPC (by decide), same.status]
  exact (same.setCop0Reg _ _).map
    (fun e => { e with llBit := false, pc := _, nextPc := _, branchPending := false })
    fun _ _ => rfl

theorem Retimed.moveFromCop0 (same : Retimed more c d) {i : BitVec 5}
    (read : d.cop0 i = c.cop0 i) (r : BitVec 5) (conv : U32 → U64) :
    Retimed more (c.writeGpr r (conv (c.cop0 i))) (d.writeGpr r (conv (d.cop0 i))) := by
  rw [read]
  exact same.writeGpr _ _

theorem retimed_execCop0Co (same : s.Retimed more t) (c0fn : ℕ)
    (random : c0fn = 0x06 → t.cpu.cop0 Cop0Reg.Random = s.cpu.cop0 Cop0Reg.Random)
    (epc : c0fn = 0x18 → t.cpu.cop0 Cop0Reg.EPC = s.cpu.cop0 Cop0Reg.EPC) :
    (execCop0Co s c0fn).Retimed more (execCop0Co t c0fn) := by
  unfold execCop0Co
  split
  · exact (same.onCpu same.cpu.tlbReadIndexed).emit .flush
  · refine Sys.Retimed.emit (same.onCpu ?_) .flush
    rw [same.cpu.cop0 Cop0Reg.Index (by decide)]
    exact same.cpu.tlbWriteIndexed _
  · refine Sys.Retimed.emit (same.onCpu ?_) .flush
    rw [random rfl]
    exact same.cpu.tlbWriteIndexed _
  · exact same.onCpu same.cpu.tlbProbe
  · exact same.onCpu (same.cpu.doEret (epc rfl))
  · exact same

theorem Retimed.rt32 (same : Retimed more c d) (insn : U32) : d.rt32 insn = c.rt32 insn := by
  rw [N64.Cpu.rt32, same.gpr]
  rfl

theorem retimed_execCop0 (same : s.Retimed more t) (insn : U32) (code : op insn = 0x10)
    (reads : SameReads insn s.cpu t.cpu) :
    (execCop0 s insn).Retimed more (execCop0 t insn) := by
  unfold execCop0
  rw [same.cpu.coprocessorUsable]
  split
  · exact same.onCpu (same.cpu.raiseUnusable 0)
  · split
    case h_1 field =>
      exact same.onCpu (same.cpu.moveFromCop0 (reads _ (by simp [cop0Reads, code, field])) _ sext32)
    case h_2 field =>
      exact same.onCpu
        (same.cpu.moveFromCop0 (reads _ (by simp [cop0Reads, code, field])) _ (·.setWidth 64))
    case h_3 field =>
      rw [same.cpu.rt32]
      exact retimed_setCop0 same _ _
    case h_4 field =>
      rw [same.cpu.rt32]
      exact retimed_setCop0 same _ _
    case h_5 field =>
      exact retimed_execCop0Co same _ (fun f => reads _ (by simp [cop0Reads, code, field, f]))
        (fun f => reads _ (by simp [cop0Reads, code, field, f]))
    case h_6 =>
      split_ifs with bit f
      · exact same.onCpu (same.cpu.doEret (reads _ (by simp [cop0Reads, code, f])))
      · exact same
      · exact same

end Cop0

section Accesses

variable {more : U64} {s t : Sys} {c d : Cpu}

theorem retimed_loadByte (same : s.Retimed more t) (vaddr : U64) (signExtend : Bool)
    {k : U64 → Cpu → Cpu} (each : ∀ v {c d}, Retimed more c d → Retimed more (k v c) (k v d)) :
    (loadByte s vaddr signExtend k).Retimed more (loadByte t vaddr signExtend k) :=
  retimed_loadWith read8_beside same 1 vaddr fun _ => each _

theorem retimed_loadHalf (same : s.Retimed more t) (vaddr : U64) (signExtend : Bool)
    {k : U64 → Cpu → Cpu} (each : ∀ v {c d}, Retimed more c d → Retimed more (k v c) (k v d)) :
    (loadHalf s vaddr signExtend k).Retimed more (loadHalf t vaddr signExtend k) :=
  retimed_loadWith read16_beside same 2 vaddr fun _ => each _

theorem retimed_loadWord (same : s.Retimed more t) (vaddr : U64) (signExtend : Bool)
    {k : U64 → Cpu → Cpu} (each : ∀ v {c d}, Retimed more c d → Retimed more (k v c) (k v d)) :
    (loadWord s vaddr signExtend k).Retimed more (loadWord t vaddr signExtend k) :=
  retimed_loadWith read32_beside same 4 vaddr fun _ => each _

theorem retimed_loadDouble (same : s.Retimed more t) (vaddr : U64)
    {k : U64 → Cpu → Cpu} (each : ∀ v {c d}, Retimed more c d → Retimed more (k v c) (k v d)) :
    (loadDouble s vaddr k).Retimed more (loadDouble t vaddr k) :=
  retimed_loadWith read64_beside same 8 vaddr each

theorem Retimed.merge32 (same : Retimed more c d) (insn : U32) (f : U32 → U64) :
    Retimed more (c.writeGpr (rt insn) (f (c.rt32 insn)))
      (d.writeGpr (rt insn) (f (d.rt32 insn))) := by
  rw [same.rt32]
  exact same.writeGpr _ _

theorem Retimed.merge64 (same : Retimed more c d) (insn : U32) (f : U64 → U64) :
    Retimed more (c.writeGpr (rt insn) (f (c.gpr (rt insn))))
      (d.writeGpr (rt insn) (f (d.gpr (rt insn)))) := by
  rw [same.gpr]
  exact same.writeGpr _ _

theorem retimed_execLwl (same : s.Retimed more t) (insn : U32) :
    (execLwl s insn).Retimed more (execLwl t insn) :=
  retimed_mergeLoad read32_beside same 4 insn fun _ _ {_ _} same => same.merge32 insn fun reg =>
    sext32 ((reg &&& _) ||| _)

theorem retimed_execLwr (same : s.Retimed more t) (insn : U32) :
    (execLwr s insn).Retimed more (execLwr t insn) :=
  retimed_mergeLoad read32_beside same 4 insn fun _ _ {_ _} same => same.merge32 insn fun reg =>
    sext32 ((reg &&& _) ||| _)

theorem retimed_execLdl (same : s.Retimed more t) (insn : U32) :
    (execLdl s insn).Retimed more (execLdl t insn) :=
  retimed_mergeLoad read64_beside same 8 insn fun _ _ {_ _} same => same.merge64 insn fun reg =>
    (reg &&& _) ||| _

theorem retimed_execLdr (same : s.Retimed more t) (insn : U32) :
    (execLdr s insn).Retimed more (execLdr t insn) :=
  retimed_mergeLoad read64_beside same 8 insn fun _ _ {_ _} same => same.merge64 insn fun reg =>
    (reg &&& _) ||| _

theorem retimed_execSwl (same : s.Retimed more t) (insn : U32) :
    (execSwl s insn).Retimed more (execSwl t insn) := by
  simp only [execSwl, same.cpu.rt32]
  exact retimed_mergeStore read32_beside write32_beside same 4 insn _

theorem retimed_execSwr (same : s.Retimed more t) (insn : U32) :
    (execSwr s insn).Retimed more (execSwr t insn) := by
  simp only [execSwr, same.cpu.rt32]
  exact retimed_mergeStore read32_beside write32_beside same 4 insn _

theorem retimed_execSdl (same : s.Retimed more t) (insn : U32) :
    (execSdl s insn).Retimed more (execSdl t insn) := by
  simp only [execSdl, same.cpu.gpr]
  exact retimed_mergeStore read64_beside write64_beside same 8 insn _

theorem retimed_execSdr (same : s.Retimed more t) (insn : U32) :
    (execSdr s insn).Retimed more (execSdr t insn) := by
  simp only [execSdr, same.cpu.gpr]
  exact retimed_mergeStore read64_beside write64_beside same 8 insn _

end Accesses

section Execute

variable {more : U64} {s t : Sys}

theorem retimed_withCop1 (same : s.Retimed more t) {u v : Sys} (each : u.Retimed more v) :
    (withCop1 s u).Retimed more (withCop1 t v) := by
  unfold withCop1
  rw [same.cpu.coprocessorUsable]
  split
  · exact same.onCpu (same.cpu.raiseUnusable 1)
  · exact each

theorem retimed_ldc1 (same : s.Retimed more t) (insn : U32) (addr : U64) :
    (if !s.cpu.fpuFrMode ∧ rt insn &&& 1 ≠ 0 then s.onCpu raiseFpuUnimplemented
      else loadDouble s addr fun v c => c.setFprDouble (rt insn) v).Retimed more
    (if !t.cpu.fpuFrMode ∧ rt insn &&& 1 ≠ 0 then t.onCpu raiseFpuUnimplemented
      else loadDouble t addr fun v c => c.setFprDouble (rt insn) v) := by
  rw [same.cpu.fpuFrMode]
  split
  · exact same.onCpu same.cpu.raiseFpuUnimplemented
  · exact retimed_loadDouble same _ fun v {_ _} same => same.setFprDouble _ v

theorem retimed_sdc1 (same : s.Retimed more t) (insn : U32) (addr : U64) :
    (match s.cpu.readFprDouble (rt insn) with
      | none => s.onCpu raiseFpuUnimplemented
      | some v => storeDouble s addr v).Retimed more
    (match t.cpu.readFprDouble (rt insn) with
      | none => t.onCpu raiseFpuUnimplemented
      | some v => storeDouble t addr v) := by
  rw [same.cpu.readFprDouble]
  split
  · exact same.onCpu same.cpu.raiseFpuUnimplemented
  · exact retimed_storeWith write64_beside same 8 addr _

theorem op_of_cop0 {n : ℕ} (h : Op.ofCode n = some .COP0) : n = 0x10 := by
  unfold Op.ofCode at h
  split at h <;> cases h
  rfl

theorem Retimed.execCop2 {c d : Cpu} (same : Retimed more c d) :
    Retimed more c.execCop2 d.execCop2 := by
  unfold N64.Cpu.execCop2
  rw [same.coprocessorUsable]
  split
  · exact same.raiseUnusable 2
  · exact same

theorem Retimed.jumpTarget {c d : Cpu} (same : Retimed more c d) (insn : U32) :
    d.jumpTarget insn = c.jumpTarget insn := by
  rw [N64.Cpu.jumpTarget, same.pc]
  rfl

theorem retimed_executeOp (fp : HostFpu) (same : s.Retimed more t) (o : Op) (insn : U32)
    (code : Op.ofCode (op insn) = some o) (reads : SameReads insn s.cpu t.cpu) :
    (executeOp fp s o insn).Retimed more (executeOp fp t o insn) := by
  have gpr (v : U64) {c d : Cpu} (same : Retimed more c d) :
      Retimed more (c.writeGpr (rt insn) v) (d.writeGpr (rt insn) v) := same.writeGpr _ v
  cases o
  all_goals simp only [executeOp, same.cpu.gpr, same.cpu.effective]
  case SPECIAL => exact same.onCpu (same.cpu.execSpecial insn)
  case REGIMM => exact same.onCpu (same.cpu.execRegimm insn)
  case J =>
    refine same.onCpu ?_
    rw [same.cpu.jumpTarget]
    exact same.cpu.branchAbs _
  case JAL =>
    refine same.onCpu ?_
    rw [same.cpu.jumpTarget]
    exact (same.cpu.link 31).branchAbs _
  case COP0 => exact retimed_execCop0 same insn (op_of_cop0 code) reads
  case COP1 => exact same.onCpu (same.cpu.execCop1 fp insn)
  case COP2 => exact same.onCpu same.cpu.execCop2
  case CACHE => exact same
  case LDL => exact retimed_execLdl same insn
  case LDR => exact retimed_execLdr same insn
  case LWL => exact retimed_execLwl same insn
  case LWR => exact retimed_execLwr same insn
  case SWL => exact retimed_execSwl same insn
  case SWR => exact retimed_execSwr same insn
  case SDL => exact retimed_execSdl same insn
  case SDR => exact retimed_execSdr same insn
  case LB => exact retimed_loadByte same _ _ gpr
  case LBU => exact retimed_loadByte same _ _ gpr
  case LH => exact retimed_loadHalf same _ _ gpr
  case LHU => exact retimed_loadHalf same _ _ gpr
  case LW => exact retimed_loadWord same _ _ gpr
  case LWU => exact retimed_loadWord same _ _ gpr
  case LD => exact retimed_loadDouble same _ gpr
  case LL => exact retimed_loadLinked read32_beside same 4 insn _
  case LLD => exact retimed_loadLinked read64_beside same 8 insn _
  case SB => exact retimed_storeWith write8_beside same 1 _ _
  case SH => exact retimed_storeWith write16_beside same 2 _ _
  case SW => exact retimed_storeWith write32_beside same 4 _ _
  case SD => exact retimed_storeWith write64_beside same 8 _ _
  case SC => exact retimed_storeConditional write32_beside same 4 insn _
  case SCD => exact retimed_storeConditional write64_beside same 8 insn _
  case LWC1 =>
    exact retimed_withCop1 same
      (retimed_loadWord same _ _ fun _ {_ _} same => same.writeFprWord _ _)
  case LDC1 => exact retimed_withCop1 same (retimed_ldc1 same insn _)
  case SWC1 =>
    rw [same.cpu.readFprWord]
    exact retimed_withCop1 same (retimed_storeWith write32_beside same 4 _ _)
  case SDC1 => exact retimed_withCop1 same (retimed_sdc1 same insn _)
  all_goals first
    | exact same.onCpu (same.cpu.branchIf _ _)
    | exact same.onCpu (same.cpu.branchLikelyIf _ _)
    | exact same.onCpu (same.cpu.writeChecked32 _ _)
    | exact same.onCpu (same.cpu.writeChecked64 _ _)
    | exact same.onCpu (same.cpu.writeGpr _ _)

theorem retimed_execute (fp : HostFpu) (same : s.Retimed more t) (insn : U32)
    (reads : SameReads insn s.cpu t.cpu) :
    (execute fp s insn).Retimed more (execute fp t insn) := by
  unfold execute
  cases code : Op.ofCode (op insn) with
  | none => exact same.onCpu same.cpu.reserved
  | some o => exact retimed_executeOp fp same o insn code reads

end Execute

section Step

variable {more : U64} {s t : Sys} {c d c' d' : Cpu}

/-- Count has just reached Compare. -/
def TimerMet (c : Cpu) : Prop := c.cop0 Cop0Reg.Count = c.cop0 Cop0Reg.Compare

instance (c : Cpu) : Decidable c.TimerMet :=
  inferInstanceAs (Decidable (c.cop0 Cop0Reg.Count = c.cop0 Cop0Reg.Compare))

theorem retire_count (c : Cpu) : c.retire.cop0 Cop0Reg.Count = c.cop0 Cop0Reg.Count + 1 := by
  refine (advanceCount_cop0 _ (show Cop0Reg.Count ≠ Cop0Reg.Random by decide)).trans ?_
  rw [bumpCount_eq]
  split <;> simp [cop0_setCop0Reg, show Cop0Reg.Count ≠ Cop0Reg.Cause from by decide]

theorem retire_cause_of_away (c : Cpu) (away : ¬ c.TimerDue) :
    c.retire.cop0 Cop0Reg.Cause = c.cop0 Cop0Reg.Cause := by
  have same : ¬ { c with gpr := Function.update c.gpr 0 0 }.TimerDue := away
  refine (advanceCount_cop0 _ (show Cop0Reg.Cause ≠ Cop0Reg.Random by decide)).trans ?_
  rw [bumpCount_eq, if_neg same]
  exact (cop0_setCop0Reg _ _ _ _).trans (if_neg (by decide))

theorem timerMet_retire (c : Cpu) : c.retire.TimerMet ↔ c.TimerDue := by
  rw [TimerMet, TimerDue, retire_count, retire_cop0 c (by decide)]

theorem Retimed.raised_iff (before : Retimed more c d) (after : Retimed more c' d') :
    d'.exceptionCount ≠ d.exceptionCount ↔ c'.exceptionCount ≠ c.exceptionCount := by
  rw [after.exceptionCount, before.exceptionCount]
  exact not_congr (BitVec.add_left_inj more)

theorem Retimed.enterStep (same : Retimed more c d) : Retimed more c.enterStep d.enterStep := by
  simp only [N64.Cpu.enterStep, same.branchPending]
  split
  · exact same
  · exact same.map (fun e => { e with nextPc := e.pc + 4, branchPending := false }) fun _ _ => rfl

theorem Retimed.advancePc (same : Retimed more c d) (insnPc : U64) (delaySlot : Bool) :
    Retimed more (c.advancePc insnPc delaySlot) (d.advancePc insnPc delaySlot) := by
  unfold N64.Cpu.advancePc
  split
  · exact same.map (fun e => { e with
      pc := e.nextPc, nextPc := e.nextPc + 4, branchPending := false }) fun _ _ => rfl
  · by_cases waiting : c.branchPending = true
    · rw [if_pos waiting, if_pos (same.branchPending.trans waiting)]
      exact same.map (fun e => { e with pc := insnPc + 4 }) fun _ _ => rfl
    · rw [if_neg waiting, if_neg (by rwa [same.branchPending])]
      exact same.map (fun e => { e with pc := e.nextPc, nextPc := e.nextPc + 4 }) fun _ _ => rfl

/-- The end of a step, when the timer then goes off in both or in neither. -/
theorem Retimed.retire_of_met (same : Retimed more c d)
    (timer : c.retire.TimerMet ↔ d.retire.TimerMet) : Retimed more c.retire d.retire :=
  same.retire ((timerMet_retire c).symm.trans (timer.trans (timerMet_retire d)))

theorem retimed_finishStep (fp : HostFpu) (same : s.Retimed more t) (insnPc : U64)
    (delaySlot : Bool) (before : Retimed more c d) (insn : U32)
    (reads : SameReads insn s.cpu t.cpu)
    (timer : (finishStep fp s insnPc delaySlot c.exceptionCount insn).cpu.TimerMet ↔
      (finishStep fp t insnPc delaySlot d.exceptionCount insn).cpu.TimerMet) :
    (finishStep fp s insnPc delaySlot c.exceptionCount insn).Retimed more
      (finishStep fp t insnPc delaySlot d.exceptionCount insn) := by
  have entered : (s.onCpu N64.Cpu.enterStep).Retimed more (t.onCpu N64.Cpu.enterStep) :=
    same.onCpu same.cpu.enterStep
  have ran := retimed_execute fp entered insn (by
    intro i listed
    rw [Sys.onCpu_cpu, Sys.onCpu_cpu, enterStep_cop0, enterStep_cop0]
    exact reads i listed)
  have raised := before.raised_iff ran.cpu
  unfold finishStep at timer ⊢
  dsimp only at timer ⊢
  by_cases fault : (execute fp (s.onCpu N64.Cpu.enterStep) insn).cpu.exceptionCount ≠
      c.exceptionCount
  · rw [if_pos fault, if_pos (raised.mpr fault)] at timer ⊢
    refine ran.onCpu ?_
    exact (ran.cpu.retire_of_met timer).map (fun e => { e with branchPending := false })
      fun _ _ => rfl
  · rw [if_neg fault, if_neg (fault ∘ raised.mp)] at timer ⊢
    exact ran.onCpu ((ran.cpu.advancePc _ _).retire_of_met timer)

/-- The same word, or an exception raised in both. -/
theorem retimed_fetch (same : s.Retimed more t) (vaddr : U64) :
    (fetch t vaddr).1 = (fetch s vaddr).1 ∧ (fetch s vaddr).2.Retimed more (fetch t vaddr).2 := by
  have answered := same.cpu.translateOrRaise vaddr vaddr false
  unfold fetch
  generalize s.cpu.translateOrRaise vaddr vaddr false = r at answered ⊢
  generalize t.cpu.translateOrRaise vaddr vaddr false = r' at answered ⊢
  split
  · refine ⟨rfl, ?_⟩
    exact Sys.Retimed.onCpu (f := (·.raiseException ExcCode.AdEL vaddr 0 false)) same
      (same.cpu.raiseException _ _ _ _)
  · cases answered with
    | ok p => exact same.read read32_beside p
    | error raised => exact ⟨rfl, same.setCpu raised⟩

/-- The registers that a step's word reads are the same, when it has one. -/
def SameFetched (s t : Sys) : Prop := ∀ insn, Fetches s insn → SameReads insn s.cpu t.cpu

theorem Retimed.markSlot (same : Retimed more c d) : Retimed more c.markSlot d.markSlot :=
  same.map (·.markSlot) fun _ _ => rfl

theorem stepInsn_eq (fp : HostFpu) (s : Sys) : stepInsn fp s =
    let f := fetch (s.onCpu N64.Cpu.markSlot) s.cpu.pc
    if f.2.cpu.exceptionCount ≠ s.cpu.exceptionCount then f.2.onCpu N64.Cpu.retire
    else (finishStep fp f.2 s.cpu.pc s.cpu.branchPending s.cpu.exceptionCount f.1).emitAll
      (fetchEvents s.cpu.markSlot s.cpu.pc) := rfl

theorem fetches_of_fetch {u : Sys} {insn : U32}
    (fetched : fetch (s.onCpu N64.Cpu.markSlot) s.cpu.pc = (insn, u))
    (clean : u.cpu.exceptionCount = s.cpu.exceptionCount) :
    Fetches s insn ∧ u.cpu = s.cpu.markSlot := by
  rcases fetch_cases (s.onCpu N64.Cpu.markSlot) s.cpu.pc with
    ⟨code, refill, miss, faulted⟩ | ⟨p, aligned, translated, read⟩
  · rw [fetched] at faulted
    rw [(Prod.mk.inj faulted).2] at clean
    exact absurd clean (by simp [Sys.onCpu, N64.Cpu.markSlot])
  · rw [read] at fetched
    refine ⟨⟨p, aligned, translated, ?_⟩, fetched_cpu fetched⟩
    rw [read32_onCpu] at fetched
    exact congrArg Prod.fst fetched

theorem retimed_stepInsn (fp : HostFpu) (same : s.Retimed more t) (reads : SameFetched s t)
    (timer : (stepInsn fp s).cpu.TimerMet ↔ (stepInsn fp t).cpu.TimerMet) :
    (stepInsn fp s).Retimed more (stepInsn fp t) := by
  have marked : (s.onCpu N64.Cpu.markSlot).Retimed more (t.onCpu N64.Cpu.markSlot) :=
    same.onCpu same.cpu.markSlot
  have marks : fetchEvents t.cpu.markSlot s.cpu.pc = fetchEvents s.cpu.markSlot s.cpu.pc := by
    rw [fetchEvents, fetchEvents, same.cpu.markSlot.translateAddress]
  have word := retimed_fetch marked s.cpu.pc
  rw [stepInsn_eq, stepInsn_eq, same.cpu.pc, same.cpu.branchPending, marks] at timer ⊢
  cases left : fetch (s.onCpu N64.Cpu.markSlot) s.cpu.pc with
  | mk insn u =>
  cases right : fetch (t.onCpu N64.Cpu.markSlot) s.cpu.pc with
  | mk insn' v =>
  simp only [left, right] at word timer ⊢
  obtain ⟨rfl, fetched⟩ := word
  have raised := same.cpu.raised_iff fetched.cpu
  by_cases fault : u.cpu.exceptionCount ≠ s.cpu.exceptionCount
  · rw [if_pos fault, if_pos (raised.mpr fault)] at timer ⊢
    exact fetched.onCpu (fetched.cpu.retire_of_met timer)
  · rw [if_neg fault, if_neg (fault ∘ raised.mp)] at timer ⊢
    obtain ⟨fetches, marked_u⟩ := fetches_of_fetch left (not_not.mp fault)
    have marked_v : v.cpu = t.cpu.markSlot :=
      (fetches_of_fetch (by rw [same.cpu.pc]; exact right)
        (not_not.mp (fault ∘ raised.mp))).2
    have visible : SameReads insn' u.cpu v.cpu := by
      rw [marked_u, marked_v]
      exact reads insn' fetches
    exact (retimed_finishStep fp fetched _ _ same.cpu insn' visible timer).emitAll _

theorem Retimed.interrupted (same : Retimed more c d) : d.Interrupted ↔ c.Interrupted := by
  have lines (e : Cpu) : e.cop0 Cop0Reg.Cause &&& e.status &&& 0xFF00 =
      e.cop0 Cop0Reg.Cause &&& CAUSE_LINES &&& e.status := by
    rw [BitVec.and_assoc, BitVec.and_assoc, BitVec.and_comm e.status]
    rfl
  rw [Interrupted, Interrupted, lines, lines, same.lines, same.status]

theorem Retimed.takesInterrupt (same : Retimed more c d) : d.TakesInterrupt ↔ c.TakesInterrupt := by
  rw [TakesInterrupt, TakesInterrupt, same.branchPending, same.interrupted]

theorem retimed_interrupt (same : s.Retimed more t)
    (timer : (s.cpu.raise ExcCode.Int).retire.TimerMet ↔
      (t.cpu.raise ExcCode.Int).retire.TimerMet) :
    (s.onCpu fun c => (c.raise ExcCode.Int).retire).Retimed more
      (t.onCpu fun c => (c.raise ExcCode.Int).retire) :=
  same.onCpu ((same.cpu.raise ExcCode.Int).retire_of_met timer)

theorem retimed_step (fp : HostFpu) (same : s.Retimed more t)
    (reads : s.cpu.halted = false → ¬ s.cpu.TakesInterrupt → SameFetched s t)
    (timer : s.cpu.halted = false → ((step fp s).cpu.TimerMet ↔ (step fp t).cpu.TimerMet)) :
    (step fp s).Retimed more (step fp t) := by
  by_cases stopped : s.cpu.halted = true
  · rw [step, step, if_pos stopped, if_pos (same.cpu.halted.trans stopped)]
    exact same.onCpu same.cpu.cycle
  · have running : s.cpu.halted = false := by simpa using stopped
    have running' := same.cpu.halted.trans running
    have timer := timer running
    by_cases taken : s.cpu.TakesInterrupt
    · have taken' := same.cpu.takesInterrupt.mpr taken
      rw [step_interrupted fp running taken.1 taken.2,
        step_interrupted fp running' taken'.1 taken'.2] at timer ⊢
      exact retimed_interrupt same timer
    · have untaken := taken ∘ same.cpu.takesInterrupt.mp
      rw [step_executes running taken, step_executes running' untaken] at timer ⊢
      exact retimed_stepInsn fp same (reads running taken) timer

theorem retimed_blockInsn (fp : HostFpu) (same : s.Retimed more t) (insn : U32)
    (reads : ¬ s.cpu.TakesInterrupt → SameReads insn s.cpu t.cpu)
    (timer : (blockInsn fp s insn).2.cpu.TimerMet ↔ (blockInsn fp t insn).2.cpu.TimerMet) :
    (blockInsn fp s insn).2.Retimed more (blockInsn fp t insn).2 := by
  by_cases taken : s.cpu.TakesInterrupt
  · rw [blockInsn_taken fp insn taken,
      blockInsn_taken fp insn (same.cpu.takesInterrupt.mpr taken)] at timer ⊢
    exact retimed_interrupt same timer
  · rw [blockInsn_executes fp insn taken,
      blockInsn_executes fp insn (taken ∘ same.cpu.takesInterrupt.mp)] at timer ⊢
    simp only [executeWord, same.cpu.pc, same.cpu.branchPending] at timer ⊢
    have marked : (s.onCpu N64.Cpu.markSlot).Retimed more (t.onCpu N64.Cpu.markSlot) :=
      same.onCpu same.cpu.markSlot
    have slot : (t.onCpu fun c => { c with inDelaySlot := s.cpu.branchPending }) =
        t.onCpu N64.Cpu.markSlot := by
      rw [← same.cpu.branchPending]
      rfl
    rw [slot] at timer ⊢
    exact retimed_finishStep fp marked _ _ same.cpu insn (reads taken) timer

end Step

end Cpu

namespace CpuAct

variable {more : U64} {s t : Sys} {fp : HostFpu}

/-- The word the act executes finds the same in the registers it reads, and the
timer goes off in both machines or in neither. -/
structure IgnoresTime (fp : HostFpu) (a : CpuAct) (p : Sys × Sys) : Prop where
  reads : ∀ insn, a.Executes p.1 insn → ¬ p.1.cpu.TakesInterrupt →
    Cpu.SameReads insn p.1.cpu p.2.cpu
  timer : a.isWord = true → ¬ a.Idle p.1 →
    ((a.performFresh fp p.1).cpu.TimerMet ↔ (a.performFresh fp p.2).cpu.TimerMet)

theorem retimed_perform (same : s.Retimed more t) (a : CpuAct)
    (reads : ∀ insn, a.Executes s insn → ¬ s.cpu.TakesInterrupt →
      Cpu.SameReads insn s.cpu t.cpu)
    (timer : a.isWord = true → ¬ a.Idle s →
      ((a.perform fp s).cpu.TimerMet ↔ (a.perform fp t).cpu.TimerMet)) :
    (a.perform fp s).Retimed more (a.perform fp t) := by
  cases a with
  | step =>
    refine Cpu.retimed_step fp same (fun running untaken insn fetches => ?_) fun running => ?_
    · exact reads insn ⟨running, fetches⟩ untaken
    · exact timer rfl (by simp [Idle, running])
  | cached insn => exact Cpu.retimed_blockInsn fp same insn (reads insn rfl) (timer rfl id)
  | device a => exact same.device fun g u => perform_beside g a u
  | rcpInterrupt level =>
    exact same.onCpu (f := (·.setRcpInterrupt level)) (same.cpu.setRcpInterrupt level)
  | setPc pc => exact same.mapCpu (·.setPc pc) fun _ _ => rfl
  | setGpr i value => exact same.onCpu (f := (·.writeGpr i value)) (same.cpu.writeGpr i value)
  | setHiLo hi lo => exact same.onCpu (f := (·.setHiLo hi lo)) (same.cpu.setHiLo hi lo)
  | setFpr i value =>
    exact same.mapCpu (fun c => { c with fpr := Function.update c.fpr i value }) fun _ _ => rfl
  | setCop0 i value => exact Cpu.retimed_setCop0 same i value
  | setHalted halted => exact same.mapCpu (fun c => { c with halted := halted }) fun _ _ => rfl

theorem Retimed.relog (same : s.Retimed more t) (log : List Event) :
    Sys.Retimed more { s with log := log } { t with log := log } :=
  same.device (f := ({ · with log := log })) fun _ _ => rfl

theorem retimed_performFresh (same : s.Retimed more t) (a : CpuAct)
    (ignores : a.IgnoresTime fp (s, t)) :
    (a.performFresh fp s).Retimed more (a.performFresh fp t) := by
  refine Retimed.relog (retimed_perform (Retimed.relog same []) a ?_ ?_) []
  · intro insn executes
    exact ignores.reads insn (executes_relog.mp executes)
  · intro word busy
    refine ignores.timer word fun idle => busy ?_
    cases a <;> exact idle

theorem retimed_run (same : s.Retimed more t) (acts : List CpuAct)
    (ignore : Runs.Along (Runs.both (performFresh fp)) (IgnoresTime fp) acts (s, t)) :
    (Runs.run (performFresh fp) acts s).Retimed more (Runs.run (performFresh fp) acts t) := by
  have step (a : CpuAct) (p : Sys × Sys) (same : p.1.Retimed more p.2)
      (ignores : a.IgnoresTime fp p) : (Runs.both (performFresh fp) a p).1.Retimed more
        (Runs.both (performFresh fp) a p).2 := retimed_performFresh same a ignores
  have ran := Runs.run_preserves_along (P := fun p : Sys × Sys => p.1.Retimed more p.2) step acts
    same ignore
  rw [Runs.run_both] at ran
  exact ran

end CpuAct

end N64
