import N64Emu.BusWrite
import N64Emu.Rsp

/-!
# What a device function may change

`Frame ps s t`: from `s` to `t` nothing changes in the CPU but the interrupt
line, no memory changes its size, every byte a read of the bus can return
changes only where the record says so, and of the listed parts only those in
`ps` change. Each device function has one frame lemma, beside its definition's
order in the model.
-/

set_option autoImplicit false

namespace N64

open Words Loops

/-- The copies and flags that must agree with one another. -/
inductive Part where
  | busDmem | busImem | busPif | rspDmem | rspImem | rspFlags | pif | spStatus | irq
  deriving DecidableEq

def Part.all : List Part :=
  [.busDmem, .busImem, .busPif, .rspDmem, .rspImem, .rspFlags, .pif, .spStatus, .irq]

theorem Part.mem_all (p : Part) : p ∈ Part.all := by
  cases p <;> decide

def Event.isDevice : Event → Bool
  | .wrote _ => true
  | .notify _ _ => true
  | .load _ _ => false
  | .store _ _ => false
  | .flush => false

/-- A cell inside its memory; RDRAM and cartridge offsets come with a bound
where they are computed. -/
def Cell.Inside : Cell → Prop
  | .rdram _ => True
  | .cart _ => True
  | .dmem off => off < kSpDmemSize
  | .imem off => off < kSpImemSize
  | .pif off => off < kPifRamSize

namespace Sys

def cell (s : Sys) : Cell → U8
  | .rdram off => s.bus.rdram off
  | .dmem off => s.bus.spDmem off
  | .imem off => s.bus.spImem off
  | .cart off => s.bus.cart off
  | .pif off => s.pif.pifRam off

end Sys

/-- `es` is what was recorded from `s` to `t`, and no byte changed outside it. -/
structure Recorded (s t : Sys) (es : List Event) : Prop where
  log : t.log = s.log ++ es
  device : ∀ e ∈ es, e.isDevice = true
  covered : ∀ c : Cell, c.Inside → t.cell c ≠ s.cell c → .wrote c ∈ es

def Appended (P : Event → Prop) (before after : List Event) : Prop :=
  ∃ es, after = before ++ es ∧ ∀ e ∈ es, P e

namespace Appended

variable {P : Event → Prop} {l m n : List Event}

theorem refl : Appended P l l :=
  ⟨[], (List.append_nil l).symm, fun _ nothing => absurd nothing List.not_mem_nil⟩

theorem trans (h : Appended P l m) (k : Appended P m n) : Appended P l n := by
  obtain ⟨es, rfl, first⟩ := h
  obtain ⟨fs, rfl, second⟩ := k
  refine ⟨es ++ fs, List.append_assoc l es fs, ?_⟩
  intro e member
  rcases List.mem_append.mp member with here | there
  · exact first e here
  · exact second e there

theorem one {e : Event} (h : P e) : Appended P l (l ++ [e]) := by
  refine ⟨[e], rfl, ?_⟩
  intro d member
  rw [List.mem_singleton.mp member]
  exact h

theorem imp {Q : Event → Prop} (h : Appended P l m) (k : ∀ e, P e → Q e) : Appended Q l m := by
  obtain ⟨es, logged, all⟩ := h
  exact ⟨es, logged, fun e member => k e (all e member)⟩

end Appended

def Cpu.offLine (c : Cpu) : Cpu := c.setRcpInterrupt false

/-- The sizes of the memories and the boot ROM, which nothing changes. -/
def Bus.fixed (b : Bus) : ℕ × ℕ × ℕ × Bytes := (b.rdramSize, b.cartSize, b.pifRomSize, b.pifRom)

def Part.Kept (s t : Sys) : Part → Prop
  | .busDmem => t.bus.spDmem = s.bus.spDmem
  | .busImem => t.bus.spImem = s.bus.spImem
  | .busPif => t.bus.pifRam = s.bus.pifRam
  | .rspDmem => t.rsp.dmem = s.rsp.dmem
  | .rspImem => t.rsp.imem = s.rsp.imem
  | .rspFlags =>
    (t.rsp.halted, t.rsp.broke, t.rsp.intrOnBreak) =
      (s.rsp.halted, s.rsp.broke, s.rsp.intrOnBreak)
  | .pif => t.pif = s.pif
  | .spStatus => t.bus.spRegs.status = s.bus.spRegs.status
  | .irq =>
    (t.cpu, t.bus.mi, t.bus.pi.status, t.bus.si.status) =
      (s.cpu, s.bus.mi, s.bus.pi.status, s.bus.si.status)

def SemaphoreStep (old new : U32) : Prop := new = old ∨ new = 0 ∨ new = 1

structure Frame (ps : List Part) (s t : Sys) : Prop where
  cpu : t.cpu.offLine = s.cpu.offLine
  fixed : t.bus.fixed = s.bus.fixed
  recorded : ∃ es, Recorded s t es
  parts : ∀ p, p ∉ ps → p.Kept s t
  semaphore : SemaphoreStep s.bus.spRegs.semaphore t.bus.spRegs.semaphore

theorem Frame.appended {ps : List Part} {s t : Sys} (h : Frame ps s t) :
    Appended (·.isDevice = true) s.log t.log := by
  obtain ⟨es, recorded⟩ := h.recorded
  exact ⟨es, recorded.log, recorded.device⟩

theorem Part.Kept.refl (s : Sys) (p : Part) : p.Kept s s := by
  cases p <;> rfl

theorem Part.Kept.trans {s t u : Sys} {p : Part} (h : p.Kept s t) (k : p.Kept t u) :
    p.Kept s u := by
  cases p <;> exact Eq.trans k h

theorem Recorded.refl (s : Sys) : Recorded s s [] :=
  ⟨by simp, by simp, fun _ _ h => absurd rfl h⟩

theorem Recorded.trans {s t u : Sys} {es fs : List Event} (h : Recorded s t es)
    (k : Recorded t u fs) : Recorded s u (es ++ fs) where
  log := by rw [k.log, h.log, List.append_assoc]
  device := by
    intro e he
    rcases List.mem_append.mp he with first | second
    · exact h.device e first
    · exact k.device e second
  covered := by
    intro c inside changed
    by_cases early : t.cell c = s.cell c
    · exact List.mem_append_right _ (k.covered c inside fun same => changed (same.trans early))
    · exact List.mem_append_left _ (h.covered c inside early)

namespace Frame

variable {ps qs : List Part} {s t u : Sys}

theorem refl (s : Sys) : Frame ps s s :=
  ⟨rfl, rfl, ⟨[], Recorded.refl s⟩, fun p _ => Part.Kept.refl s p, Or.inl rfl⟩

theorem trans (h : Frame ps s t) (k : Frame ps t u) : Frame ps s u where
  cpu := k.cpu.trans h.cpu
  fixed := k.fixed.trans h.fixed
  recorded := by
    obtain ⟨es, first⟩ := h.recorded
    obtain ⟨fs, second⟩ := k.recorded
    exact ⟨es ++ fs, first.trans second⟩
  parts := fun p out => (h.parts p out).trans (k.parts p out)
  semaphore := by
    rcases k.semaphore with same | changed
    · rw [same]
      exact h.semaphore
    · exact Or.inr changed

theorem mono (h : Frame ps s t) (sub : ∀ p ∈ ps, p ∈ qs) : Frame qs s t :=
  { h with parts := fun p out => h.parts p fun member => out (sub p member) }

theorem upTo {body : ℕ → Sys → Sys} (n : ℕ) (s : Sys) (step : ∀ i t, Frame ps t (body i t)) :
    Frame ps s (upTo body n s) :=
  upTo_rel (Frame ps) refl trans n s step

theorem onBit {value mask : U32} {f : Sys → Sys} (s : Sys) (step : Frame ps s (f s)) :
    Frame ps s (onBit value mask f s) :=
  onBit_rel (Frame ps) (refl s) step

theorem quiet (cpu : t.cpu.offLine = s.cpu.offLine) (fixed : t.bus.fixed = s.bus.fixed)
    (log : t.log = s.log) (cells : t.cell = s.cell)
    (semaphore : SemaphoreStep s.bus.spRegs.semaphore t.bus.spRegs.semaphore)
    (parts : ∀ p, p ∉ ps → p.Kept s t) : Frame ps s t where
  cpu := cpu
  fixed := fixed
  recorded :=
    ⟨[], by simp [log], by simp, fun c _ changed => absurd (congrFun cells c) changed⟩
  parts := parts
  semaphore := semaphore

theorem wrote {c : Cell} (cpu : t.cpu.offLine = s.cpu.offLine) (fixed : t.bus.fixed = s.bus.fixed)
    (log : t.log = s.log ++ [.wrote c])
    (semaphore : t.bus.spRegs.semaphore = s.bus.spRegs.semaphore)
    (cells : ∀ d, d ≠ c → t.cell d = s.cell d) (parts : ∀ p, p ∉ ps → p.Kept s t) :
    Frame ps s t where
  cpu := cpu
  fixed := fixed
  recorded := by
    refine ⟨[.wrote c], log, by simp [Event.isDevice], ?_⟩
    intro d _ changed
    by_cases here : d = c
    · simp [here]
    · exact absurd (cells d here) changed
  parts := parts
  semaphore := Or.inl semaphore

end Frame

section Primitives

variable {ps : List Part} (s : Sys) (off : ℕ) (b : U8)

theorem frame_notifyMemoryWrite (p : PhysicalAddress) (n : U32) :
    Frame ps s (s.notifyMemoryWrite p n) := by
  unfold Sys.notifyMemoryWrite
  split
  · exact Frame.refl s
  · refine ⟨rfl, rfl, ⟨[.notify p n], rfl, by simp [Event.isDevice], ?_⟩, ?_, Or.inl rfl⟩
    · intro c _ changed
      exact absurd (by cases c <;> rfl) changed
    · intro q _
      cases q <;> rfl

theorem frame_pokeRdram : Frame ps s (s.pokeRdram off b) := by
  refine Frame.wrote (c := .rdram off) rfl rfl rfl rfl ?_ ?_
  · intro d other
    cases d with
    | rdram o => exact Function.update_of_ne (by rintro rfl; exact other rfl) _ _
    | _ => rfl
  · intro p _
    cases p <;> rfl

theorem frame_pokeCart : Frame ps s (s.pokeCart off b) := by
  refine Frame.wrote (c := .cart off) rfl rfl rfl rfl ?_ ?_
  · intro d other
    cases d with
    | cart o => exact Function.update_of_ne (by rintro rfl; exact other rfl) _ _
    | _ => rfl
  · intro p _
    cases p <;> rfl

theorem frame_pokeSpDmem : Frame [.busDmem] s (s.pokeSpDmem off b) := by
  refine Frame.wrote (c := .dmem off) rfl rfl rfl rfl ?_ ?_
  · intro d other
    cases d with
    | dmem o => exact Function.update_of_ne (by rintro rfl; exact other rfl) _ _
    | _ => rfl
  · intro p out
    cases p <;> first | rfl | simp at out

theorem frame_pokeSpImem : Frame [.busImem] s (s.pokeSpImem off b) := by
  refine Frame.wrote (c := .imem off) rfl rfl rfl rfl ?_ ?_
  · intro d other
    cases d with
    | imem o => exact Function.update_of_ne (by rintro rfl; exact other rfl) _ _
    | _ => rfl
  · intro p out
    cases p <;> first | rfl | simp at out

theorem frame_pokePif : Frame [.pif] s (s.pokePif off b) := by
  refine Frame.wrote (c := .pif off) rfl rfl rfl rfl ?_ ?_
  · intro d other
    cases d with
    | pif o => exact Function.update_of_ne (by rintro rfl; exact other rfl) _ _
    | _ => rfl
  · intro p out
    cases p <;> first | rfl | simp at out

theorem frame_pokeRspDmem : Frame [.rspDmem] s (s.pokeRspDmem off b) := by
  refine Frame.quiet rfl rfl rfl rfl (Or.inl rfl) fun p out => ?_
  cases p <;> first | rfl | simp at out

theorem frame_pokeRspImem : Frame [.rspImem] s (s.pokeRspImem off b) := by
  refine Frame.quiet rfl rfl rfl rfl (Or.inl rfl) fun p out => ?_
  cases p <;> first | rfl | simp at out

theorem frame_pokeBusPif : Frame [.busPif] s (s.pokeBusPif off b) := by
  refine Frame.quiet rfl rfl rfl rfl (Or.inl rfl) fun p out => ?_
  cases p <;> first | rfl | simp at out

theorem frame_unwatched {t : Sys} (cpu : t.cpu = s.cpu) (bus : t.bus = s.bus) (pif : t.pif = s.pif)
    (rsp : t.rsp = s.rsp) (log : t.log = s.log) : Frame ps s t := by
  refine Frame.quiet (by rw [cpu]) (by rw [bus]) log ?_ (Or.inl (by rw [bus])) ?_
  · funext c
    cases c <;> simp [Sys.cell, bus, pif]
  · intro p _
    cases p <;> simp [Part.Kept, cpu, bus, pif, rsp]

end Primitives

section Interrupts

variable (s : Sys)

theorem or_andNot_self {w : ℕ} (x a : BitVec w) : (x ||| a) &&& ~~~a = x &&& ~~~a := by
  rw [BitVec.and_or_distrib_right, BitVec.and_not_self]
  exact BitVec.or_zero

@[simp]
theorem offLine_setRcpInterrupt (c : Cpu) (level : Bool) :
    (c.setRcpInterrupt level).offLine = c.offLine := by
  cases level <;>
    simp [Cpu.offLine, Cpu.setRcpInterrupt, Cpu.setCop0Reg, or_andNot_self, BitVec.and_assoc]

theorem frame_notify : Frame [.irq] s (Mi.notify s) := by
  refine Frame.quiet (offLine_setRcpInterrupt _ _) rfl rfl rfl (Or.inl rfl) fun p out => ?_
  cases p <;> first | rfl | simp at out

theorem frame_setMi (m : MipsInterface) : Frame [.irq] s { s with bus.mi := m } := by
  refine Frame.quiet rfl rfl rfl rfl (Or.inl rfl) fun p out => ?_
  cases p <;> first | rfl | simp at out

theorem frame_raise (bit : U32) : Frame [.irq] s (Mi.raise s bit) :=
  (frame_setMi s _).trans (frame_notify _)

theorem frame_clear (bit : U32) : Frame [.irq] s (Mi.clear s bit) :=
  (frame_setMi s _).trans (frame_notify _)

theorem frame_miWrite (offset value : U32) : Frame [.irq] s (Mi.write s offset value) := by
  unfold Mi.write
  split
  · exact frame_setMi s _
  · exact (frame_setMi s _).trans (frame_notify _)
  · exact Frame.refl s

end Interrupts

section Joybus

variable (s : Sys)

theorem changed_device (cell : ℕ → Cell) (size : ℕ) (old new : Bytes) :
    ∀ e ∈ Sys.changed cell size old new, e.isDevice = true := by
  intro e he
  obtain ⟨i, _, rfl⟩ := List.mem_map.mp he
  rfl

theorem mem_changed {cell : ℕ → Cell} {size off : ℕ} {old new : Bytes} (inside : off < size)
    (differs : new off ≠ old off) : .wrote (cell off) ∈ Sys.changed cell size old new := by
  refine List.mem_map.mpr ⟨off, ?_, rfl⟩
  simp [inside, differs]

theorem frame_processJoybus : Frame [.pif] s s.processJoybus := by
  refine ⟨rfl, rfl, ⟨_, rfl, changed_device _ _ _ _, ?_⟩, ?_, Or.inl rfl⟩
  · intro c inside differs
    cases c with
    | pif off => exact mem_changed inside differs
    | _ => exact absurd rfl differs
  · intro p out
    cases p <;> first | rfl | simp at out

theorem frame_mirrorPif : Frame [.busPif] s s.mirrorPif := by
  refine Frame.quiet rfl rfl rfl rfl (Or.inl rfl) fun p out => ?_
  cases p <;> first | rfl | simp at out

end Joybus

section Peripheral

variable {ps : List Part} (s : Sys)

theorem frame_setRdramByte (addr : U32) (b : U8) : Frame ps s (s.setRdramByte addr b) := by
  unfold Sys.setRdramByte
  split
  · exact Frame.refl s
  · exact frame_pokeRdram s _ b

theorem frame_cartWriteByte (addr : U32) (b : U8) : Frame ps s (s.cartWriteByte addr b) := by
  unfold Sys.cartWriteByte
  split
  · exact frame_pokeCart s _ b
  · exact Frame.refl s

theorem frame_setPi (r : PeripheralInterface) : Frame [.irq] s { s with bus.pi := r } := by
  refine Frame.quiet rfl rfl rfl rfl (Or.inl rfl) fun p out => ?_
  cases p <;> first | rfl | simp at out

theorem frame_setSi (r : SerialInterface) : Frame [.irq] s { s with bus.si := r } := by
  refine Frame.quiet rfl rfl rfl rfl (Or.inl rfl) fun p out => ?_
  cases p <;> first | rfl | simp at out

theorem frame_piFinishDma : Frame [.irq] s (Pi.finishDma s) := by
  refine Frame.trans ?_ (frame_raise _ _)
  exact frame_setPi s _

theorem frame_piSetDmaBusy : Frame [.irq] s (Pi.setDmaBusy s) := frame_setPi s _

theorem frame_piAdvance (dram cart length : U32) :
    Frame [.irq] s (Pi.advance s dram cart length) := by
  refine Frame.trans ?_ (frame_piFinishDma _)
  exact frame_setPi s _

theorem frame_startDmaToRdram : Frame [.irq] s (Pi.startDmaToRdram s) := by
  refine Frame.trans ?_ (frame_piAdvance _ _ _ _)
  refine Frame.trans ?_ (frame_notifyMemoryWrite _ _ _)
  refine Frame.trans (frame_piSetDmaBusy s) ?_
  exact Frame.upTo _ _ fun i t => frame_setRdramByte t _ _

theorem frame_startDmaToCart : Frame [.irq] s (Pi.startDmaToCart s) := by
  refine Frame.trans ?_ (frame_piAdvance _ _ _ _)
  refine Frame.trans (frame_piSetDmaBusy s) ?_
  exact Frame.upTo _ _ fun i t => frame_cartWriteByte t _ _

theorem frame_piWriteStatus (value : U32) : Frame [.irq] s (Pi.writeStatus s value) := by
  have reset : Frame [.irq] s
      (if value &&& Pi.WrReset ≠ 0 then
        { s with bus.pi.status := s.bus.pi.status &&&
            ~~~(Pi.StatusDmaBusy ||| Pi.StatusIoBusy ||| Pi.StatusError) }
      else s) := by
    split
    · exact frame_setPi s _
    · exact Frame.refl s
  simp only [Pi.writeStatus]
  by_cases clr : value &&& Pi.WrClrIntr ≠ 0
  · rw [if_pos clr]
    refine Frame.trans ?_ (frame_clear _ _)
    exact reset.trans (frame_setPi _ _)
  · rw [if_neg clr]
    exact reset

theorem frame_piWrite (offset value : U32) : Frame [.irq] s (Pi.write s offset value) := by
  unfold Pi.write
  split
  case h_3 =>
    refine Frame.trans ?_ (frame_startDmaToRdram _)
    exact frame_setPi s _
  case h_4 =>
    refine Frame.trans ?_ (frame_startDmaToCart _)
    exact frame_setPi s _
  case h_5 => exact frame_piWriteStatus s value
  case h_14 => exact Frame.refl s
  all_goals exact frame_setPi s _

def serialParts : List Part := [.pif, .busPif, .irq]

theorem frame_siFinishDma : Frame [.irq] s (Si.finishDma s) := by
  refine Frame.trans ?_ (frame_raise _ _)
  exact frame_setSi s _

theorem frame_siSetDmaBusy : Frame [.irq] s (Si.setDmaBusy s) := frame_setSi s _

theorem frame_siRunRequested : Frame [.pif] s (Si.runRequested s) := by
  unfold Si.runRequested
  split
  · exact frame_processJoybus s
  · exact Frame.refl s

theorem frame_dmaFromPif : Frame serialParts s (Si.dmaFromPif s) := by
  refine Frame.trans ?_ ((frame_siFinishDma _).mono (by decide))
  refine Frame.trans ?_ ((frame_setSi _ _).mono (by decide))
  refine Frame.trans ?_ ((frame_mirrorPif _).mono (by decide))
  refine Frame.trans ?_ (frame_notifyMemoryWrite _ _ _)
  refine Frame.trans ?_ (Frame.upTo _ _ fun i t => frame_setRdramByte t _ _)
  refine Frame.trans ?_ ((frame_siRunRequested _).mono (by decide))
  exact (frame_siSetDmaBusy s).mono (by decide)

theorem frame_dmaToPif : Frame serialParts s (Si.dmaToPif s) := by
  have loaded : Frame serialParts s
      (upTo (fun i t => t.pokePif i (t.bus.rdramByte
        ((s.bus.si.dramAddr &&& ~~~7) + BitVec.ofNat 32 i))) kPifRamSize (Si.setDmaBusy s)) := by
    refine Frame.trans ?_ (Frame.upTo _ _ fun i t => (frame_pokePif t _ _).mono (by decide))
    exact (frame_siSetDmaBusy s).mono (by decide)
  have mirrored := loaded.trans ((frame_mirrorPif _).mono (by decide))
  refine Frame.trans ?_ ((frame_siFinishDma _).mono (by decide))
  refine Frame.trans ?_ ((frame_setSi _ _).mono (by decide))
  split
  · refine Frame.trans ?_ ((frame_mirrorPif _).mono (by decide))
    refine Frame.trans ?_ ((frame_processJoybus _).mono (by decide))
    exact mirrored
  · exact mirrored

theorem frame_siWrite (offset value : U32) : Frame serialParts s (Si.write s offset value) := by
  unfold Si.write
  split
  · exact (frame_setSi s _).mono (by decide)
  · exact frame_dmaFromPif s
  · exact frame_dmaToPif s
  · refine Frame.trans ?_ ((frame_clear _ _).mono (by decide))
    exact (frame_setSi s _).mono (by decide)
  · exact Frame.refl s

end Peripheral

section SpRegisters

variable {ps : List Part} (s : Sys)

theorem frame_setSpBlock {r : SpRegisters} (same : r.semaphore = s.bus.spRegs.semaphore) :
    Frame [.spStatus] s { s with bus.spRegs := r } := by
  refine Frame.quiet rfl rfl rfl rfl (Or.inl same) fun p out => ?_
  cases p <;> first | rfl | simp at out

theorem frame_setSpRegs {r : SpRegisters} (same : r.status = s.bus.spRegs.status)
    (semaphore : SemaphoreStep s.bus.spRegs.semaphore r.semaphore) :
    Frame ps s { s with bus.spRegs := r } := by
  refine Frame.quiet rfl rfl rfl rfl semaphore fun p out => ?_
  cases p <;> first | rfl | exact same

theorem frame_setRspFlags (halted broke intrOnBreak : Bool) :
    Frame [.rspFlags] s
      { s with rsp.halted := halted, rsp.broke := broke, rsp.intrOnBreak := intrOnBreak } := by
  refine Frame.quiet rfl rfl rfl rfl (Or.inl rfl) fun p out => ?_
  cases p <;> first | rfl | simp at out

theorem frame_setRsp {r : Rsp} (dmem : r.dmem = s.rsp.dmem) (imem : r.imem = s.rsp.imem)
    (halted : r.halted = s.rsp.halted) (broke : r.broke = s.rsp.broke)
    (intr : r.intrOnBreak = s.rsp.intrOnBreak) : Frame ps s { s with rsp := r } := by
  refine Frame.quiet rfl rfl rfl rfl (Or.inl rfl) fun p out => ?_
  cases p <;> simp [Part.Kept, dmem, imem, halted, broke, intr]

theorem frame_readSemaphore : Frame ps s (SpRegs.readSemaphore s).2 :=
  frame_setSpRegs s rfl (Or.inr (Or.inr rfl))

def spCopy (imem : Bool) : List Part := if imem then [.busImem] else [.busDmem]

theorem frame_setSpmem (imem : Bool) (off : ℕ) (b : U8) :
    Frame (spCopy imem) s (SpRegs.setSpmem s imem off b) := by
  cases imem with
  | true => exact frame_pokeSpImem s off b
  | false => exact frame_pokeSpDmem s off b

theorem frame_dmaByte (toSp imem : Bool) (mem dram : U32) (i : ℕ) :
    Frame (if toSp then spCopy imem else []) s (SpRegs.dmaByte toSp imem mem dram i s) := by
  cases toSp with
  | true => exact frame_setSpmem s imem _ _
  | false => exact frame_setRdramByte s _ _

theorem frame_dmaLine (toSp imem : Bool) (d : SpRegs.SpDmaLen) (t : SpRegs.DmaState) :
    Frame (if toSp then spCopy imem else []) t.sys (SpRegs.dmaLine toSp imem d t).sys := by
  have line := Frame.upTo d.length.toNat t.sys fun i u => frame_dmaByte u toSp imem t.mem t.dram i
  cases toSp with
  | true => exact line.trans (frame_notifyMemoryWrite _ _ _)
  | false => exact line.trans (frame_notifyMemoryWrite _ _ _)

theorem frame_dmaLines (toSp imem : Bool) (d : SpRegs.SpDmaLen) (n : ℕ) (t : SpRegs.DmaState) :
    Frame (if toSp then spCopy imem else []) t.sys
      (upTo (fun _ u => SpRegs.dmaLine toSp imem d u) n t).sys :=
  upTo_rel (fun a b : SpRegs.DmaState => Frame _ a.sys b.sys)
    (fun _ => Frame.refl _) Frame.trans n t
    fun _ u => frame_dmaLine toSp imem d u

theorem frame_copyToRsp (imem : Bool) :
    Frame [.rspDmem, .rspImem] s (SpRegs.copyToRsp s imem) := by
  cases imem with
  | true =>
    refine Frame.quiet rfl rfl rfl rfl (Or.inl rfl) fun p out => ?_
    cases p <;> first | rfl | simp at out
  | false =>
    refine Frame.quiet rfl rfl rfl rfl (Or.inl rfl) fun p out => ?_
    cases p <;> first | rfl | simp at out

def spParts : List Part := [.busDmem, .busImem, .rspDmem, .rspImem, .rspFlags, .spStatus, .irq]

theorem frame_doDma (toSp : Bool) (lenReg : U32) :
    Frame spParts s (SpRegs.doDma s toSp lenReg) := by
  have copies : ∀ imem : Bool, ∀ p ∈ (if toSp then spCopy imem else []), p ∈ spParts := by
    intro imem
    cases toSp <;> cases imem <;> decide
  refine Frame.trans ?_ ((frame_raise _ _).mono (by decide))
  refine Frame.trans ?_ ((frame_setSpBlock _ (by rfl)).mono (by decide))
  refine Frame.trans ?_ ((frame_copyToRsp _ _).mono (by decide))
  refine Frame.trans ?_ ((frame_dmaLines _ _ _ _ _).mono (copies _))
  exact (frame_setSpBlock s (by rfl)).mono (by decide)

theorem frame_spSetStatus (bits : U32) : Frame [.spStatus] s (SpRegs.setStatus s bits) :=
  frame_setSpBlock s rfl

theorem frame_spClearStatus (bits : U32) : Frame [.spStatus] s (SpRegs.clearStatus s bits) :=
  frame_setSpBlock s rfl

theorem frame_spWritePc (offset value : U32) : Frame ps s (SpRegs.writePc s offset value) := by
  unfold SpRegs.writePc
  split
  · exact frame_setRsp s rfl rfl rfl rfl rfl
  · exact Frame.refl s

theorem frame_notifyBreak (intrOnBreak : Bool) :
    Frame spParts s (SpRegs.notifyBreak s intrOnBreak) := by
  have status : Frame spParts s (SpRegs.setStatus s (SpRegisters.StBroke ||| SpRegisters.StHalt)) :=
    (frame_spSetStatus s _).mono (by decide)
  unfold SpRegs.notifyBreak
  cases intrOnBreak with
  | true => exact status.trans ((frame_raise _ _).mono (by decide))
  | false => exact status

theorem frame_pullMemFromBus : Frame [.rspDmem, .rspImem] s s.pullMemFromBus := by
  refine Frame.quiet rfl rfl rfl rfl (Or.inl rfl) fun p out => ?_
  cases p <;> first | rfl | simp at out

theorem frame_pushMemToBus : Frame [.busDmem, .busImem] s s.pushMemToBus := by
  refine ⟨rfl, rfl, ⟨_, List.append_assoc _ _ _, ?_, ?_⟩, ?_, Or.inl rfl⟩
  · intro e he
    rcases List.mem_append.mp he with dmem | imem
    · exact changed_device _ _ _ _ e dmem
    · exact changed_device _ _ _ _ e imem
  · intro c inside differs
    cases c with
    | dmem off => exact List.mem_append_left _ (mem_changed inside differs)
    | imem off => exact List.mem_append_right _ (mem_changed inside differs)
    | _ => exact absurd rfl differs
  · intro p out
    cases p <;> first | rfl | simp at out

theorem frame_clearHalt : Frame spParts s (SpRegs.clearHalt s) := by
  refine Frame.trans ?_ ((frame_pullMemFromBus _).mono (by decide))
  refine Frame.trans ?_ ((frame_setRspFlags _ false false _).mono (by decide))
  refine Frame.trans ?_ ((frame_spClearStatus _ _).mono (by decide))
  exact (frame_spClearStatus s _).mono (by decide)

theorem frame_setHalt : Frame spParts s (SpRegs.setHalt s) := by
  refine Frame.trans ?_ ((frame_setRspFlags _ true _ _).mono (by decide))
  exact (frame_spSetStatus s _).mono (by decide)

theorem frame_clearBroke : Frame spParts s (SpRegs.clearBroke s) := by
  refine Frame.trans ?_ ((frame_setRspFlags _ _ false _).mono (by decide))
  exact (frame_spClearStatus s _).mono (by decide)

theorem frame_clearIntrBreak : Frame spParts s (SpRegs.clearIntrBreak s) := by
  refine Frame.trans ?_ ((frame_setRspFlags _ _ _ false).mono (by decide))
  exact (frame_spClearStatus s _).mono (by decide)

theorem frame_setIntrBreak : Frame spParts s (SpRegs.setIntrBreak s) := by
  refine Frame.trans ?_ ((frame_setRspFlags _ _ _ true).mono (by decide))
  exact (frame_spSetStatus s _).mono (by decide)

theorem frame_signalStep (value : U32) (i : ℕ) :
    Frame [.spStatus] s (SpRegs.signalStep value i s) := by
  simp only [SpRegs.signalStep]
  refine Frame.trans ?_ (Frame.onBit _ (frame_spSetStatus _ _))
  exact Frame.onBit s (frame_spClearStatus s _)

theorem frame_applyStatusWrite (value : U32) :
    Frame spParts s (SpRegs.applyStatusWrite s value) := by
  refine Frame.trans ?_ (Frame.upTo _ _ fun i t => (frame_signalStep t value i).mono (by decide))
  refine Frame.trans ?_ (Frame.onBit _ (frame_setIntrBreak _))
  refine Frame.trans ?_ (Frame.onBit _ (frame_clearIntrBreak _))
  refine Frame.trans ?_ (Frame.onBit _ ((frame_spSetStatus _ _).mono (by decide)))
  refine Frame.trans ?_ (Frame.onBit _ ((frame_spClearStatus _ _).mono (by decide)))
  refine Frame.trans ?_ (Frame.onBit _ ((frame_raise _ _).mono (by decide)))
  refine Frame.trans ?_ (Frame.onBit _ ((frame_clear _ _).mono (by decide)))
  refine Frame.trans ?_ (Frame.onBit _ (frame_clearBroke _))
  refine Frame.trans ?_ (Frame.onBit _ (frame_setHalt _))
  exact Frame.onBit s (frame_clearHalt s)

theorem frame_spWrite (offset value : U32) : Frame spParts s (SpRegs.write s offset value) := by
  unfold SpRegs.write
  split
  case h_3 => exact frame_doDma s true value
  case h_4 => exact frame_doDma s false value
  case h_5 => exact frame_applyStatusWrite s value
  case h_6 => exact frame_setSpRegs s rfl (Or.inr (Or.inl rfl))
  case h_7 => exact Frame.refl s
  all_goals exact frame_setSpRegs s rfl (Or.inl rfl)

end SpRegisters

section VideoAudio

variable {ps : List Part} (s : Sys)

theorem frame_setVi (v : VideoInterface) : Frame ps s { s with vi := v } :=
  frame_unwatched s rfl rfl rfl rfl rfl

theorem frame_setAi (a : AudioInterface) : Frame ps s { s with ai := a } :=
  frame_unwatched s rfl rfl rfl rfl rfl

theorem frame_viWrite (offset value : U32) : Frame [.irq] s (Vi.write s offset value) := by
  simp only [Vi.write]
  split_ifs
  · exact Frame.refl s
  · exact (frame_setVi s _).trans (frame_clear _ _)
  · exact (frame_setVi s _).trans (frame_setVi _ _)
  · exact frame_setVi s _

theorem frame_aiWrite (offset value : U32) : Frame [.irq] s (Ai.write s offset value) := by
  unfold Ai.write
  split
  · exact frame_clear s _
  · exact frame_setAi s _
  · exact frame_setAi s _
  · exact frame_setAi s _
  · exact frame_setAi s _
  · exact frame_setAi s _
  · exact Frame.refl s

end VideoAudio

end N64
