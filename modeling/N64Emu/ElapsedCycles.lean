import N64Emu.Clocks
import N64Emu.RunInvariant
import N64Emu.AudioPlayback

/-!
# Time of the emulator

`run_cycles` splits its request into chunks, runs each on the CPU and lets the
devices catch up in batches. No cycle is lost or counted twice on the way: the
CPU, the scheduler and the devices see the same total.
-/

set_option autoImplicit false

namespace N64

open Words Loops Runs

namespace Cpu

section Words

variable {fp : HostFpu} {s : Sys} {m : Machine}

theorem word_cycles (fp : HostFpu) {a : CpuAct} (word : a.isWord = true) (s : Sys) :
    (a.perform fp s).cpu.cycles = s.cpu.cycles + 1 := by
  cases a with
  | step =>
    cases halted : s.cpu.halted with
    | true =>
      show (step fp s).cpu.cycles = _
      rw [step, if_pos halted]
      rfl
    | false =>
      obtain ⟨e, moved, retired⟩ := step_clocked fp halted
      exact retired.cycles.trans (by rw [moved.cycles])
  | cached insn =>
    obtain ⟨e, moved, retired⟩ := blockInsn_clocked fp s insn
    exact retired.cycles.trans (by rw [moved.cycles])
  | _ => cases word

theorem words_cycles {acts : List CpuAct} (words : ∀ a ∈ acts, a.isWord = true) (s : Sys) :
    (Runs.run (CpuAct.performFresh fp) acts s).cpu.cycles =
      s.cpu.cycles + BitVec.ofNat 64 acts.length := by
  induction acts generalizing s with
  | nil => exact (BitVec.add_zero _).symm
  | cons a acts ih =>
    have first : (a.performFresh fp s).cpu.cycles = s.cpu.cycles + 1 :=
      word_cycles fp (words a List.mem_cons_self) { s with log := [] }
    have rest := ih (fun b member => words b (List.mem_cons_of_mem a member)) (a.performFresh fp s)
    rw [run_cons, rest, first, List.length_cons, Nat.add_comm, BitVec.ofNat_add, BitVec.add_assoc]
    rfl

theorem run_cycles (fp : HostFpu) (n : ℕ) (m : Machine) :
    (run fp n m).2.sys.cpu.cycles = m.sys.cpu.cycles + BitVec.ofNat 64 (run fp n m).1 := by
  have performed := run_performed fp n m
  rw [performed.sys, words_cycles performed.words, performed.count]

end Words

end Cpu

namespace Emulator

/-- What `run_cycles` does, part by part. -/
inductive Slice where
  | steps (chunk : Cycles)
  | flush
  | publish
  deriving DecidableEq

namespace Slice

def perform (fp : HostFpu) : Slice → Emulator → Emulator
  | .steps chunk, e => (e.stepCpuRsp fp chunk).2
  | .flush, e => e.flushDevices
  | .publish, e => e.pushRsp

def ticks : Slice → Emulator → List ℕ
  | .flush, e => if e.deviceDebt = 0 then [] else [e.deviceDebt.toNat]
  | _, _ => []

end Slice

def cyclesGoing (t : Cycles × Emulator) : Bool := 0 < t.1 && !t.2.stopRequested

def passSlices (fp : HostFpu) (t : Cycles × Emulator) : List Slice :=
  let chunk := minCycles t.1 kDeviceBatch
  .steps chunk :: if kDeviceBatch ≤ (t.2.stepCpuRsp fp chunk).2.deviceDebt then [.flush] else []

/-- The loop of `run_cycles`, with the cycles left. -/
def cyclesLoop (fp : HostFpu) (cycles : Cycles) (e : Emulator) : Cycles × Emulator :=
  whileDo cyclesGoing (cyclesPass fp) cycles.toNat (cycles, e)

/-- What `run_cycles` does, in order. -/
def cyclesSlices (fp : HostFpu) (cycles : Cycles) (e : Emulator) : List Slice :=
  if cycles = 0 ∨ e.stopRequested then []
  else
    (passes cyclesGoing (cyclesPass fp) cycles.toNat (cycles, e)).flatMap (passSlices fp) ++
      [.flush, .publish]

/-- Two states between which `did` cycles have passed. -/
structure Elapsed (did : Cycles) (e e' : Emulator) : Prop where
  executed : e'.cyclesExecuted = e.cyclesExecuted + did
  cpu : e'.sys.cpu.cycles = e.sys.cpu.cycles + did
  time : e'.scheduler.now + e'.deviceDebt = e.scheduler.now + e.deviceDebt + did

section Elapsed

variable {fp : HostFpu} {e e' e'' : Emulator} {m : Machine}

theorem Elapsed.refl (e : Emulator) : Elapsed 0 e e :=
  ⟨(BitVec.add_zero _).symm, (BitVec.add_zero _).symm, (BitVec.add_zero _).symm⟩

theorem Elapsed.trans {a b : Cycles} (h : Elapsed a e e') (k : Elapsed b e' e'') :
    Elapsed (a + b) e e'' := by
  refine ⟨?_, ?_, ?_⟩
  · rw [k.executed, h.executed, BitVec.add_assoc]
  · rw [k.cpu, h.cpu, BitVec.add_assoc]
  · rw [k.time, h.time, BitVec.add_assoc]

theorem cycles_offLine {c d : Cpu} (h : d.offLine = c.offLine) : d.cycles = c.cycles :=
  (Cpu.keepsClocks_offLine h).cycles

theorem rspRun_cycles (n : ℕ) (s : Sys) : (Rsp.run n s).cpu.cycles = s.cpu.cycles := by
  apply whileDo_preserves (fun t : Sys => t.cpu.cycles = s.cpu.cycles) n rfl
  intro t _ same
  exact (cycles_offLine (Rsp.frame_step t).cpu).trans same

theorem stepCpu_spec (fp : HostFpu) (chunk : Cycles) (nonzero : chunk ≠ 0) (m : Machine) :
    let did := (stepCpu fp chunk m).1
    did ≠ 0 ∧ did.toNat ≤ chunk.toNat ∧
      (stepCpu fp chunk m).2.sys.cpu.cycles = m.sys.cpu.cycles + did := by
  have most := Cpu.run_count fp chunk.toNat m
  have ran := Cpu.run_cycles fp chunk.toNat m
  have positive : chunk.toNat ≠ 0 := fun zero => nonzero (BitVec.eq_of_toNat_eq zero)
  rw [stepCpu]
  generalize Cpu.run fp chunk.toNat m = t at most ran
  dsimp only
  by_cases nothing : t.1 = 0
  · rw [if_pos nothing]
    have one : (1 : Cycles) ≠ 0 := by decide
    refine ⟨one, Nat.one_le_iff_ne_zero.mpr positive, ?_⟩
    have stepped : (t.2.perform (Cpu.step fp)).sys.cpu.cycles = t.2.sys.cpu.cycles + 1 :=
      Cpu.word_cycles fp (a := .step) rfl { t.2.sys with log := [] }
    rw [stepped, ran, nothing]
    exact congrArg (· + 1) (BitVec.add_zero _)
  · rw [if_neg nothing]
    have small : t.1 < 2 ^ 64 := Nat.lt_of_le_of_lt most chunk.isLt
    have did : (BitVec.ofNat 64 t.1).toNat = t.1 := by
      rw [BitVec.toNat_ofNat, Nat.mod_eq_of_lt small]
    refine ⟨?_, ?_, ran⟩
    · intro zero
      have counted : t.1 = 0 := did.symm.trans (congrArg BitVec.toNat zero)
      exact nothing counted
    · rw [did]
      exact most

theorem stepCpuRsp_spec (fp : HostFpu) (chunk : Cycles) (nonzero : chunk ≠ 0) (e : Emulator) :
    let did := (e.stepCpuRsp fp chunk).1
    let e' := (e.stepCpuRsp fp chunk).2
    did ≠ 0 ∧ did.toNat ≤ chunk.toNat ∧ Elapsed did e e' ∧
      e'.deviceDebt = e.deviceDebt + did ∧ e'.stopRequested = e.stopRequested := by
  obtain ⟨positive, most, cycles⟩ := stepCpu_spec fp chunk nonzero e.machine
  rw [stepCpuRsp, if_neg nonzero]
  generalize stepCpu fp chunk e.machine = t at positive most cycles
  dsimp only
  refine ⟨positive, most, ⟨rfl, ?_, ?_⟩, rfl, rfl⟩
  · refine Eq.trans ?_ cycles
    show (if _ then _ else _ : Machine).sys.cpu.cycles = _
    split
    · rfl
    · exact rspRun_cycles _ _
  · exact (BitVec.add_assoc _ _ _).symm

theorem raise_offLine (s : Sys) (bit : U32) : (Mi.raise s bit).cpu.offLine = s.cpu.offLine :=
  offLine_setRcpInterrupt _ _

theorem viTick_offLine (s : Sys) (d : Cycles) : (Vi.tick s d).cpu.offLine = s.cpu.offLine := by
  simp only [Vi.tick]
  split
  · rfl
  · refine whileDo_preserves (fun t : Sys => t.cpu.offLine = s.cpu.offLine) _ ?_ ?_
    · rfl
    intro t _ same
    simp only [Vi.tickLine]
    split
    · exact (raise_offLine _ _).trans same
    · exact same

theorem aiTick_offLine (s : Sys) (d : Cycles) : (Ai.tick s d).cpu.offLine = s.cpu.offLine := by
  have finished (t : Sys) : (Ai.finishCurrentDma t).cpu.offLine = t.cpu.offLine := by
    simp only [Ai.finishCurrentDma]
    split
    · exact raise_offLine _ _
    · exact raise_offLine _ _
  simp only [Ai.tick]
  split
  · rfl
  · split
    · exact finished _
    · rfl

theorem flushDevices_spec (e : Emulator) :
    Elapsed 0 e e.flushDevices ∧ e.flushDevices.deviceDebt = 0 ∧
      e.flushDevices.stopRequested = e.stopRequested := by
  rw [flushDevices]
  by_cases nothing : e.deviceDebt = 0
  · rw [if_pos nothing]
    exact ⟨Elapsed.refl e, nothing, rfl⟩
  · rw [if_neg nothing]
    refine ⟨⟨(BitVec.add_zero _).symm, ?_, ?_⟩, rfl, rfl⟩
    · have ticked : (tickDevices e.deviceDebt { e.sys with log := [] }).cpu.offLine =
          e.sys.cpu.offLine := (aiTick_offLine _ _).trans (viTick_offLine _ _)
      exact (cycles_offLine ticked).trans (BitVec.add_zero _).symm
    · rfl

theorem flush_ticks (e : Emulator) : (Slice.flush.ticks e).sum = e.deviceDebt.toNat := by
  rw [Slice.ticks]
  split
  case isTrue nothing => rw [nothing]; rfl
  case isFalse => exact List.sum_singleton

theorem pushRsp_spec (e : Emulator) : Elapsed 0 e e.pushRsp ∧
    e.pushRsp.deviceDebt = e.deviceDebt := by
  rw [pushRsp]
  split
  · exact ⟨⟨(BitVec.add_zero _).symm, (BitVec.add_zero _).symm, (BitVec.add_zero _).symm⟩, rfl⟩
  · exact ⟨Elapsed.refl e, rfl⟩

end Elapsed

section Loop

variable {fp : HostFpu} {e : Emulator} {t : Cycles × Emulator}

/-- The cycles the devices have not seen, and those not run yet. -/
def pending (t : Cycles × Emulator) : ℕ := t.2.deviceDebt.toNat + t.1.toNat

theorem minCycles_spec (left : Cycles) (nonzero : left ≠ 0) :
    minCycles left kDeviceBatch ≠ 0 ∧
      (minCycles left kDeviceBatch).toNat ≤ left.toNat ∧
      (minCycles left kDeviceBatch).toNat ≤ 32 := by
  have positive : left.toNat ≠ 0 := fun zero => nonzero (BitVec.eq_of_toNat_eq zero)
  have batch : kDeviceBatch.toNat = 32 := rfl
  rw [minCycles]
  split
  case isTrue less =>
    have smaller : 32 < left.toNat := less
    exact ⟨by decide, by omega, by omega⟩
  case isFalse more =>
    have small : ¬ 32 < left.toNat := more
    exact ⟨nonzero, Nat.le_refl _, by omega⟩

/-- Slices that lead from one state of the loop to another and hand on to the
devices what was run, unless more than a batch was owed before. -/
structure Sliced (fp : HostFpu) (slices : List Slice) (t t' : Cycles × Emulator) : Prop where
  elapsed : Elapsed (t.1 - t'.1) t.2 t'.2
  running : t'.2.stopRequested = t.2.stopRequested
  performed : t'.2 = Runs.run (Slice.perform fp) slices t.2
  ticks : t.2.deviceDebt.toNat < 32 → t'.2.deviceDebt.toNat < 32 ∧
    (Runs.trace (Slice.perform fp) Slice.ticks slices t.2).sum + pending t' = pending t

theorem sliced_nil (t : Cycles × Emulator) : Sliced fp [] t t := by
  refine ⟨?_, rfl, rfl, fun small => ⟨small, ?_⟩⟩
  · rw [BitVec.sub_self]
    exact Elapsed.refl _
  · exact Nat.zero_add _

theorem Sliced.trans {slices slices' : List Slice} {t' t'' : Cycles × Emulator}
    (h : Sliced fp slices t t') (k : Sliced fp slices' t' t'') :
    Sliced fp (slices ++ slices') t t'' := by
  have total : t.1 - t'.1 + (t'.1 - t''.1) = t.1 - t''.1 := by
    rw [BitVec.sub_eq_add_neg, BitVec.sub_eq_add_neg, BitVec.sub_eq_add_neg, BitVec.add_assoc,
      ← BitVec.add_assoc (-t'.1), BitVec.add_comm (-t'.1), BitVec.add_right_neg, BitVec.zero_add]
  refine ⟨?_, k.running.trans h.running, ?_, fun small => ?_⟩
  · rw [← total]
    exact h.elapsed.trans k.elapsed
  · rw [run_append, ← h.performed]
    exact k.performed
  · obtain ⟨small', earlier⟩ := h.ticks small
    obtain ⟨small'', later⟩ := k.ticks small'
    refine ⟨small'', ?_⟩
    rw [trace_append, ← h.performed, List.sum_append]
    omega

theorem cyclesPass_spec (fp : HostFpu) (nonzero : t.1 ≠ 0) :
    (cyclesPass fp t).1.toNat < t.1.toNat ∧ Sliced fp (passSlices fp t) t (cyclesPass fp t) := by
  obtain ⟨chunk, inside, small⟩ := minCycles_spec t.1 nonzero
  obtain ⟨positive, most, elapsed, debt, stop⟩ :=
    stepCpuRsp_spec fp (minCycles t.1 kDeviceBatch) chunk t.2
  have pass : cyclesPass fp t = (t.1 - (t.2.stepCpuRsp fp (minCycles t.1 kDeviceBatch)).1,
    if kDeviceBatch ≤ (t.2.stepCpuRsp fp (minCycles t.1 kDeviceBatch)).2.deviceDebt then
      (t.2.stepCpuRsp fp (minCycles t.1 kDeviceBatch)).2.flushDevices
    else (t.2.stepCpuRsp fp (minCycles t.1 kDeviceBatch)).2) := rfl
  have slices : passSlices fp t = .steps (minCycles t.1 kDeviceBatch) ::
    if kDeviceBatch ≤ (t.2.stepCpuRsp fp (minCycles t.1 kDeviceBatch)).2.deviceDebt then [.flush]
    else [] := rfl
  have stepped : (t.2.stepCpuRsp fp (minCycles t.1 kDeviceBatch)).2 =
    (Slice.steps (minCycles t.1 kDeviceBatch)).perform fp t.2 := rfl
  generalize minCycles t.1 kDeviceBatch = c at *
  generalize (t.2.stepCpuRsp fp c).1 = did at *
  generalize (t.2.stepCpuRsp fp c).2 = e at *
  have counted : did.toNat ≠ 0 := fun zero => positive (BitVec.eq_of_toNat_eq zero)
  have left : (t.1 - did).toNat = t.1.toNat - did.toNat :=
    BitVec.toNat_sub_of_le (by rw [BitVec.le_def]; omega)
  have back : t.1 - (t.1 - did) = did := by
    rw [BitVec.sub_eq_iff_eq_add, BitVec.add_comm, BitVec.sub_add_cancel]
  have owed (before : t.2.deviceDebt.toNat < 32) :
      e.deviceDebt.toNat = t.2.deviceDebt.toNat + did.toNat := by
    rw [debt, BitVec.toNat_add, Nat.mod_eq_of_lt (by omega)]
  have ran : Elapsed (t.1 - (t.1 - did)) t.2 e := by
    rw [back]
    exact elapsed
  have less : (t.1 - did).toNat < t.1.toNat := by omega
  by_cases batch : kDeviceBatch ≤ e.deviceDebt
  · obtain ⟨flushed, empty, kept⟩ := flushDevices_spec e
    rw [pass, slices, if_pos batch, if_pos batch]
    refine ⟨less, ?_, kept.trans stop, ?_, fun small => ?_⟩
    · rw [← BitVec.add_zero (t.1 - _)]
      exact ran.trans flushed
    · rw [run_cons, ← stepped]
      rfl
    · have zero : (0 : Cycles).toNat = 0 := rfl
      rw [empty]
      refine ⟨by decide, ?_⟩
      rw [Runs.trace, ← stepped]
      show (Slice.flush.ticks e ++ []).sum +
        (e.flushDevices.deviceDebt.toNat + (t.1 - did).toNat) = _
      rw [List.append_nil, flush_ticks, empty, left, owed small, pending, zero]
      omega
  · rw [pass, slices, if_neg batch, if_neg batch]
    refine ⟨less, ran, stop, stepped, fun small => ⟨Nat.lt_of_not_le batch, ?_⟩⟩
    rw [Runs.trace]
    show (([] : List ℕ) ++ []).sum + (e.deviceDebt.toNat + (t.1 - did).toNat) = _
    rw [List.append_nil, List.sum_nil, owed small, left, pending]
    omega

theorem cyclesLoop_spec (fp : HostFpu) (fuel : ℕ) (enough : t.1.toNat ≤ fuel)
    (going : t.2.stopRequested = false) :
    (whileDo cyclesGoing (cyclesPass fp) fuel t).1 = 0 ∧
      Sliced fp ((passes cyclesGoing (cyclesPass fp) fuel t).flatMap (passSlices fp)) t
        (whileDo cyclesGoing (cyclesPass fp) fuel t) := by
  induction fuel generalizing t with
  | zero => exact ⟨BitVec.eq_of_toNat_eq (Nat.le_zero.mp enough), sliced_nil t⟩
  | succ fuel ih =>
    rw [whileDo, passes]
    by_cases nothing : t.1 = 0
    · have stopped : ¬ cyclesGoing t = true := by simp [cyclesGoing, nothing]
      rw [if_neg stopped, if_neg stopped]
      exact ⟨nothing, sliced_nil t⟩
    · have positive : 0 < t.1 := (BitVec.pos_iff_ne_zero _).mpr nothing
      have more : cyclesGoing t = true := by
        rw [cyclesGoing, going]
        exact Bool.and_eq_true_iff.mpr ⟨decide_eq_true positive, rfl⟩
      obtain ⟨less, pass⟩ := cyclesPass_spec fp nothing
      have left : (cyclesPass fp t).1.toNat ≤ fuel := by omega
      obtain ⟨done, rest⟩ := ih left (pass.running.trans going)
      rw [if_pos more, if_pos more, List.flatMap_cons]
      exact ⟨done, pass.trans rest⟩

end Loop

section Settled

variable {fp : HostFpu} {e : Emulator}

theorem boot_settled (files : Files) (cfg : BootConfig) (h : e.deviceDebt = 0) :
    (e.boot files cfg).2.deviceDebt = 0 := by
  cases ok : (Boot.hleBootLoaded files cfg { e.sys with log := [] }).1.ok with
  | false =>
    rw [boot_failed ok]
    exact h
  | true => rw [boot_succeeded ok]

theorem reset_settled (files : Files) (e : Emulator) : (e.reset files).deviceDebt = 0 := by
  simp only [reset]
  split
  · exact boot_settled files _ rfl
  · rfl

theorem loadRomBytes_settled (files : Files) (data : List U8) (cfg : BootConfig) (e : Emulator) :
    (e.loadRomBytes files data cfg).2.deviceDebt = 0 := by
  simp only [loadRomBytes]
  split
  · rfl
  · exact boot_settled files _ rfl

theorem loadRom_settled (files : Files) (path : String) (e : Emulator) :
    (e.loadRom files path).2.deviceDebt = 0 := by
  simp only [loadRom]
  split
  · rfl
  · exact boot_settled files _ rfl

theorem runCycles_settled (cycles : Cycles) (h : cycles ≠ 0 ∧ e.stopRequested = false ∨
    e.deviceDebt = 0) : (e.runCycles fp cycles).deviceDebt = 0 := by
  simp only [runCycles]
  split
  case isTrue idle =>
    rcases h with ⟨nonzero, going⟩ | settled
    · rcases idle with nothing | stop
      · exact absurd nothing nonzero
      · rw [going] at stop
        cases stop
    · exact settled
  case isFalse => exact (pushRsp_spec _).2.trans (flushDevices_spec _).2.1

theorem runFrame_settled (h : e.deviceDebt = 0) : (e.runFrame fp).2.deviceDebt = 0 := by
  simp only [runFrame]
  split
  · exact h
  · refine (pushRsp_spec _).2.trans ?_
    refine whileDo_preserves (fun t : FramePass => t.emulator.deviceDebt = 0) _ ?_ ?_
    · exact h
    · intro t _ _
      exact (flushDevices_spec _).2.1

theorem runLoop_settled (maxCycles : Cycles) (fuel : ℕ) (h : e.deviceDebt = 0) :
    (runLoop fp maxCycles fuel e).deviceDebt = 0 := by
  induction fuel generalizing e with
  | zero => exact h
  | succ fuel ih =>
    have frame : (e.runFrame fp).2.deviceDebt = 0 := runFrame_settled h
    have cycles : (e.runCycles fp (e.runChunk maxCycles)).deviceDebt = 0 :=
      runCycles_settled _ (Or.inr h)
    simp only [runLoop]
    split_ifs
    · exact h
    · exact h
    · exact frame
    · exact ih frame
    · exact cycles
    · exact ih cycles

theorem step_settled (a : Act) (h : e.deviceDebt = 0) : (step fp a e).deviceDebt = 0 := by
  cases a with
  | loadRom files path => exact loadRom_settled files path e
  | loadRomBytes files data cfg => exact loadRomBytes_settled files data cfg e
  | reset files => exact reset_settled files e
  | boot files cfg => exact boot_settled files cfg h
  | runCycles cycles => exact runCycles_settled cycles (Or.inr h)
  | runFrame => exact runFrame_settled h
  | run fuel maxCycles => exact runLoop_settled maxCycles fuel h
  | _ => exact h

theorem reached_settled (fp : HostFpu) (files : Files) (acts : List Act) :
    (Runs.run (step fp) acts (construct files)).deviceDebt = 0 := by
  apply run_preserves (P := fun e : Emulator => e.deviceDebt = 0)
  · intro a e settled
    exact step_settled a settled
  · exact reset_settled files {}

end Settled

section Loops

theorem tickLine_vi (s : Sys) :
    (Vi.tickLine s).vi.cycleAccum = s.vi.cycleAccum - s.vi.cyclesPerLine ∧
    (Vi.tickLine s).vi.cyclesPerLine = s.vi.cyclesPerLine := by
  simp only [Vi.tickLine, Vi.nextLine]
  split_ifs <;> exact ⟨rfl, rfl⟩

/-- The condition of the loop in `vi.tick`. -/
def lineDue (s : Sys) : Bool := s.vi.cyclesPerLine ≤ s.vi.cycleAccum

theorem tickLines_end {s : Sys} (line : s.vi.cyclesPerLine ≠ 0) :
    let t := whileDo lineDue Vi.tickLine s.vi.cycleAccum.toNat s
    t.vi.cycleAccum < t.vi.cyclesPerLine := by
  have stopped : lineDue (whileDo lineDue Vi.tickLine s.vi.cycleAccum.toNat s) = false := by
    apply whileDo_ends (fun s : Sys => s.vi.cyclesPerLine ≠ 0) (fun s => s.vi.cycleAccum.toNat)
      _ _ _ line (Nat.le_refl _)
    · intro t _ nonzero
      rw [(tickLine_vi t).2]
      exact nonzero
    · intro t going nonzero
      have covered : t.vi.cyclesPerLine ≤ t.vi.cycleAccum := of_decide_eq_true going
      have positive : t.vi.cyclesPerLine.toNat ≠ 0 :=
        fun zero => nonzero (BitVec.eq_of_toNat_eq zero)
      have inside : t.vi.cyclesPerLine.toNat ≤ t.vi.cycleAccum.toNat := covered
      rw [(tickLine_vi t).1, BitVec.toNat_sub_of_le covered]
      omega
  exact BitVec.not_le.mp (of_decide_eq_false stopped)

theorem viTick_ends (s : Sys) (d : Cycles) (nonzero : d ≠ 0) (line : s.vi.cyclesPerLine ≠ 0) :
    (Vi.tick s d).vi.cycleAccum < (Vi.tick s d).vi.cyclesPerLine := by
  have awake : ¬ (d = 0 ∨ s.vi.cyclesPerLine = 0) := not_or.mpr ⟨nonzero, line⟩
  have ended := tickLines_end (s := { s with vi.cycleAccum := s.vi.cycleAccum + d }) line
  simp only [Vi.tick, if_neg awake]
  exact ended

theorem aiTick_ends (b : Bus) (a : AudioInterface) :
    Ai.due (whileDo Ai.due (Ai.tickFrame b) a.bytesRemaining.toNat a) = false := by
  apply whileDo_done (fun a : AudioInterface => a.bytesRemaining.toNat)
  · intro a due
    have more : 4 ≤ a.bytesRemaining.toNat := by
      simp only [Ai.due, Bool.and_eq_true, decide_eq_true_eq] at due
      exact due.2
    rw [Ai.bytesRemaining_tickFrame more]
    omega
  · exact Nat.le_refl _

end Loops

/-- What a flush does: it ticks the VI and then the AI by the whole debt,
advances the scheduler by it and leaves none. -/
structure HandsOn (e e' : Emulator) : Prop where
  idle : e.deviceDebt = 0 → e' = e
  devices : e.deviceDebt ≠ 0 →
    e'.sys = { Ai.tick (Vi.tick { e.sys with log := [] } e.deviceDebt) e.deviceDebt with log := [] }
  clock : e'.scheduler.now = e.scheduler.now + e.deviceDebt
  settled : e'.deviceDebt = 0

theorem flush_handsOn (e : Emulator) : HandsOn e e.flushDevices := by
  obtain ⟨elapsed, settled, -⟩ := flushDevices_spec e
  refine ⟨fun nothing => if_pos nothing, fun owed => ?_, ?_, settled⟩
  · rw [flushDevices, if_neg owed]
    rfl
  · have time := elapsed.time
    have whole : ∀ c : Cycles, c + 0 = c := BitVec.add_zero
    rwa [settled, whole, whole] at time

/-- What `run_cycles(cycles)` does with its cycles: its loop uses them up, the
CPU executes them, the scheduler and the debt advance by them, and its flushes
hand them on. -/
structure Conserved (fp : HostFpu) (cycles : Cycles) (e e' : Emulator) : Prop where
  done : (cyclesLoop fp cycles e).1 = 0
  executed : e'.cyclesExecuted = e.cyclesExecuted + cycles
  cpu : e'.sys.cpu.cycles = e.sys.cpu.cycles + cycles
  time : e'.scheduler.now + e'.deviceDebt = e.scheduler.now + e.deviceDebt + cycles
  performed : e' = Runs.run (Slice.perform fp) (cyclesSlices fp cycles e) e
  ticks : e.deviceDebt = 0 →
    (Runs.trace (Slice.perform fp) Slice.ticks (cyclesSlices fp cycles e) e).sum = cycles.toNat
  settled : cycles ≠ 0 ∨ e.deviceDebt = 0 → e'.deviceDebt = 0

theorem conserved_idle (fp : HostFpu) (e : Emulator) : Conserved fp 0 e (e.runCycles fp 0) := by
  have idle : e.runCycles fp 0 = e := if_pos (Or.inl rfl)
  have empty : cyclesSlices fp 0 e = [] := if_pos (Or.inl rfl)
  obtain ⟨executed, cpu, time⟩ := Elapsed.refl e
  rw [idle]
  refine ⟨rfl, executed, cpu, time, by rw [empty]; rfl, fun _ => by rw [empty]; rfl, ?_⟩
  exact fun h => h.elim (absurd rfl) id

theorem conserved_busy (fp : HostFpu) {e : Emulator} {cycles : Cycles} (nonzero : cycles ≠ 0)
    (going : e.stopRequested = false) : Conserved fp cycles e (e.runCycles fp cycles) := by
  obtain ⟨done, sliced⟩ := cyclesLoop_spec fp (t := (cycles, e)) cycles.toNat (Nat.le_refl _) going
  have busy : ¬ (cycles = 0 ∨ e.stopRequested = true) := by
    rw [going]
    exact not_or.mpr ⟨nonzero, Bool.false_ne_true⟩
  have settled : (e.runCycles fp cycles).deviceDebt = 0 :=
    runCycles_settled cycles (Or.inl ⟨nonzero, going⟩)
  have ran : e.runCycles fp cycles = (cyclesLoop fp cycles e).2.flushDevices.pushRsp := if_neg busy
  have parts : cyclesSlices fp cycles e =
    (passes cyclesGoing (cyclesPass fp) cycles.toNat (cycles, e)).flatMap (passSlices fp) ++
      [.flush, .publish] := if_neg busy
  have all : cycles + 0 + 0 = cycles := by
    rw [BitVec.add_assoc]
    exact BitVec.add_zero _
  change Sliced fp _ (cycles, e) (cyclesLoop fp cycles e) at sliced
  change (cyclesLoop fp cycles e).1 = 0 at done
  have looped : Elapsed cycles e (cyclesLoop fp cycles e).2 := by
    have spent := sliced.elapsed
    have less : cycles - 0 = cycles := BitVec.sub_zero cycles
    rw [done] at spent
    change Elapsed (cycles - 0) e _ at spent
    rwa [less] at spent
  obtain ⟨executed, cpu, time⟩ : Elapsed cycles e (e.runCycles fp cycles) := by
    have whole := (looped.trans (flushDevices_spec _).1).trans (pushRsp_spec _).1
    rw [all] at whole
    rwa [ran]
  refine ⟨done, executed, cpu, time, ?_, fun nothing => ?_, fun _ => settled⟩
  · rw [ran, parts, run_append, ← sliced.performed]
    rfl
  · have small : e.deviceDebt.toNat < 32 := by
      rw [nothing]
      decide
    obtain ⟨-, handed⟩ := sliced.ticks small
    rw [pending, pending, done, nothing] at handed
    rw [parts, trace_append, ← sliced.performed, List.sum_append]
    show _ + (Slice.flush.ticks (cyclesLoop fp cycles e).2 ++ ([] ++ [])).sum = _
    rw [List.append_nil, List.append_nil, flush_ticks]
    simpa using handed

theorem runCycles_conserved (fp : HostFpu) (e : Emulator) (cycles : Cycles)
    (going : e.stopRequested = false) : Conserved fp cycles e (e.runCycles fp cycles) := by
  by_cases nothing : cycles = 0
  · rw [nothing]
    exact conserved_idle fp e
  · exact conserved_busy fp nothing going

/-- What `Cpu::run` executes of the `k` steps it is asked for. -/
structure RunsWithin (fp : HostFpu) (k : ℕ) (m : Machine) : Prop where
  atMost : (Cpu.run fp k m).1 ≤ k
  ends : (Cpu.run fp k m).1 = k ∨ (Cpu.run fp k m).2.sys.cpu.halted = true
  cycles : (Cpu.run fp k m).2.sys.cpu.cycles =
    m.sys.cpu.cycles + BitVec.ofNat 64 (Cpu.run fp k m).1

theorem run_runsWithin (fp : HostFpu) (k : ℕ) (m : Machine) : RunsWithin fp k m :=
  ⟨Cpu.run_count fp k m, Cpu.run_ends fp k m, Cpu.run_cycles fp k m⟩

/-- The loops of the device ticks end by their own tests. -/
structure TicksEnd (s : Sys) (d : Cycles) : Prop where
  vi : d ≠ 0 → s.vi.cyclesPerLine ≠ 0 →
    (Vi.tick s d).vi.cycleAccum < (Vi.tick s d).vi.cyclesPerLine
  ai : ∀ a, Ai.due (whileDo Ai.due (Ai.tickFrame s.bus) a.bytesRemaining.toNat a) = false

theorem ticks_end (s : Sys) (d : Cycles) : TicksEnd s d := ⟨viTick_ends s d, aiTick_ends s.bus⟩

/-- `run_cycles(cycles)` takes that many cycles, and its flushes tick the VI
and the AI by them all. No call of the host leaves the devices behind, a run of
the CPU executes no more than it was asked, and every loop ends. -/
theorem run_cycles_conserves_time (fp : HostFpu) (e : Emulator) (cycles : Cycles)
    (going : e.stopRequested = false) :
    Conserved fp cycles e (e.runCycles fp cycles) ∧
      (∀ f, HandsOn f (Slice.flush.perform fp f)) ∧
      (∀ files acts, (Runs.run (step fp) acts (construct files)).deviceDebt = 0) ∧
      (∀ k m, RunsWithin fp k m) ∧ ∀ s d, TicksEnd s d :=
  ⟨runCycles_conserved fp e cycles going, flush_handsOn, fun files acts =>
    reached_settled fp files acts, run_runsWithin fp, ticks_end⟩

/-- A hundred cycles of a fresh machine. -/
theorem run_cycles_conserves_time_fresh :
    let e : Emulator := {}
    let e' := e.runCycles default 100
    (cyclesLoop default 100 e).1 = 0 ∧ e'.cyclesExecuted = e.cyclesExecuted + 100 ∧
      e'.sys.cpu.cycles = e.sys.cpu.cycles + 100 ∧
      (Runs.trace (Slice.perform default) Slice.ticks (cyclesSlices default 100 e) e).sum =
        100 := by
  intro e
  have time := (run_cycles_conserves_time default e 100 rfl).1
  exact ⟨time.done, time.executed, time.cpu, time.ticks rfl⟩

end Emulator

end N64
