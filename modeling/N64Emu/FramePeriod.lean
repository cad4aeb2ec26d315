import N64Emu.FrameSignals
import N64Emu.Rounds

/-!
# The frame period

Without register writes a frame wraps every so many cycles, and the number is
that of the lines kept beside V_SYNC. Reset leaves the two apart; a write to
V_SYNC brings them together.
-/

set_option autoImplicit false

namespace N64

open Words Loops Recurrence

namespace Vi

/-- The state `n` cycles later. -/
def later (s : Sys) (n : ℕ) : Sys := (fun t => tick t 1)^[n] s

/-- Cycle `n` from now wraps the frame. -/
def WrapsAt (s : Sys) (n : ℕ) : Prop :=
  (later s (n + 1)).vi.frameCount ≠ (later s n).vi.frameCount

def WrapsLine (s : Sys) (k : ℕ) : Prop := Wraps (line^[k] s).vi

def syncPeriod (v : VideoInterface) : ℕ :=
  ((v.regs VSync &&& 0x3FE).toNat / 2 + 1) * v.cyclesPerLine.toNat

theorem tick_one {s : Sys} (timed : Timed s.vi) :
    tick s 1 = withAccum (line^[(s.vi.cycleAccum.toNat + 1) / s.vi.cyclesPerLine.toNat] s)
      (BitVec.ofNat 64 ((s.vi.cycleAccum.toNat + 1) % s.vi.cyclesPerLine.toNat)) := by
  have fits : credit s 1 = s.vi.cycleAccum.toNat + 1 := by
    have below := timed.below
    have width := s.vi.cyclesPerLine.isLt
    rw [credit, BitVec.toNat_add]
    exact Nat.mod_eq_of_lt (show s.vi.cycleAccum.toNat + 1 < 2 ^ 64 by omega)
  rw [tick_eq timed, fits]

theorem later_eq {s : Sys} (timed : Timed s.vi) (n : ℕ) :
    later s n = withAccum (line^[(s.vi.cycleAccum.toNat + n) / s.vi.cyclesPerLine.toNat] s)
      (BitVec.ofNat 64 ((s.vi.cycleAccum.toNat + n) % s.vi.cyclesPerLine.toNat)) := by
  obtain ⟨positive, below⟩ := timed
  induction n with
  | zero =>
    rw [Nat.add_zero, Nat.div_eq_of_lt below, Nat.mod_eq_of_lt below, BitVec.ofNat_toNat,
      BitVec.setWidth_eq, Function.iterate_zero_apply, withAccum_self]
    rfl
  | succ n ih =>
    set A := s.vi.cycleAccum.toNat
    set c := s.vi.cyclesPerLine.toNat with perLine
    have short : (A + n) % c < c := Nat.mod_lt _ positive
    have width : c < 2 ^ 64 := BitVec.isLt _
    have accum : (later s n).vi.cycleAccum.toNat = (A + n) % c := by
      rw [ih, withAccum_cycleAccum, BitVec.toNat_ofNat, Nat.mod_eq_of_lt (by omega)]
    have period : (later s n).vi.cyclesPerLine.toNat = c := by
      rw [ih, withAccum_cyclesPerLine, lines_cyclesPerLine]
    have timed : Timed (later s n).vi := ⟨by omega, by omega⟩
    have parts : A + (n + 1) = (A + n) % c + 1 + c * ((A + n) / c) := by
      have := Nat.mod_add_div (A + n) c
      omega
    have next : later s (n + 1) = tick (later s n) 1 := Function.iterate_succ_apply' _ _ _
    rw [next, tick_one timed, accum, period, parts, Nat.add_mul_div_left _ _ positive,
      Nat.add_mul_mod_self_left, Function.iterate_add_apply, ih, lines_withAccum,
      withAccum_withAccum]

theorem line_frameCount (s : Sys) :
    (line s).vi.frameCount = if Wraps s.vi then s.vi.frameCount + 1 else s.vi.frameCount := by
  have counted : (tickLine s).vi.frameCount = (advanced s.vi).frameCount := by
    rw [tickLine_eq]
    split <;> rfl
  exact counted

theorem line_frameCount_ne_iff (s : Sys) :
    (line s).vi.frameCount ≠ s.vi.frameCount ↔ Wraps s.vi := by
  rw [line_frameCount]
  by_cases wraps : Wraps s.vi
  · simp [wraps]
  · simp [wraps]

theorem wrapsAt_slotted {s : Sys} (timed : Timed s.vi) :
    Slotted s.vi.cyclesPerLine.toNat s.vi.cycleAccum.toNat (WrapsAt s) (WrapsLine s) := by
  intro n
  have positive := timed.positive
  rw [WrapsAt, later_eq timed, later_eq timed]
  set A := s.vi.cycleAccum.toNat
  set c := s.vi.cyclesPerLine.toNat
  change (line^[(A + (n + 1)) / c] s).vi.frameCount ≠ (line^[(A + n) / c] s).vi.frameCount ↔ _
  by_cases last : c ∣ A + n + 1
  · have quotient : (A + (n + 1)) / c = (A + n) / c + 1 := Nat.succ_div_of_dvd last
    have whole : A + n + 1 = c * ((A + n) / c + 1) := by
      rw [← quotient]
      exact (Nat.mul_div_cancel' last).symm
    rw [quotient, Function.iterate_succ_apply', line_frameCount_ne_iff]
    constructor
    · intro wraps
      exact ⟨(A + n) / c, whole, wraps⟩
    · rintro ⟨q, end_, wraps⟩
      have same : q = (A + n) / c := by
        have := Nat.eq_of_mul_eq_mul_left positive (end_.symm.trans whole)
        omega
      rwa [← same]
  · have quotient : (A + (n + 1)) / c = (A + n) / c := Nat.succ_div_of_not_dvd last
    rw [quotient]
    constructor
    · intro moved
      exact absurd rfl moved
    · rintro ⟨q, end_, -⟩
      exact absurd ⟨q + 1, end_⟩ last

theorem number_line (s : Sys) : number (line s).vi = (nextNumber s.vi).toNat :=
  number_tickLine s

theorem lines_lastLine (s : Sys) (k : ℕ) : lastLine (line^[k] s).vi = lastLine s.vi := by
  induction k with
  | zero => rfl
  | succ k ih =>
    rw [Function.iterate_succ_apply', ← ih]
    exact (tickLine_registers _).1

theorem number_line_even (s : Sys) : number (line s).vi % 2 = 0 := by
  rw [number_line, ← nextNumber_masked, toNat_and_even]
  omega

/-- After a wrap the beam walks two lines at a time to the last one. -/
theorem number_after_wrap {s : Sys} {k : ℕ} (wraps : WrapsLine s k) {j : ℕ}
    (inside : j ≤ lastLine s.vi / 2) : number (line^[k + 1 + j] s).vi = 2 * j := by
  induction j with
  | zero =>
    rw [Nat.add_zero, Function.iterate_succ_apply', number_line, nextNumber_of_wraps wraps]
    rfl
  | succ j ih =>
    have here := ih (by omega)
    have even : number (line^[k + 1 + j] s).vi % 2 = 0 := by omega
    have stays : ¬ Wraps (line^[k + 1 + j] s).vi := by
      rw [wraps_iff even, lines_lastLine, here]
      omega
    rw [← Nat.add_assoc, Function.iterate_succ_apply', number_line, nextNumber_toNat even stays,
      here]
    omega

theorem wrapsLine_after_wrap {s : Sys} {k : ℕ} (wraps : WrapsLine s k) {j : ℕ}
    (inside : j ≤ lastLine s.vi / 2) :
    WrapsLine s (k + 1 + j) ↔ lastLine s.vi < 2 * j + 2 := by
  have here := number_after_wrap wraps inside
  rw [WrapsLine, wraps_iff (by omega), lines_lastLine, here]

theorem exists_wrapsLine (s : Sys) : ∃ k, WrapsLine s k := by
  by_contra none
  have never : ∀ k, ¬ WrapsLine s k := not_exists.mp none
  have climbs : ∀ k, 2 * k ≤ number (line^[k + 1] s).vi := by
    intro k
    induction k with
    | zero => exact Nat.zero_le _
    | succ k ih =>
      have even : number (line^[k + 1] s).vi % 2 = 0 := by
        rw [Function.iterate_succ_apply']
        exact number_line_even _
      rw [Function.iterate_succ_apply', number_line, nextNumber_toNat even (never (k + 1))]
      omega
  have high := climbs 512
  have low := number_lt (line^[512 + 1] s).vi
  omega

theorem every_wrapsLine (s : Sys) : Every (lastLine s.vi / 2 + 1) (WrapsLine s) where
  happens := exists_wrapsLine s
  next k wraps := by
    rw [show k + (lastLine s.vi / 2 + 1) = k + 1 + lastLine s.vi / 2 by omega,
      wrapsLine_after_wrap wraps le_rfl]
    omega
  between k wraps j pos lt := by
    have even : lastLine s.vi % 2 = 0 := by
      rw [lastLine, toNat_and_even]
      omega
    rw [show k + j = k + 1 + (j - 1) by omega, wrapsLine_after_wrap wraps (by omega)]
    omega

theorem every_wrapsAt {s : Sys} (timed : Timed s.vi) :
    Every ((lastLine s.vi / 2 + 1) * s.vi.cyclesPerLine.toNat) (WrapsAt s) :=
  (every_wrapsLine s).slots (wrapsAt_slotted timed) timed.below

theorem every_syncPeriod_iff {s : Sys} (timed : Timed s.vi) :
    Every (syncPeriod s.vi) (WrapsAt s) ↔
      (s.vi.regs VSync &&& 0x3FE).toNat = lastLine s.vi := by
  have positive := timed.positive
  have evens : (s.vi.regs VSync &&& 0x3FE).toNat % 2 = 0 ∧ lastLine s.vi % 2 = 0 := by
    rw [lastLine, toNat_and_even, toNat_and_even]
    omega
  constructor
  · intro every
    have same := every.unique (every_wrapsAt timed) (Nat.mul_pos (Nat.succ_pos _) positive)
      (Nat.mul_pos (Nat.succ_pos _) positive)
    have lines := Nat.eq_of_mul_eq_mul_right positive same
    omega
  · intro same
    rw [syncPeriod, same]
    exact every_wrapsAt timed

def Act.WritesSync : Act → Prop
  | .write offset _ => regIndex offset = VSync
  | _ => False

def InRange (r : U32) : Prop := 100 ≤ (r &&& 0x3FF).toNat ∧ (r &&& 0x3FF).toNat < 800

/-- V_SYNC and the lines beside it: as reset left them, or from the last write. -/
structure SyncHistory (acts : List Act) (v : VideoInterface) : Prop where
  fresh : (¬ ∃ a ∈ acts, a.WritesSync) → v.regs VSync = 0x20D ∧ v.linesPerFrame = 262
  written : (∃ a ∈ acts, a.WritesSync) → InRange (v.regs VSync) →
    v.linesPerFrame = v.regs VSync &&& 0x3FF

def SameSync (v w : VideoInterface) : Prop :=
  w.regs VSync = v.regs VSync ∧ w.linesPerFrame = v.linesPerFrame

theorem tickLine_sameSync {v : VideoInterface} {s : Sys} (h : SameSync v s.vi) :
    SameSync v (tickLine s).vi := by
  have other : (advanced s.vi).regs VSync = s.vi.regs VSync := by
    simp [advanced, VSync, VCurrent]
  have kept : SameSync v (advanced s.vi) := ⟨other.trans h.1, h.2⟩
  rw [tickLine_eq]
  split <;> exact kept

theorem tick_sameSync (s : Sys) (n : Cycles) : SameSync s.vi (tick s n).vi := by
  rw [tick]
  split
  · exact ⟨rfl, rfl⟩
  · exact whileDo_preserves (fun t : Sys => SameSync s.vi t.vi) _ ⟨rfl, rfl⟩
      fun t _ h => tickLine_sameSync h

theorem act_sameSync {a : Act} (other : ¬ a.WritesSync) (s : Sys) : SameSync s.vi (act a s).vi := by
  cases a with
  | write offset value =>
    have unsynced : regIndex offset ≠ VSync := other
    rw [act, write]
    split
    · exact ⟨rfl, rfl⟩
    · split
      · exact ⟨rfl, rfl⟩
      · dsimp only
        rw [if_neg (fun both => unsynced both.1)]
        exact ⟨Function.update_of_ne (Ne.symm unsynced) _ _, rfl⟩
  | tick n => exact tick_sameSync s n
  | raiseInterrupt => exact ⟨rfl, rfl⟩
  | clearFrameReady => exact ⟨rfl, rfl⟩

theorem write_sync {offset : U32} (value : U32) (s : Sys) (sync : regIndex offset = VSync) :
    (write s offset value).vi.regs VSync = value ∧
      (InRange value → (write s offset value).vi.linesPerFrame = value &&& 0x3FF) := by
  have latest : Function.update s.vi.regs VSync value VSync = value :=
    Function.update_self VSync value s.vi.regs
  rw [write, sync, if_neg (by decide), if_neg (by decide)]
  dsimp only
  by_cases range : InRange value
  · rw [if_pos ⟨rfl, range.1, range.2⟩]
    exact ⟨latest, fun _ => rfl⟩
  · rw [if_neg (fun both => range both.2)]
    exact ⟨latest, fun inside => absurd inside range⟩

theorem syncHistory_concat {acts : List Act} {s : Sys} (h : SyncHistory acts s.vi) (a : Act) :
    SyncHistory (acts ++ [a]) (act a s).vi := by
  by_cases syncs : a.WritesSync
  · have wrote : ∃ b ∈ acts ++ [a], b.WritesSync := ⟨a, by simp, syncs⟩
    refine ⟨fun never => absurd wrote never, fun _ => ?_⟩
    cases a with
    | write offset value =>
      obtain ⟨latest, lines⟩ := write_sync value s syncs
      rw [act, latest]
      exact lines
    | tick n => exact syncs.elim
    | raiseInterrupt => exact syncs.elim
    | clearFrameReady => exact syncs.elim
  · have same : (∃ b ∈ acts ++ [a], b.WritesSync) ↔ ∃ b ∈ acts, b.WritesSync := by
      simp [or_and_right, exists_or, syncs]
    obtain ⟨register, lines⟩ := act_sameSync syncs s
    refine ⟨fun never => ?_, fun wrote range => ?_⟩
    · rw [register, lines]
      exact h.fresh (same.not.mp never)
    · rw [register] at range ⊢
      rw [lines]
      exact h.written (same.mp wrote) range

theorem syncHistory (acts : List Act) (s : Sys) :
    SyncHistory acts (Runs.run act acts (powerOn s)).vi := by
  have start : SyncHistory [] (powerOn s).vi := by
    refine ⟨fun _ => ⟨rfl, rfl⟩, ?_⟩
    rintro ⟨a, mem, -⟩
    exact absurd mem List.not_mem_nil
  have step : ∀ acts a, SyncHistory acts (Runs.run act acts (powerOn s)).vi →
      SyncHistory (acts ++ [a]) (act a (Runs.run act acts (powerOn s))).vi :=
    fun _ a h => syncHistory_concat h a
  exact Runs.run_history (P := fun acts (t : Sys) => SyncHistory acts t.vi) start step acts

theorem lastLine_of_written {v : VideoInterface}
    (lines : v.linesPerFrame = v.regs VSync &&& 0x3FF) :
    (v.regs VSync &&& 0x3FE).toNat = lastLine v := by
  rw [lastLine, lines, BitVec.and_assoc]
  rfl

theorem reset_period {s : Sys} (timed : Timed s.vi) (register : s.vi.regs VSync = 0x20D)
    (lines : s.vi.linesPerFrame = 262) : ¬ Every (syncPeriod s.vi) (WrapsAt s) := by
  rw [every_syncPeriod_iff timed, register, lastLine, lines]
  decide

/-- A state reached from reset with V_SYNC in range wraps with the period of
V_SYNC exactly when V_SYNC has been written. -/
theorem frame_period_iff (start : Sys) (acts : List Act) {s : Sys}
    (reached : s.vi = (Runs.run act acts (powerOn start)).vi)
    (low : 100 ≤ (s.vi.regs VSync &&& 0x3FF).toNat)
    (high : (s.vi.regs VSync &&& 0x3FF).toNat < 800) :
    Every (syncPeriod s.vi) (WrapsAt s) ↔ ∃ a ∈ acts, a.WritesSync := by
  have timed : Timed s.vi := (reachable_clock ⟨acts, start, reached⟩).1
  have history := syncHistory acts start
  rw [← reached] at history
  constructor
  · intro every
    by_contra never
    obtain ⟨register, lines⟩ := history.fresh never
    exact reset_period timed register lines every
  · intro wrote
    exact (every_syncPeriod_iff timed).mpr (lastLine_of_written (history.written wrote ⟨low, high⟩))

theorem frame_period_after_write :
    Every (syncPeriod (Runs.run act [.write 0x18 0x20D] (powerOn {})).vi)
      (WrapsAt (Runs.run act [.write 0x18 0x20D] (powerOn {}))) ↔
      ∃ a ∈ [Act.write 0x18 0x20D], a.WritesSync :=
  frame_period_iff {} [.write 0x18 0x20D] rfl (by decide) (by decide)

/-- Before any write V_SYNC asks for 263 lines and the frame has 132. -/
theorem reset_frame_is_short :
    InRange ((powerOn {}).vi.regs VSync) ∧ syncPeriod (powerOn {}).vi = 263 * 5963 ∧
      Every (132 * 5963) (WrapsAt (powerOn {})) ∧
      ¬ Every (syncPeriod (powerOn {}).vi) (WrapsAt (powerOn {})) := by
  have timed : Timed (powerOn {}).vi := (reachable_clock ⟨[], {}, rfl⟩).1
  exact ⟨⟨by decide, by decide⟩, rfl, every_wrapsAt timed, reset_period timed rfl rfl⟩

end Vi

end N64
