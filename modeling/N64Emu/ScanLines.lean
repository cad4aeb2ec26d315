import N64Emu.Video
import N64Emu.Runs

/-!
# Batches of scanline cycles

A tick is a number of whole lines and a remainder, both read off the cycles
that have come in. Two ticks make the lines of their sum as long as the 64-bit
accumulator holds it.
-/

set_option autoImplicit false

namespace N64

open Words Loops

namespace Vi

inductive Act where
  | write (offset value : U32)
  | tick (cycles : Cycles)
  | raiseInterrupt
  | clearFrameReady

def act : Act → Sys → Sys
  | .write offset value, s => write s offset value
  | .tick cycles, s => tick s cycles
  | .raiseInterrupt, s => raiseInterrupt s
  | .clearFrameReady, s => { s with vi.frameReady := false }

def powerOn (s : Sys) : Sys := { s with vi := reset s.vi }

def Reachable (v : VideoInterface) : Prop :=
  ∃ acts s, v = (Runs.run act acts (powerOn s)).vi

def withAccum (s : Sys) (cycles : Cycles) : Sys := { s with vi.cycleAccum := cycles }

def lineDue (s : Sys) : Bool := s.vi.cyclesPerLine ≤ s.vi.cycleAccum

def line (s : Sys) : Sys := withAccum (tickLine s) s.vi.cycleAccum

@[simp]
theorem withAccum_cycleAccum (s : Sys) (n : Cycles) : (withAccum s n).vi.cycleAccum = n := rfl

@[simp]
theorem withAccum_cyclesPerLine (s : Sys) (n : Cycles) :
    (withAccum s n).vi.cyclesPerLine = s.vi.cyclesPerLine := rfl

@[simp]
theorem withAccum_withAccum (s : Sys) (m n : Cycles) :
    withAccum (withAccum s m) n = withAccum s n := rfl

@[simp]
theorem withAccum_self (s : Sys) : withAccum s s.vi.cycleAccum = s := rfl

/-- The number of the line after the current one, unless the frame wraps. -/
def bumped (v : VideoInterface) : U32 := (vCurrent v + 2) &&& 0x3FE

def Wraps (v : VideoInterface) : Prop :=
  (v.linesPerFrame &&& 0x3FE).toNat < (bumped v).toNat ∨ bumped v = 0

instance (v : VideoInterface) : Decidable (Wraps v) := inferInstanceAs (Decidable (_ ∨ _))

def nextNumber (v : VideoInterface) : U32 := if Wraps v then 0 else bumped v

def latched (v : VideoInterface) : Bool := if Wraps v then false else v.interruptLine

def Matches (v : VideoInterface) : Prop :=
  latched v = false ∧ vIntr v &&& 0x3FE ≠ 0 ∧ nextNumber v = vIntr v &&& 0x3FE

instance (v : VideoInterface) : Decidable (Matches v) := inferInstanceAs (Decidable (_ ∧ _ ∧ _))

def advanced (v : VideoInterface) : VideoInterface :=
  { v with
    regs := Function.update v.regs VCurrent (nextNumber v)
    cycleAccum := v.cycleAccum - v.cyclesPerLine
    frameCount := if Wraps v then v.frameCount + 1 else v.frameCount
    frameReady := if Wraps v then true else v.frameReady
    interruptLine := latched v }

theorem nextNumber_masked (v : VideoInterface) : nextNumber v &&& 0x3FE = nextNumber v := by
  rw [nextNumber]
  split
  · rfl
  · rw [bumped, BitVec.and_assoc, BitVec.and_self]

theorem nextLine_eq (v : VideoInterface) :
    nextLine v = (nextNumber v, { advanced v with regs := v.regs }) := by
  by_cases wraps : Wraps v
  · simp only [nextLine, nextNumber, advanced, latched, if_pos wraps]
    exact if_pos wraps
  · simp only [nextLine, nextNumber, advanced, latched, if_neg wraps]
    exact if_neg wraps

/-- What one line does: it advances the frame, and raises the interrupt where
the new line matches. -/
theorem tickLine_eq (s : Sys) :
    tickLine s =
      if Matches s.vi then raiseInterrupt { s with vi := advanced s.vi }
      else { s with vi := advanced s.vi } := by
  have placed : setVCurrentRaw { advanced s.vi with regs := s.vi.regs } (nextNumber s.vi) =
      advanced s.vi := by
    rw [setVCurrentRaw, nextNumber_masked]
    rfl
  have kept : vIntr (advanced s.vi) = vIntr s.vi := rfl
  simp only [tickLine, nextLine_eq, placed, kept, Matches, Bool.not_eq_true']
  rfl

theorem tickLine_withAccum (s : Sys) (n : Cycles) :
    tickLine (withAccum s n) = withAccum (tickLine s) (n - s.vi.cyclesPerLine) := by
  have same : Matches (withAccum s n).vi ↔ Matches s.vi := Iff.rfl
  rw [tickLine_eq, tickLine_eq]
  by_cases matching : Matches s.vi
  · rw [if_pos matching, if_pos (same.mpr matching)]
    rfl
  · rw [if_neg matching, if_neg (same.not.mpr matching)]
    rfl

theorem tickLine_cyclesPerLine (s : Sys) :
    (tickLine s).vi.cyclesPerLine = s.vi.cyclesPerLine := by
  rw [tickLine_eq]
  split <;> rfl

theorem line_withAccum (s : Sys) (n : Cycles) : line (withAccum s n) = withAccum (line s) n := by
  rw [line, line, tickLine_withAccum]
  rfl

theorem line_cyclesPerLine (s : Sys) : (line s).vi.cyclesPerLine = s.vi.cyclesPerLine :=
  tickLine_cyclesPerLine s

theorem lines_withAccum (s : Sys) (n : Cycles) (k : ℕ) :
    line^[k] (withAccum s n) = withAccum (line^[k] s) n := by
  induction k with
  | zero => rfl
  | succ k ih => rw [Function.iterate_succ_apply', Function.iterate_succ_apply', ih, line_withAccum]

theorem lines_cyclesPerLine (s : Sys) (k : ℕ) :
    (line^[k] s).vi.cyclesPerLine = s.vi.cyclesPerLine := by
  induction k with
  | zero => rfl
  | succ k ih => rw [Function.iterate_succ_apply', line_cyclesPerLine, ih]

theorem tickLines_eq (s : Sys) (k : ℕ) :
    tickLine^[k] s =
      withAccum (line^[k] s) (s.vi.cycleAccum - BitVec.ofNat 64 k * s.vi.cyclesPerLine) := by
  induction k with
  | zero =>
    rw [Function.iterate_zero_apply, Function.iterate_zero_apply, BitVec.zero_mul,
      BitVec.sub_zero, withAccum_self]
  | succ k ih =>
    rw [Function.iterate_succ_apply', ih, tickLine_withAccum, Function.iterate_succ_apply',
      lines_cyclesPerLine, line, withAccum_withAccum, BitVec.ofNat_add, BitVec.add_mul]
    congr 1
    simp [BitVec.sub_sub]

structure Timed (v : VideoInterface) : Prop where
  positive : 0 < v.cyclesPerLine.toNat
  below : v.cycleAccum.toNat < v.cyclesPerLine.toNat

/-- The cycles in the accumulator once `n` more have come in. -/
def credit (s : Sys) (n : Cycles) : ℕ := (s.vi.cycleAccum + n).toNat

/-- A tick makes the whole lines of its credit and keeps the rest of it. -/
theorem tick_eq {s : Sys} (timed : Timed s.vi) (n : Cycles) :
    tick s n = withAccum (line^[credit s n / s.vi.cyclesPerLine.toNat] s)
      (BitVec.ofNat 64 (credit s n % s.vi.cyclesPerLine.toNat)) := by
  obtain ⟨positive, below⟩ := timed
  set c := s.vi.cyclesPerLine with perLine
  by_cases nothing : n = 0
  · have same : credit s n = s.vi.cycleAccum.toNat := by
      rw [credit, nothing]
      exact congrArg BitVec.toNat (BitVec.add_zero _)
    rw [tick, if_pos (.inl nothing), same, Nat.div_eq_of_lt below, Nat.mod_eq_of_lt below,
      Function.iterate_zero_apply, BitVec.ofNat_toNat, BitVec.setWidth_eq, withAccum_self]
  · have nonzero : s.vi.cyclesPerLine ≠ 0 := by
      intro zero
      rw [perLine, zero] at positive
      exact Nat.lt_irrefl 0 positive
    set start := withAccum s (s.vi.cycleAccum + n) with starting
    set k := credit s n / c.toNat with lines
    have whole : k * c.toNat ≤ credit s n := Nat.div_mul_le_self _ _
    have rest : credit s n - k * c.toNat = credit s n % c.toNat := by
      have parts := Nat.div_add_mod' (credit s n) c.toNat
      rw [← lines] at parts
      omega
    have left : ∀ j ≤ k, (tickLine^[j] start).vi.cycleAccum.toNat =
        credit s n - j * c.toNat := by
      intro j le
      rw [tickLines_eq]
      exact toNat_sub_mul _ _ j ((Nat.mul_le_mul_right _ le).trans whole)
    have period : ∀ j, (tickLine^[j] start).vi.cyclesPerLine = c := by
      intro j
      rw [tickLines_eq]
      exact lines_cyclesPerLine start j
    have going : ∀ j < k, lineDue (tickLine^[j] start) = true := by
      intro j lt
      have more : (j + 1) * c.toNat ≤ k * c.toNat := Nat.mul_le_mul_right _ lt
      rw [Nat.add_mul, Nat.one_mul] at more
      rw [lineDue, decide_eq_true_iff, BitVec.le_def, period, left j lt.le]
      omega
    have ended : lineDue (tickLine^[k] start) = false := by
      have short := Nat.mod_lt (credit s n) positive
      rw [lineDue, decide_eq_false_iff_not, BitVec.le_def, period, left k le_rfl]
      omega
    have loop : tick s n = tickLine^[k] start := by
      rw [tick, if_neg (not_or.mpr ⟨nothing, nonzero⟩)]
      exact whileDo_eq_iterate (Nat.div_le_self _ _) going ended
    rw [loop, tickLines_eq, starting, lines_withAccum, withAccum_withAccum]
    exact congrArg (withAccum _) (sub_mul_div (s.vi.cycleAccum + n) c)

theorem tick_cyclesPerLine {s : Sys} (timed : Timed s.vi) (n : Cycles) :
    (tick s n).vi.cyclesPerLine = s.vi.cyclesPerLine := by
  rw [tick_eq timed, withAccum_cyclesPerLine, lines_cyclesPerLine]

theorem remainder_lt {s : Sys} (timed : Timed s.vi) (n : Cycles) :
    credit s n % s.vi.cyclesPerLine.toNat < 2 ^ 64 :=
  (Nat.mod_lt _ timed.positive).trans (BitVec.isLt _)

theorem tick_cycleAccum {s : Sys} (timed : Timed s.vi) (n : Cycles) :
    (tick s n).vi.cycleAccum.toNat = credit s n % s.vi.cyclesPerLine.toNat := by
  rw [tick_eq timed, withAccum_cycleAccum, BitVec.toNat_ofNat,
    Nat.mod_eq_of_lt (remainder_lt timed n)]

theorem tick_timed {s : Sys} (timed : Timed s.vi) (n : Cycles) : Timed (tick s n).vi where
  positive := by
    rw [tick_cyclesPerLine timed]
    exact timed.positive
  below := by
    rw [tick_cyclesPerLine timed, tick_cycleAccum timed]
    exact Nat.mod_lt _ timed.positive

theorem act_clock {v : VideoInterface} (a : Act) {s : Sys} (timed : Timed s.vi)
    (period : s.vi.cyclesPerLine = v.cyclesPerLine) :
    Timed (act a s).vi ∧ (act a s).vi.cyclesPerLine = v.cyclesPerLine := by
  cases a with
  | write offset value =>
    have same : (write s offset value).vi.cycleAccum = s.vi.cycleAccum ∧
        (write s offset value).vi.cyclesPerLine = s.vi.cyclesPerLine := by
      rw [write]
      split
      · exact ⟨rfl, rfl⟩
      · split
        · exact ⟨rfl, rfl⟩
        · dsimp only
          split <;> exact ⟨rfl, rfl⟩
    refine ⟨⟨?_, ?_⟩, ?_⟩
    · rw [act, same.2]
      exact timed.positive
    · rw [act, same.1, same.2]
      exact timed.below
    · rw [act, same.2, period]
  | tick n => exact ⟨tick_timed timed n, (tick_cyclesPerLine timed n).trans period⟩
  | raiseInterrupt => exact ⟨⟨timed.positive, timed.below⟩, period⟩
  | clearFrameReady => exact ⟨⟨timed.positive, timed.below⟩, period⟩

theorem reachable_clock {v : VideoInterface} (reachable : Reachable v) :
    Timed v ∧ v.cyclesPerLine = kDefaultCyclesPerLine := by
  obtain ⟨acts, s, rfl⟩ := reachable
  have start : Timed (reset s.vi) :=
    ⟨show 0 < kDefaultCyclesPerLine.toNat by decide,
      show (0 : Cycles).toNat < kDefaultCyclesPerLine.toNat by decide⟩
  have kept : ∀ a (t : Sys), Timed t.vi ∧ t.vi.cyclesPerLine = (reset s.vi).cyclesPerLine →
      Timed (act a t).vi ∧ (act a t).vi.cyclesPerLine = (reset s.vi).cyclesPerLine :=
    fun a t h => act_clock a h.1 h.2
  exact Runs.run_preserves kept acts ⟨start, rfl⟩

/-- What two ways of delivering the same cycles are compared on. -/
structure SameTiming (s t : Sys) : Prop where
  vCurrent : s.vi.regs VCurrent = t.vi.regs VCurrent
  cycleAccum : s.vi.cycleAccum = t.vi.cycleAccum
  frameCount : s.vi.frameCount = t.vi.frameCount
  frameReady : s.vi.frameReady = t.vi.frameReady
  interruptLine : s.vi.interruptLine = t.vi.interruptLine
  mi : s.bus.mi = t.bus.mi

/-- Either the sum fits the accumulator, or what the first tick leaves of it
overflows in the second as well. -/
def FitsClock (s : Sys) (a b : Cycles) : Prop :=
  credit s a + b.toNat < 2 ^ 64 ∨
    2 ^ 64 ≤ credit s a % s.vi.cyclesPerLine.toNat + b.toNat

theorem credit_add (s : Sys) (a b : Cycles) :
    credit s (a + b) = (credit s a + b.toNat) % 2 ^ 64 := by
  rw [credit, credit, ← BitVec.add_assoc, BitVec.toNat_add]

theorem credit_tick {s : Sys} (timed : Timed s.vi) (a b : Cycles) :
    credit (tick s a) b =
      (credit s a % s.vi.cyclesPerLine.toNat + b.toNat) % 2 ^ 64 := by
  rw [credit, BitVec.toNat_add, tick_cycleAccum timed]

theorem fitsClock_iff {s : Sys} (timed : Timed s.vi) (a b : Cycles) :
    FitsClock s a b ↔ credit s (a + b) =
      credit (tick s a) b + s.vi.cyclesPerLine.toNat * (credit s a / s.vi.cyclesPerLine.toNat) := by
  have parts := Nat.mod_add_div (credit s a) s.vi.cyclesPerLine.toNat
  have first : credit s a < 2 ^ 64 := BitVec.isLt _
  have second := b.isLt
  rw [credit_add, credit_tick timed, FitsClock]
  omega

theorem tick_tick {s : Sys} (timed : Timed s.vi) {a b : Cycles} (fits : FitsClock s a b) :
    tick (tick s a) b = tick s (a + b) := by
  have whole := (fitsClock_iff timed a b).mp fits
  have positive := timed.positive
  rw [tick_eq (tick_timed timed a) b, tick_cyclesPerLine timed, tick_eq timed (a + b), whole,
    Nat.add_mul_div_left _ _ positive, Nat.add_mul_mod_self_left, Function.iterate_add_apply]
  generalize credit (tick s a) b = second
  rw [tick_eq timed a, lines_withAccum, withAccum_withAccum]

theorem tick_ends {s : Sys} (timed : Timed s.vi) (n : Cycles) : lineDue (tick s n) = false := by
  have below := (tick_timed timed n).below
  rw [lineDue, decide_eq_false_iff_not, BitVec.le_def]
  omega

theorem sameTiming_iff {s : Sys} (timed : Timed s.vi)
    (period : s.vi.cyclesPerLine = kDefaultCyclesPerLine) (a b : Cycles) :
    SameTiming (tick (tick s a) b) (tick s (a + b)) ↔ FitsClock s a b := by
  constructor
  · intro same
    by_contra overflows
    have accums := congrArg BitVec.toNat same.cycleAccum
    rw [tick_cycleAccum (tick_timed timed a), tick_cyclesPerLine timed, tick_cycleAccum timed,
      credit_add, credit_tick timed, period] at accums
    rw [FitsClock, period] at overflows
    have parts := Nat.mod_add_div (credit s a) kDefaultCyclesPerLine.toNat
    have perLine : kDefaultCyclesPerLine.toNat = 5963 := rfl
    rw [perLine] at accums overflows parts
    have first : credit s a < 2 ^ 64 := BitVec.isLt _
    have second := b.isLt
    -- the two remainders differ by that of `2 ^ 64`, which is not zero
    omega
  · intro fits
    rw [tick_tick timed fits]
    exact ⟨rfl, rfl, rfl, rfl, rfl, rfl⟩

/-- In a reachable state every tick ends, and two ticks agree with the tick of
their sum unless only the sum overflows the accumulator. -/
theorem tick_tick_iff {s : Sys} (reachable : Reachable s.vi) (a b : Cycles) :
    lineDue (tick s a) = false ∧
      (SameTiming (tick (tick s a) b) (tick s (a + b)) ↔ FitsClock s a b) := by
  obtain ⟨timed, period⟩ := reachable_clock reachable
  exact ⟨tick_ends timed a, sameTiming_iff timed period a b⟩

theorem tick_tick_at_reset :
    lineDue (tick (powerOn {}) 6000) = false ∧
      (SameTiming (tick (tick (powerOn {}) 6000) 12000) (tick (powerOn {}) (6000 + 12000)) ↔
        FitsClock (powerOn {}) 6000 12000) :=
  tick_tick_iff ⟨[], {}, rfl⟩ 6000 12000

theorem split_overflow_differs :
    ¬ ∀ s : Sys, Reachable s.vi → ∀ a b : Cycles,
      SameTiming (tick (tick s a) b) (tick s (a + b)) := by
  intro claim
  have reachable : Reachable (powerOn {}).vi := ⟨[], {}, rfl⟩
  obtain ⟨timed, period⟩ := reachable_clock reachable
  have same := claim (powerOn {}) reachable (1#64 <<< 63) (1#64 <<< 63)
  rw [sameTiming_iff timed period, FitsClock] at same
  revert same
  decide

end Vi

end N64
