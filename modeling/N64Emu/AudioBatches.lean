import N64Emu.AudioPlayback

/-!
# Batches of audio cycles

A tick plays as many frames as its credit pays for and the buffer has, and
ends the buffer with the last of them. What it leaves is compared with what
two ticks leave that share the cycles.
-/

set_option autoImplicit false

namespace N64.Ai

open Words Loops Runs

def atAccum (a : AudioInterface) (cycles : Cycles) : AudioInterface :=
  { a with cycleAccum := cycles }

/-- A pass of the loop, with the accumulator left as it is. -/
def frame (b : Bus) (a : AudioInterface) : AudioInterface := atAccum (tickFrame b a) a.cycleAccum

def framesLeft (a : AudioInterface) : ℕ := a.bytesRemaining.toNat / 4

def credit (a : AudioInterface) (cycles : Cycles) : ℕ := (a.cycleAccum + cycles).toNat

def framesPlayed (a : AudioInterface) (cycles : Cycles) : ℕ :=
  min (credit a cycles / a.cyclesPerFrame.toNat) (framesLeft a)

section Frames

variable {b : Bus} {a : AudioInterface}

@[simp]
theorem atAccum_atAccum (a : AudioInterface) (m n : Cycles) :
    atAccum (atAccum a m) n = atAccum a n :=
  rfl

theorem pushFrame_full (full : kRingFrames ≤ a.ringW - a.ringR) (left right : U16) :
    pushFrame a left right =
      { a with samplesPushed := a.samplesPushed + 1, framesDropped := a.framesDropped + 1 } :=
  if_pos full

theorem pushFrame_room (room : ¬ kRingFrames ≤ a.ringW - a.ringR) (left right : U16) :
    pushFrame a left right =
      { a with
        samplesPushed := a.samplesPushed + 1
        ring := Function.update (Function.update a.ring ((a.ringW &&& kRingMask).toNat * 2) left)
          ((a.ringW &&& kRingMask).toNat * 2 + 1) right
        ringW := a.ringW + 1 } :=
  if_neg room

theorem pushFrame_atAccum (left right : U16) (n : Cycles) :
    pushFrame (atAccum a n) left right = atAccum (pushFrame a left right) n := by
  by_cases full : kRingFrames ≤ a.ringW - a.ringR
  · rw [pushFrame_full full, pushFrame_full (a := atAccum a n) full]
    rfl
  · rw [pushFrame_room full, pushFrame_room (a := atAccum a n) full]
    rfl

/-- What a pass does after it has taken its cycles and pushed the frame. -/
def advanceCursor (a : AudioInterface) : AudioInterface :=
  setReg { a with readCursor := a.readCursor + 4, bytesRemaining := a.bytesRemaining - 4 } Len
    ((a.bytesRemaining - 4) &&& 0x0003FFF8)

theorem tickFrame_atAccum_eq (n : Cycles) :
    tickFrame b (atAccum a n) = atAccum (advanceCursor (pushFrame a
      (beS16FromRdram b a.readCursor) (beS16FromRdram b (a.readCursor + 2))))
        (n - a.cyclesPerFrame) := by
  have pushed := pushFrame_atAccum (a := a) (beS16FromRdram b a.readCursor)
    (beS16FromRdram b (a.readCursor + 2)) (n - a.cyclesPerFrame)
  have taken :
      tickFrame b (atAccum a n) = advanceCursor (pushFrame (atAccum a (n - a.cyclesPerFrame))
      (beS16FromRdram b a.readCursor) (beS16FromRdram b (a.readCursor + 2))) := rfl
  rw [taken, pushed]
  rfl

theorem tickFrame_atAccum (n : Cycles) :
    tickFrame b (atAccum a n) = atAccum (tickFrame b a) (n - a.cyclesPerFrame) := by
  have whole : tickFrame b a = tickFrame b (atAccum a a.cycleAccum) := rfl
  rw [whole, tickFrame_atAccum_eq, tickFrame_atAccum_eq, atAccum_atAccum]

theorem frame_atAccum (n : Cycles) : frame b (atAccum a n) = atAccum (frame b a) n := by
  rw [frame, frame, tickFrame_atAccum]
  rfl

theorem frame_same : (frame b a).dmaActive = a.dmaActive ∧ (frame b a).dmaQueued = a.dmaQueued ∧
    (frame b a).queued = a.queued ∧ (frame b a).cyclesPerFrame = a.cyclesPerFrame ∧
    (frame b a).cycleAccum = a.cycleAccum ∧ (frame b a).dmasCompleted = a.dmasCompleted := by
  rw [frame, tickFrame, pushFrame_same]
  exact ⟨rfl, rfl, rfl, rfl, rfl, rfl⟩

theorem frame_bytesRemaining : (frame b a).bytesRemaining = a.bytesRemaining - 4 := by
  rw [frame, tickFrame, pushFrame_same]
  rfl

theorem frame_samplesPushed : (frame b a).samplesPushed = a.samplesPushed + 1 := by
  have pushed : ∀ (c : AudioInterface) left right,
      (pushFrame c left right).samplesPushed = c.samplesPushed + 1 := by
    intro c left right
    rw [pushFrame]
    dsimp only
    split_ifs <;> rfl
  exact pushed _ _ _

theorem frames_atAccum (n : Cycles) (k : ℕ) :
    (frame b)^[k] (atAccum a n) = atAccum ((frame b)^[k] a) n := by
  induction k with
  | zero => rfl
  | succ k ih => rw [Function.iterate_succ_apply', Function.iterate_succ_apply', ih, frame_atAccum]

theorem frames_same (k : ℕ) : ((frame b)^[k] a).dmaActive = a.dmaActive ∧
    ((frame b)^[k] a).dmaQueued = a.dmaQueued ∧ ((frame b)^[k] a).queued = a.queued ∧
    ((frame b)^[k] a).cyclesPerFrame = a.cyclesPerFrame ∧
    ((frame b)^[k] a).cycleAccum = a.cycleAccum ∧
    ((frame b)^[k] a).dmasCompleted = a.dmasCompleted := by
  induction k with
  | zero => exact ⟨rfl, rfl, rfl, rfl, rfl, rfl⟩
  | succ k ih =>
    obtain ⟨active, queued, job, pace, accum, completed⟩ := @frame_same b ((frame b)^[k] a)
    rw [Function.iterate_succ_apply', active, queued, job, pace, accum, completed]
    exact ih

theorem frames_samplesPushed (k : ℕ) :
    ((frame b)^[k] a).samplesPushed = a.samplesPushed + BitVec.ofNat 64 k := by
  induction k with
  | zero => exact (BitVec.add_zero _).symm
  | succ k ih =>
    rw [Function.iterate_succ_apply', frame_samplesPushed, ih, BitVec.ofNat_add, BitVec.add_assoc]
    rfl

theorem frames_bytesRemaining {k : ℕ} (le : k ≤ framesLeft a) :
    ((frame b)^[k] a).bytesRemaining.toNat = a.bytesRemaining.toNat - 4 * k := by
  induction k with
  | zero => rfl
  | succ k ih =>
    have before := ih (by omega)
    rw [framesLeft] at le
    have more : (4 : U32) ≤ ((frame b)^[k] a).bytesRemaining := by
      rw [BitVec.le_def, before]
      exact show 4 ≤ a.bytesRemaining.toNat - 4 * k by omega
    rw [Function.iterate_succ_apply', frame_bytesRemaining, BitVec.toNat_sub_of_le more, before]
    exact show a.bytesRemaining.toNat - 4 * k - 4 = a.bytesRemaining.toNat - 4 * (k + 1) by omega

theorem tickFrames_eq (k : ℕ) : (tickFrame b)^[k] a =
    atAccum ((frame b)^[k] a) (a.cycleAccum - BitVec.ofNat 64 k * a.cyclesPerFrame) := by
  induction k with
  | zero =>
    rw [Function.iterate_zero_apply, Function.iterate_zero_apply, BitVec.zero_mul, BitVec.sub_zero]
    rfl
  | succ k ih =>
    rw [Function.iterate_succ_apply', ih, tickFrame_atAccum, Function.iterate_succ_apply',
      (frames_same k).2.2.2.1, frame, atAccum_atAccum, BitVec.ofNat_add, BitVec.add_mul]
    congr 1
    simp [BitVec.sub_sub]

end Frames

/-- A buffer plays and the frame period is set. -/
structure Ready (a : AudioInterface) : Prop where
  active : a.dmaActive = true
  pace : 0 < a.cyclesPerFrame.toNat
  left : 4 ≤ a.bytesRemaining.toNat
  whole : a.bytesRemaining.toNat % 4 = 0

section Tick

variable {s : Sys}

theorem Ready.awake {a : AudioInterface} (ready : Ready a) : ¬ asleep a := by
  obtain ⟨active, pace, left, -⟩ := ready
  rintro (idle | empty | still)
  · rw [active] at idle
    exact absurd idle (by decide)
  · rw [empty] at left
    exact absurd left (by decide)
  · rw [still] at pace
    exact absurd pace (by decide)

theorem due_iff (a : AudioInterface) : due a = true ↔ a.dmaActive = true ∧
    a.cyclesPerFrame.toNat ≤ a.cycleAccum.toNat ∧ 4 ≤ a.bytesRemaining.toNat := by
  simp only [due, Bool.and_eq_true, decide_eq_true_eq, ge_iff_le, BitVec.le_def, and_assoc]
  exact Iff.rfl

theorem paid_frames (a : AudioInterface) (cycles : Cycles) :
    framesPlayed a cycles * a.cyclesPerFrame.toNat ≤ credit a cycles :=
  (Nat.mul_le_mul_right _ (Nat.min_le_left _ _)).trans (Nat.div_mul_le_self _ _)

theorem had_frames (a : AudioInterface) (cycles : Cycles) :
    framesPlayed a cycles ≤ framesLeft a :=
  Nat.min_le_right _ _

theorem loop_after (s : Sys) (cycles : Cycles) (j : ℕ) :
    (tickFrame s.bus)^[j] (credited s cycles) = atAccum ((frame s.bus)^[j] s.ai)
      (s.ai.cycleAccum + cycles - BitVec.ofNat 64 j * s.ai.cyclesPerFrame) := by
  have start : credited s cycles = atAccum s.ai (s.ai.cycleAccum + cycles) := rfl
  rw [tickFrames_eq, start, frames_atAccum, atAccum_atAccum]
  rfl

/-- After `j` of its frames the loop goes on while cycles and bytes last. -/
theorem due_after (ready : Ready s.ai) {cycles : Cycles} {j : ℕ}
    (le : j ≤ framesPlayed s.ai cycles) :
    due ((tickFrame s.bus)^[j] (credited s cycles)) = true ↔
      s.ai.cyclesPerFrame.toNat ≤ credit s.ai cycles - j * s.ai.cyclesPerFrame.toNat ∧
        4 ≤ s.ai.bytesRemaining.toNat - 4 * j := by
  have taken : (s.ai.cycleAccum + cycles - BitVec.ofNat 64 j * s.ai.cyclesPerFrame).toNat =
      credit s.ai cycles - j * s.ai.cyclesPerFrame.toNat :=
    toNat_sub_mul _ _ j ((Nat.mul_le_mul_right _ le).trans (paid_frames s.ai cycles))
  have bytes := frames_bytesRemaining (b := s.bus) (le.trans (had_frames s.ai cycles))
  obtain ⟨active, -, -, pace, -⟩ := @frames_same s.bus s.ai j
  rw [loop_after, due_iff, ← bytes, ← taken, ← pace]
  exact and_iff_right (active.trans ready.active)

theorem ticked_eq (ready : Ready s.ai) (cycles : Cycles) :
    ticked s cycles = atAccum ((frame s.bus)^[framesPlayed s.ai cycles] s.ai)
      (s.ai.cycleAccum + cycles -
        BitVec.ofNat 64 (framesPlayed s.ai cycles) * s.ai.cyclesPerFrame) := by
  set k := framesPlayed s.ai cycles with played
  have paid : k * s.ai.cyclesPerFrame.toNat ≤ credit s.ai cycles := paid_frames s.ai cycles
  have had : k ≤ s.ai.bytesRemaining.toNat / 4 := had_frames s.ai cycles
  have whole := ready.whole
  have going : ∀ j < k, due ((tickFrame s.bus)^[j] (credited s cycles)) = true := by
    intro j lt
    have more : (j + 1) * s.ai.cyclesPerFrame.toNat ≤ k * s.ai.cyclesPerFrame.toNat :=
      Nat.mul_le_mul_right _ lt
    rw [Nat.add_mul, Nat.one_mul] at more
    rw [due_after ready lt.le]
    omega
  have ended : due ((tickFrame s.bus)^[k] (credited s cycles)) = false := by
    rw [← Bool.not_eq_true, due_after ready (le_refl k)]
    rintro ⟨paying, having⟩
    have spent : credit s.ai cycles / s.ai.cyclesPerFrame.toNat ≤ k ∨
        s.ai.bytesRemaining.toNat / 4 ≤ k := min_le_iff.mp le_rfl
    rcases spent with less | less
    · have next := Nat.lt_mul_of_div_lt (Nat.lt_succ_of_le less) ready.pace
      rw [Nat.succ_mul] at next
      omega
    · omega
  rw [← loop_after]
  exact whileDo_eq_iterate (by omega) going ended

def midway (s : Sys) (cycles : Cycles) : AudioInterface :=
  atAccum ((frame s.bus)^[credit s.ai cycles / s.ai.cyclesPerFrame.toNat] s.ai)
    (BitVec.ofNat 64 (credit s.ai cycles % s.ai.cyclesPerFrame.toNat))

theorem tick_plays (ready : Ready s.ai) {cycles : Cycles}
    (short : credit s.ai cycles / s.ai.cyclesPerFrame.toNat < framesLeft s.ai) :
    tick s cycles = { s with ai := midway s cycles } := by
  have played : framesPlayed s.ai cycles = credit s.ai cycles / s.ai.cyclesPerFrame.toNat :=
    min_eq_left short.le
  have loop := ticked_eq ready cycles
  rw [played] at loop
  have bytes := frames_bytesRemaining (b := s.bus) short.le
  have goesOn : ¬ ((ticked s cycles).dmaActive = true ∧ (ticked s cycles).bytesRemaining < 4) := by
    rintro ⟨-, less⟩
    rw [loop, BitVec.lt_def] at less
    change _ < 4 at less
    rw [framesLeft] at short
    change BitVec.toNat ((frame s.bus)^[_] s.ai).bytesRemaining < 4 at less
    omega
  rw [tick_awake ready.awake, if_neg goesOn, loop, midway, credit, sub_mul_div]

def drained (s : Sys) (cycles : Cycles) : AudioInterface :=
  { atAccum ((frame s.bus)^[framesLeft s.ai] s.ai) (s.ai.cycleAccum + cycles -
      BitVec.ofNat 64 (framesLeft s.ai) * s.ai.cyclesPerFrame) with bytesRemaining := 0 }

theorem tick_finishes (ready : Ready s.ai) {cycles : Cycles}
    (long : framesLeft s.ai ≤ credit s.ai cycles / s.ai.cyclesPerFrame.toNat) :
    tick s cycles = finishCurrentDma { s with ai := drained s cycles } := by
  have played : framesPlayed s.ai cycles = framesLeft s.ai := min_eq_right long
  have loop := ticked_eq ready cycles
  rw [played] at loop
  have bytes := frames_bytesRemaining (b := s.bus) (le_refl (framesLeft s.ai))
  have ended : (ticked s cycles).dmaActive = true ∧ (ticked s cycles).bytesRemaining < 4 := by
    have whole := ready.whole
    rw [loop]
    refine ⟨(frames_same _).1.trans ready.active, ?_⟩
    rw [BitVec.lt_def]
    change BitVec.toNat ((frame s.bus)^[_] s.ai).bytesRemaining < 4
    rw [bytes, framesLeft]
    omega
  rw [tick_awake ready.awake, if_pos ended, loop]
  rfl

end Tick

section Split

variable {s : Sys}

theorem credit_add (a b : Cycles) :
    credit s.ai (a + b) = (credit s.ai a + b.toNat) % 2 ^ 64 := by
  rw [credit, credit, ← BitVec.add_assoc, BitVec.toNat_add]

theorem midway_cycleAccum (s : Sys) (a : Cycles) :
    (midway s a).cycleAccum = BitVec.ofNat 64 (credit s.ai a % s.ai.cyclesPerFrame.toNat) := rfl

theorem midway_cyclesPerFrame (s : Sys) (a : Cycles) :
    (midway s a).cyclesPerFrame = s.ai.cyclesPerFrame :=
  (frames_same (b := s.bus) (a := s.ai) _).2.2.2.1

theorem midway_bytesRemaining {a : Cycles}
    (short : credit s.ai a / s.ai.cyclesPerFrame.toNat < framesLeft s.ai) :
    (midway s a).bytesRemaining.toNat =
      s.ai.bytesRemaining.toNat - 4 * (credit s.ai a / s.ai.cyclesPerFrame.toNat) :=
  frames_bytesRemaining short.le

theorem midway_framesLeft {a : Cycles}
    (short : credit s.ai a / s.ai.cyclesPerFrame.toNat < framesLeft s.ai) :
    framesLeft (midway s a) = framesLeft s.ai - credit s.ai a / s.ai.cyclesPerFrame.toNat := by
  rw [framesLeft, midway_bytesRemaining short, framesLeft]
  omega

theorem midway_ready (ready : Ready s.ai) {a : Cycles}
    (short : credit s.ai a / s.ai.cyclesPerFrame.toNat < framesLeft s.ai) :
    Ready (midway s a) := by
  have bytes := midway_bytesRemaining short
  have whole := ready.whole
  rw [framesLeft] at short
  refine ⟨(frames_same _).1.trans ready.active, ?_, by omega, by omega⟩
  rw [midway_cyclesPerFrame]
  exact ready.pace

theorem credit_midway (a b : Cycles) :
    credit (midway s a) b = (credit s.ai a % s.ai.cyclesPerFrame.toNat + b.toNat) % 2 ^ 64 := by
  have fits : credit s.ai a % s.ai.cyclesPerFrame.toNat < 2 ^ 64 :=
    (Nat.mod_le _ _).trans_lt (BitVec.isLt _)
  rw [credit, BitVec.toNat_add, midway_cycleAccum, BitVec.toNat_ofNat, Nat.mod_eq_of_lt fits]

/-- The cycles of the whole are those of the frames already played and those
of the second tick, unless the accumulator overflows. -/
theorem credit_whole_iff (a b : Cycles) :
    credit s.ai a / s.ai.cyclesPerFrame.toNat * s.ai.cyclesPerFrame.toNat ≤ credit s.ai (a + b) ↔
      credit s.ai (a + b) = credit (midway s a) b +
        s.ai.cyclesPerFrame.toNat * (credit s.ai a / s.ai.cyclesPerFrame.toNat) := by
  have parts := Nat.mod_add_div (credit s.ai a) s.ai.cyclesPerFrame.toNat
  have first : credit s.ai a < 2 ^ 64 := BitVec.isLt _
  have second := b.isLt
  rw [credit_add, credit_midway, Nat.mul_comm (credit s.ai a / s.ai.cyclesPerFrame.toNat)]
  omega

/-- A tick that ends in the middle of the buffer leaves the rest to the next. -/
theorem tick_midway (ready : Ready s.ai) {a b : Cycles}
    (short : credit s.ai a / s.ai.cyclesPerFrame.toNat < framesLeft s.ai)
    (fits : credit s.ai a / s.ai.cyclesPerFrame.toNat * s.ai.cyclesPerFrame.toNat ≤
      credit s.ai (a + b)) :
    tick (tick s a) b = tick s (a + b) := by
  have whole := (credit_whole_iff a b).mp fits
  have left := midway_framesLeft short
  have next := midway_ready ready short
  have pace := midway_cyclesPerFrame s a
  rw [tick_plays ready short]
  set t : Sys := { s with ai := midway s a } with middle
  set k := credit s.ai a / s.ai.cyclesPerFrame.toNat with played
  set p := s.ai.cyclesPerFrame.toNat with period
  have quotient : credit s.ai (a + b) / p = credit t.ai b / p + k := by
    rw [whole, Nat.add_mul_div_left _ _ ready.pace]
  have remainder : credit s.ai (a + b) % p = credit t.ai b % p := by
    rw [whole, Nat.add_mul_mod_self_left]
  have samePace : t.ai.cyclesPerFrame.toNat = p := congrArg BitVec.toNat pace
  have sameLeft : framesLeft t.ai = framesLeft s.ai - k := left
  have started : ∀ j, (frame t.bus)^[j] t.ai =
      atAccum ((frame s.bus)^[j + k] s.ai) t.ai.cycleAccum := by
    intro j
    rw [Function.iterate_add_apply]
    exact frames_atAccum _ j
  by_cases ends : credit t.ai b / t.ai.cyclesPerFrame.toNat < framesLeft t.ai
  · have alsoShort : credit s.ai (a + b) / s.ai.cyclesPerFrame.toNat < framesLeft s.ai := by
      rw [← period, quotient]
      rw [samePace, sameLeft] at ends
      omega
    rw [tick_plays (s := t) next ends, tick_plays ready alsoShort, midway, midway, started,
      samePace,
      ← period, quotient, remainder]
    rfl
  · have alsoLong : framesLeft s.ai ≤ credit s.ai (a + b) / s.ai.cyclesPerFrame.toNat := by
      rw [← period, quotient]
      rw [samePace, sameLeft] at ends
      omega
    rw [tick_finishes (s := t) next (not_lt.mp ends), tick_finishes ready alsoLong]
    have drains : drained t b = drained s (a + b) := by
      have all : framesLeft s.ai - k + k = framesLeft s.ai := Nat.sub_add_cancel short.le
      have cycles :
          t.ai.cycleAccum + b - BitVec.ofNat 64 (framesLeft s.ai - k) * t.ai.cyclesPerFrame =
          s.ai.cycleAccum + (a + b) - BitVec.ofNat 64 (framesLeft s.ai) * s.ai.cyclesPerFrame := by
        have accum : t.ai.cycleAccum =
            s.ai.cycleAccum + a - BitVec.ofNat 64 k * s.ai.cyclesPerFrame :=
          (sub_mul_div (s.ai.cycleAccum + a) s.ai.cyclesPerFrame).symm
        have samePaceWord : t.ai.cyclesPerFrame = s.ai.cyclesPerFrame := pace
        have parts : BitVec.ofNat 64 (framesLeft s.ai) =
            BitVec.ofNat 64 (framesLeft s.ai - k) + BitVec.ofNat 64 k := by
          rw [← BitVec.ofNat_add, all]
        rw [accum, samePaceWord, parts]
        grind
      rw [drained, drained, sameLeft, cycles, started, all]
      rfl
    rw [drains]

theorem finish_counts (s : Sys) :
    (finishCurrentDma s).ai.samplesPushed = s.ai.samplesPushed ∧
      (finishCurrentDma s).ai.dmasCompleted = s.ai.dmasCompleted + 1 := by
  rw [finishCurrentDma_ai]
  split <;> exact ⟨rfl, rfl⟩

theorem drained_counts (s : Sys) (a : Cycles) :
    (drained s a).samplesPushed = s.ai.samplesPushed + BitVec.ofNat 64 (framesLeft s.ai) ∧
      (drained s a).dmasCompleted = s.ai.dmasCompleted :=
  ⟨frames_samplesPushed _, (frames_same (b := s.bus) (a := s.ai) _).2.2.2.2.2⟩

theorem tick_samplesPushed (ready : Ready s.ai) (a : Cycles) :
    (tick s a).ai.samplesPushed = s.ai.samplesPushed + BitVec.ofNat 64 (framesPlayed s.ai a) := by
  by_cases short : credit s.ai a / s.ai.cyclesPerFrame.toNat < framesLeft s.ai
  · rw [tick_plays ready short, framesPlayed, min_eq_left short.le]
    exact frames_samplesPushed _
  · rw [tick_finishes ready (not_lt.mp short), framesPlayed, min_eq_right (not_lt.mp short),
      (finish_counts _).1]
    exact (drained_counts s a).1

theorem tick_dmasCompleted (ready : Ready s.ai) (a : Cycles) :
    (tick s a).ai.dmasCompleted = s.ai.dmasCompleted +
      if credit s.ai a / s.ai.cyclesPerFrame.toNat < framesLeft s.ai then 0 else 1 := by
  by_cases short : credit s.ai a / s.ai.cyclesPerFrame.toNat < framesLeft s.ai
  · have kept : (midway s a).dmasCompleted = s.ai.dmasCompleted :=
      (frames_same (b := s.bus) (a := s.ai) _).2.2.2.2.2
    rw [tick_plays ready short, if_pos short]
    exact kept.trans (BitVec.add_zero _).symm
  · rw [tick_finishes ready (not_lt.mp short), if_neg short, (finish_counts _).2]
    exact congrArg (· + 1) (drained_counts s a).2

theorem framesLeft_lt (a : AudioInterface) : framesLeft a < 2 ^ 64 := by
  have width := a.bytesRemaining.isLt
  rw [framesLeft]
  omega

theorem samples_inj {base : U64} {j k : ℕ} (small : j < 2 ^ 64) (alsoSmall : k < 2 ^ 64)
    (same : base + BitVec.ofNat 64 j = base + BitVec.ofNat 64 k) : j = k := by
  have words := (BitVec.add_right_inj base).mp same
  have numbers := congrArg BitVec.toNat words
  rwa [BitVec.toNat_ofNat, BitVec.toNat_ofNat, Nat.mod_eq_of_lt small, Nat.mod_eq_of_lt alsoSmall]
    at numbers

theorem overflow_plays_fewer (ready : Ready s.ai) {a b : Cycles}
    (short : credit s.ai a / s.ai.cyclesPerFrame.toNat < framesLeft s.ai)
    (overflows : credit s.ai (a + b) <
      credit s.ai a / s.ai.cyclesPerFrame.toNat * s.ai.cyclesPerFrame.toNat) :
    (tick (tick s a) b).ai.samplesPushed ≠ (tick s (a + b)).ai.samplesPushed := by
  intro same
  have next := midway_ready ready short
  have left := midway_framesLeft short
  have many := framesLeft_lt s.ai
  have first : (midway s a).samplesPushed = s.ai.samplesPushed +
      BitVec.ofNat 64 (credit s.ai a / s.ai.cyclesPerFrame.toNat) := frames_samplesPushed _
  have fewer : credit s.ai (a + b) / s.ai.cyclesPerFrame.toNat <
      credit s.ai a / s.ai.cyclesPerFrame.toNat := Nat.div_lt_of_lt_mul (by rwa [Nat.mul_comm])
  have second : framesPlayed ({ s with ai := midway s a } : Sys).ai b ≤ framesLeft (midway s a) :=
    had_frames _ _
  have whole : framesPlayed s.ai (a + b) ≤ credit s.ai (a + b) / s.ai.cyclesPerFrame.toNat :=
    Nat.min_le_left _ _
  rw [tick_plays ready short, tick_samplesPushed (s := { s with ai := midway s a }) next,
    tick_samplesPushed ready, first, BitVec.add_assoc, ← BitVec.ofNat_add] at same
  have counts := samples_inj (by omega) (by omega) same
  omega

theorem setCyclesPerFrame_pace (a : AudioInterface) :
    0 < (setCyclesPerFrame a).cyclesPerFrame.toNat := by
  have chosen : (setCyclesPerFrame a).cyclesPerFrame =
      if rateCycles (sampleRate a) = 0 then 1 else rateCycles (sampleRate a) := rfl
  rw [chosen]
  split
  · decide
  · rename_i nonzero
    exact Nat.pos_of_ne_zero fun zero => nonzero (BitVec.eq_of_toNat_eq zero)

theorem finish_idle (idle : s.ai.dmaQueued = false) :
    (finishCurrentDma s).ai.dmaActive = false ∧
      (finishCurrentDma s).ai.cycleAccum = s.ai.cycleAccum := by
  rw [finishCurrentDma_ai, if_neg (by rw [idle]; exact Bool.false_ne_true)]
  exact ⟨rfl, rfl⟩

theorem finish_starts (queued : s.ai.dmaQueued = true) (latched : Latched s.ai.queued) :
    Ready (finishCurrentDma s).ai ∧ (finishCurrentDma s).ai.cycleAccum = 0 := by
  rw [finishCurrentDma_ai, if_pos queued]
  exact ⟨⟨rfl, setCyclesPerFrame_pace _, latched.long, latched.frames⟩, rfl⟩

theorem Ready.someLeft {a : AudioInterface} (ready : Ready a) : 0 < framesLeft a :=
  Nat.div_pos ready.left (by decide)

theorem fresh_credit (fresh : s.ai.cycleAccum = 0) (b : Cycles) : credit s.ai b = b.toNat := by
  rw [credit, fresh]
  exact congrArg BitVec.toNat (BitVec.zero_add b)

theorem tick_fresh_zero (ready : Ready s.ai) (fresh : s.ai.cycleAccum = 0) : tick s 0 = s := by
  have nothing : credit s.ai 0 = 0 := fresh_credit fresh 0
  rw [tick_plays ready (by rw [nothing, Nat.zero_div]; exact ready.someLeft), midway, nothing,
    Nat.zero_div, Nat.zero_mod, Function.iterate_zero_apply]
  exact congrArg (fun n : Cycles => ({ s with ai.cycleAccum := n } : Sys)) fresh.symm

/-- Cycles that reach a fresh buffer play a frame or stay in the accumulator. -/
theorem fresh_moves (ready : Ready s.ai) (fresh : s.ai.cycleAccum = 0) {b : Cycles}
    (nonzero : b ≠ 0) (same : (tick s b).ai.samplesPushed = s.ai.samplesPushed) :
    (tick s b).ai.cycleAccum ≠ 0 := by
  have many := framesLeft_lt s.ai
  have inside : framesPlayed s.ai b ≤ framesLeft s.ai := had_frames _ _
  have someLeft := ready.someLeft
  have played : framesPlayed s.ai b = 0 := by
    rw [tick_samplesPushed ready] at same
    refine @samples_inj s.ai.samplesPushed _ 0 (by omega) (by decide) ?_
    rw [same]
    exact (BitVec.add_zero _).symm
  have short : credit s.ai b / s.ai.cyclesPerFrame.toNat = 0 := by
    rw [framesPlayed] at played
    omega
  have below : credit s.ai b < s.ai.cyclesPerFrame.toNat :=
    (Nat.div_eq_zero_iff_lt ready.pace).mp short
  have kept : (midway s b).cycleAccum = b := by
    rw [midway_cycleAccum, Nat.mod_eq_of_lt below, fresh_credit fresh, BitVec.ofNat_toNat,
      BitVec.setWidth_eq]
  rw [tick_plays ready (by omega)]
  exact fun zero => nonzero (kept.symm.trans zero)

/-- The interface and the interrupt register. -/
structure SameAudio (s t : Sys) : Prop where
  ai : s.ai = t.ai
  mi : s.bus.mi = t.bus.mi

theorem add_ne_self (x : U64) {y : U64} (nonzero : y ≠ 0) : x + y ≠ x :=
  fun same => nonzero ((BitVec.add_right_inj x).mp (same.trans (BitVec.add_zero x).symm))

theorem tick_completes {t : Sys} (ready : Ready t.ai ∨ t.ai.dmaActive = false) (b : Cycles) :
    (tick t b).ai.dmasCompleted = t.ai.dmasCompleted ∨
      (tick t b).ai.dmasCompleted = t.ai.dmasCompleted + 1 := by
  rcases ready with ready | idle
  · rw [tick_dmasCompleted ready]
    split
    · exact .inl (BitVec.add_zero _)
    · exact .inr rfl
  · rw [tick_asleep (.inl (by rw [idle]; rfl))]
    exact .inl rfl

theorem drained_queue (s : Sys) (a : Cycles) : (drained s a).dmaQueued = s.ai.dmaQueued ∧
    (drained s a).queued = s.ai.queued := by
  obtain ⟨-, queued, job, -⟩ := @frames_same s.bus s.ai (framesLeft s.ai)
  exact ⟨queued, job⟩

theorem completed_differs (ready : Ready s.ai) {a b : Cycles}
    (long : framesLeft s.ai ≤ credit s.ai a / s.ai.cyclesPerFrame.toNat)
    (short : credit s.ai (a + b) / s.ai.cyclesPerFrame.toNat < framesLeft s.ai)
    (next : Ready (tick s a).ai ∨ (tick s a).ai.dmaActive = false) :
    (tick (tick s a) b).ai.dmasCompleted ≠ (tick s (a + b)).ai.dmasCompleted := by
  have first : (tick s a).ai.dmasCompleted = s.ai.dmasCompleted + 1 := by
    rw [tick_dmasCompleted ready, if_neg (not_lt.mpr long)]
  have whole : (tick s (a + b)).ai.dmasCompleted = s.ai.dmasCompleted := by
    rw [tick_dmasCompleted ready, if_pos short]
    exact BitVec.add_zero _
  rw [whole]
  rcases tick_completes next b with once | twice
  · rw [once, first]
    exact add_ne_self _ (by decide)
  · rw [twice, first, BitVec.add_assoc]
    exact add_ne_self _ (by decide)

/-- Without a queued buffer the cycles behind the end stay in the accumulator,
as many as the tick brought. -/
theorem accum_agrees (ready : Ready s.ai) (idle : s.ai.dmaQueued = false) {a b : Cycles}
    (long : framesLeft s.ai ≤ credit s.ai a / s.ai.cyclesPerFrame.toNat)
    (alsoLong : framesLeft s.ai ≤ credit s.ai (a + b) / s.ai.cyclesPerFrame.toNat)
    (same : (tick (tick s a) b).ai.cycleAccum = (tick s (a + b)).ai.cycleAccum) : b = 0 := by
  have ends : ∀ c, framesLeft s.ai ≤ credit s.ai c / s.ai.cyclesPerFrame.toNat →
      (tick s c).ai.dmaActive = false ∧ (tick s c).ai.cycleAccum =
        s.ai.cycleAccum + c - BitVec.ofNat 64 (framesLeft s.ai) * s.ai.cyclesPerFrame := by
    intro c reached
    rw [tick_finishes ready reached]
    exact finish_idle ((drained_queue s c).1.trans idle)
  obtain ⟨stopped, kept⟩ := ends a long
  rw [tick_asleep (.inl (by rw [stopped]; rfl)), kept, (ends (a + b) alsoLong).2] at same
  grind

/-- A queued buffer that the first tick starts is moved by the second only. -/
theorem fresh_differs (ready : Ready s.ai) (queued : s.ai.dmaQueued = true)
    (latched : Latched s.ai.queued) {a b : Cycles} (nonzero : b ≠ 0)
    (long : framesLeft s.ai ≤ credit s.ai a / s.ai.cyclesPerFrame.toNat)
    (alsoLong : framesLeft s.ai ≤ credit s.ai (a + b) / s.ai.cyclesPerFrame.toNat) :
    (tick (tick s a) b).ai ≠ (tick s (a + b)).ai := by
  have starts : ∀ c, framesLeft s.ai ≤ credit s.ai c / s.ai.cyclesPerFrame.toNat →
      (Ready (tick s c).ai ∧ (tick s c).ai.cycleAccum = 0) ∧
        (tick s c).ai.samplesPushed = s.ai.samplesPushed + BitVec.ofNat 64 (framesLeft s.ai) := by
    intro c reached
    obtain ⟨flag, job⟩ := drained_queue s c
    rw [tick_finishes ready reached, (finish_counts _).1]
    exact ⟨finish_starts (flag.trans queued) (job ▸ latched), (drained_counts s c).1⟩
  obtain ⟨⟨next, fresh⟩, pushed⟩ := starts a long
  obtain ⟨⟨-, wholeFresh⟩, wholePushed⟩ := starts (a + b) alsoLong
  intro same
  have samples : (tick (tick s a) b).ai.samplesPushed = (tick s a).ai.samplesPushed := by
    rw [same, wholePushed, pushed]
  exact fresh_moves next fresh nonzero samples (by rw [same, wholeFresh])

/-- Behind the end of the buffer only a tick of no cycles makes no difference. -/
theorem sameAudio_finished_iff (ready : Ready s.ai)
    (queue : s.ai.dmaQueued = true → Latched s.ai.queued) {a b : Cycles}
    (long : framesLeft s.ai ≤ credit s.ai a / s.ai.cyclesPerFrame.toNat) :
    SameAudio (tick (tick s a) b) (tick s (a + b)) ↔ b = 0 := by
  have ends : (Ready (tick s a).ai ∧ (tick s a).ai.cycleAccum = 0) ∨
      (tick s a).ai.dmaActive = false := by
    obtain ⟨flag, job⟩ := drained_queue s a
    rw [tick_finishes ready long]
    by_cases queued : s.ai.dmaQueued = true
    · exact .inl (finish_starts (flag.trans queued) (job ▸ queue queued))
    · exact .inr (finish_idle (flag.trans (Bool.eq_false_of_not_eq_true queued))).1
  constructor
  · intro same
    by_contra some
    by_cases alsoLong : framesLeft s.ai ≤ credit s.ai (a + b) / s.ai.cyclesPerFrame.toNat
    · by_cases queued : s.ai.dmaQueued = true
      · exact fresh_differs ready queued (queue queued) some long alsoLong same.ai
      · exact some (accum_agrees ready (Bool.eq_false_of_not_eq_true queued) long alsoLong
          (congrArg AudioInterface.cycleAccum same.ai))
    · exact completed_differs ready long (not_le.mp alsoLong) (ends.imp_left And.left)
        (congrArg AudioInterface.dmasCompleted same.ai)
  · rintro rfl
    have still : tick (tick s a) 0 = tick s a := by
      rcases ends with ⟨next, fresh⟩ | idle
      · exact tick_fresh_zero next fresh
      · exact tick_asleep (.inl (by rw [idle]; rfl))
    have nothing : a + (0 : Cycles) = a := BitVec.add_zero a
    rw [still, nothing]
    exact ⟨rfl, rfl⟩

end Split

section Reached

/-- What the emulation thread and the host callback do with the interface. -/
inductive Turn where
  | perform (act : Act)
  | pull (maxFrames : U64)

def Turn.take : Turn → Sys → Sys
  | .perform act, s => act.perform s
  | .pull maxFrames, s => { s with ai := (pullFrames s.ai maxFrames).1 }

def Reachable (a : AudioInterface) : Prop :=
  ∃ (turns : List Turn) (start : Sys),
    a = (run Turn.take turns { start with ai := reset start.ai }).ai

def Paced (a : AudioInterface) : Prop := 0 < a.cyclesPerFrame.toNat

variable {s : Sys}

theorem paced_finish (paced : Paced s.ai) : Paced (finishCurrentDma s).ai := by
  rw [finishCurrentDma_ai]
  split
  · exact setCyclesPerFrame_pace _
  · exact paced

theorem paced_tick (cycles : Cycles) (paced : Paced s.ai) : Paced (tick s cycles).ai := by
  by_cases sleeps : asleep s.ai
  · rw [tick_asleep sleeps]
    exact paced
  · have loop : Paced (ticked s cycles) :=
      whileDo_preserves Paced _ paced fun a _ kept => by
        rw [tickFrame, pushFrame_same]
        exact kept
    rw [tick_awake sleeps]
    split
    · exact paced_finish loop
    · exact loop

theorem paced_startOrQueueDma {a : AudioInterface} (length : U32) (paced : Paced a) :
    Paced (startOrQueueDma a length) := by
  rw [startOrQueueDma]
  split
  · exact paced
  · dsimp only
    split
    · exact setCyclesPerFrame_pace _
    · split <;> exact paced

theorem paced_write (offset value : U32) (paced : Paced s.ai) :
    Paced (write s offset value).ai := by
  rw [write]
  split
  · exact paced
  · exact paced
  · exact paced
  · exact setCyclesPerFrame_pace _
  · exact paced
  · exact paced_startOrQueueDma _ paced
  · exact paced

theorem pullFrames_same (a : AudioInterface) (maxFrames : U64) :
    (pullFrames a maxFrames).1 = { a with ringR := (pullFrames a maxFrames).1.ringR } := by
  rw [pullFrames]
  dsimp only
  split_ifs <;> rfl

theorem take_inv (turn : Turn) (h : Playing s.ai ∧ Paced s.ai) :
    Playing (turn.take s).ai ∧ Paced (turn.take s).ai := by
  obtain ⟨playing, paced⟩ := h
  cases turn with
  | perform act =>
    refine ⟨(plays_perform act s playing).1, ?_⟩
    cases act with
    | write offset value => exact paced_write offset value paced
    | tick cycles => exact paced_tick cycles paced
  | pull maxFrames =>
    have pulled : (Turn.take (.pull maxFrames) s).ai =
        { s.ai with ringR := (pullFrames s.ai maxFrames).1.ringR } := pullFrames_same s.ai maxFrames
    have kept : ∀ r, Playing ({ s.ai with ringR := r } : AudioInterface) := fun r =>
      (playing.unmoved (c := { s.ai with ringR := r }) s.bus rfl rfl rfl ⟨rfl, rfl⟩ rfl rfl).1
    rw [pulled]
    exact ⟨kept _, paced⟩

theorem reachable_inv {a : AudioInterface} (reachable : Reachable a) : Playing a ∧ Paced a := by
  obtain ⟨turns, start, rfl⟩ := reachable
  have first : Playing (reset start.ai) ∧ Paced (reset {}) :=
    ⟨(playing_reset start.ai start.bus).1, by rw [Paced]; decide⟩
  exact run_preserves (P := fun s : Sys => Playing s.ai ∧ Paced s.ai)
    (fun turn _ h => take_inv turn h) turns first

/-- Two ticks agree with the tick of their sum when the second brings nothing
or no buffer plays, or when the first ends inside the buffer and the
accumulator does not overflow in the whole only. -/
def Splits (a : AudioInterface) (first second : Cycles) : Prop :=
  second = 0 ∨ a.dmaActive = false ∨
    (credit a first < framesLeft a * a.cyclesPerFrame.toNat ∧
      credit a first / a.cyclesPerFrame.toNat * a.cyclesPerFrame.toNat ≤ credit a (first + second))

theorem batches_agree_iff {s : Sys} (reachable : Reachable s.ai) (a b : Cycles) :
    SameAudio (tick (tick s a) b) (tick s (a + b)) ↔ Splits s.ai a b := by
  obtain ⟨playing, paced⟩ := reachable_inv reachable
  by_cases active : s.ai.dmaActive = true
  · obtain ⟨inside, left⟩ := playing.active active
    have ready : Ready s.ai := ⟨active, paced, left, inside.frames⟩
    have busy : s.ai.dmaActive ≠ false := by
      rw [active]
      decide
    by_cases short : credit s.ai a / s.ai.cyclesPerFrame.toNat < framesLeft s.ai
    · have below := (Nat.div_lt_iff_lt_mul paced).mp short
      by_cases fits : credit s.ai a / s.ai.cyclesPerFrame.toNat * s.ai.cyclesPerFrame.toNat ≤
          credit s.ai (a + b)
      · rw [tick_midway ready short fits]
        exact iff_of_true ⟨rfl, rfl⟩ (.inr (.inr ⟨below, fits⟩))
      · refine iff_of_false (fun same => ?_) ?_
        · exact overflow_plays_fewer ready short (not_le.mp fits)
            (congrArg AudioInterface.samplesPushed same.ai)
        · rintro (nothing | idle | ⟨-, within⟩)
          · rw [nothing] at fits
            have kept : a + (0 : Cycles) = a := BitVec.add_zero a
            rw [kept] at fits
            exact fits (Nat.div_mul_le_self _ _)
          · exact busy idle
          · exact fits within
    · have beyond : ¬ credit s.ai a < framesLeft s.ai * s.ai.cyclesPerFrame.toNat :=
        (Nat.div_lt_iff_lt_mul paced).not.mp short
      rw [sameAudio_finished_iff ready (fun queued => (playing.queue queued).2) (not_lt.mp short),
        Splits]
      simp [busy, beyond]
  · have idle : s.ai.dmaActive = false := Bool.eq_false_of_not_eq_true active
    have still : ∀ c, tick s c = s := fun c => tick_asleep (.inl (by rw [idle]; rfl))
    rw [still a, still b, still (a + b)]
    exact iff_of_true ⟨rfl, rfl⟩ (.inr (.inl idle))

def twoBuffers : Sys := write (write { ai := reset {} } 0x04 64) 0x04 64

theorem batches_agree_midway :
    SameAudio (tick (tick twoBuffers 2000) 2000) (tick twoBuffers (2000 + 2000)) ↔
      Splits twoBuffers.ai 2000 2000 :=
  batches_agree_iff ⟨[.perform (.write 0x04 64), .perform (.write 0x04 64)], {}, rfl⟩ 2000 2000

/-- The first buffer ends after sixteen frames of 2929 cycles. Of the cycles
behind it a second tick plays a frame, where one tick drops them. -/
theorem cycles_behind_the_end_are_lost :
    Reachable twoBuffers.ai ∧
      (tick (tick twoBuffers 47000) 3000).ai.samplesPushed = 17 ∧
      (tick twoBuffers (47000 + 3000)).ai.samplesPushed = 16 ∧
      ¬ SameAudio (tick (tick twoBuffers 47000) 3000) (tick twoBuffers (47000 + 3000)) := by
  have split : (tick (tick twoBuffers 47000) 3000).ai.samplesPushed = 17 := by decide +kernel
  have whole : (tick twoBuffers (47000 + 3000)).ai.samplesPushed = 16 := by decide +kernel
  refine ⟨⟨[.perform (.write 0x04 64), .perform (.write 0x04 64)], {}, rfl⟩, split, whole, ?_⟩
  intro same
  rw [same.ai, whole] at split
  exact absurd split (by decide)

end Reached

end N64.Ai
