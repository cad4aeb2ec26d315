import N64Emu.AudioPlayback
import N64Emu.LowMasks

/-!
# What AI_LEN reads

The length register is both the latch of the next buffer and the countdown of
the active one. It shows the countdown as long as no length write comes in
while a buffer plays, except one that writes what it reads.
-/

set_option autoImplicit false

namespace N64.Ai

open Words Loops Runs

/-- AI_LEN reads the bytes left, rounded down to a multiple of eight. -/
def LengthShown (a : AudioInterface) : Prop :=
  (read a 0x04).toNat = if a.dmaActive then a.bytesRemaining.toNat / 8 * 8 else 0

instance (a : AudioInterface) : Decidable (LengthShown a) := inferInstanceAs (Decidable (_ = _))

/-- The register and the countdown agree in the bits that are read. -/
def CountedDown (a : AudioInterface) : Prop :=
  a.regs Len &&& 0x0003FFF8 = if a.dmaActive then a.bytesRemaining &&& 0x0003FFF8 else 0

/-- No length write while a buffer plays, but one of what is left. -/
def Act.KeepsCountdown (act : Act) (s : Sys) : Prop :=
  match act with
  | .write offset value =>
    offset &&& 0x1C = 0x04 → s.ai.dmaActive = true →
      value &&& 0x0003FFF8 = s.ai.bytesRemaining &&& 0x0003FFF8
  | .tick _ => True

section Shown

variable {a : AudioInterface}

theorem lengthShown_iff (playing : Playing a) : LengthShown a ↔ CountedDown a := by
  have register : read a 0x04 = a.regs Len &&& 0x0003FFF8 := rfl
  have masked : (a.bytesRemaining &&& 0x0003FFF8).toNat = a.bytesRemaining.toNat % 2 ^ 18 / 8 * 8 :=
    LowMasks.toNat_and_field (n := 3) a.bytesRemaining (show 18 ≤ 32 by decide)
  rw [LengthShown, CountedDown, register, ← BitVec.toNat_inj]
  by_cases active : a.dmaActive = true
  · obtain ⟨inside, -⟩ := playing.active active
    have short := inside.latched.short
    have le := inside.le
    rw [if_pos active, if_pos active, masked, Nat.mod_eq_of_lt (by omega)]
  · rw [if_neg active, if_neg active]
    exact Iff.rfl

theorem CountedDown.same {c : AudioInterface} (counted : CountedDown a)
    (register : c.regs Len = a.regs Len) (active : c.dmaActive = a.dmaActive)
    (left : c.bytesRemaining = a.bytesRemaining) : CountedDown c := by
  rw [CountedDown, register, active, left]
  exact counted

theorem countedDown_tickFrame (b : Bus) (active : a.dmaActive = true) :
    CountedDown (tickFrame b a) := by
  have length : (tickFrame b a).regs Len = (tickFrame b a).bytesRemaining &&& 0x0003FFF8 :=
    setReg_self _ _ _
  have same : (tickFrame b a).dmaActive = a.dmaActive := by
    rw [tickFrame, pushFrame_same]
    rfl
  rw [CountedDown, same, if_pos active, length, BitVec.and_assoc, BitVec.and_self]

theorem countedDown_beginDma (job : DmaJob) : CountedDown (beginDma a job) := by
  have length : (beginDma a job).regs Len = job.length := by
    simp [beginDma, setCyclesPerFrame, updateStatusBits, setReg, Len, Status]
  rw [CountedDown, length]
  rfl

theorem countedDown_stopped : CountedDown (updateStatusBits (stopped a)) := by
  have length : (updateStatusBits (stopped a)).regs Len = 0 := by
    simp [stopped, updateStatusBits, setReg, Len, Status]
  rw [CountedDown, length]
  rfl

theorem countedDown_finish (s : Sys) : CountedDown (finishCurrentDma s).ai := by
  rw [finishCurrentDma_ai]
  split
  · exact countedDown_beginDma _
  · exact countedDown_stopped

theorem countedDown_whileDo (b : Bus) (fuel : ℕ) (counted : CountedDown a) :
    CountedDown (whileDo due (tickFrame b) fuel a) := by
  refine whileDo_preserves CountedDown fuel counted fun t going _ => ?_
  have active : t.dmaActive = true := by
    simp only [due, Bool.and_eq_true] at going
    exact going.1.1
  exact countedDown_tickFrame b active

end Shown

section Steps

variable {s : Sys}

theorem countedDown_tick (cpuCycles : Cycles) (counted : CountedDown s.ai) :
    CountedDown (tick s cpuCycles).ai := by
  by_cases sleeps : asleep s.ai
  · rw [tick_asleep sleeps]
    exact counted
  · rw [tick_awake sleeps]
    split
    · exact countedDown_finish _
    · exact countedDown_whileDo s.bus _ (counted.same rfl rfl rfl)

theorem startOrQueueDma_active (value : U32) (active : s.ai.dmaActive = true) :
    let a := startOrQueueDma (setReg s.ai Len value) value
    a.regs Len = value ∧ a.dmaActive = true ∧ a.bytesRemaining = s.ai.bytesRemaining := by
  dsimp only
  rw [startOrQueueDma]
  split
  · exact ⟨setReg_self _ _ _, active, rfl⟩
  · dsimp only
    rw [if_neg (by simp [setReg, active])]
    split
    · exact ⟨by simp [updateStatusBits, setReg, Len, Status], active, rfl⟩
    · exact ⟨setReg_self _ _ _, active, rfl⟩

theorem countedDown_length (value : U32) :
    CountedDown (startOrQueueDma (setReg s.ai Len (value &&& 0x0003FFF8)) (value &&& 0x0003FFF8)) ↔
      (s.ai.dmaActive = true → value &&& 0x0003FFF8 = s.ai.bytesRemaining &&& 0x0003FFF8) := by
  by_cases active : s.ai.dmaActive = true
  · obtain ⟨register, stays, left⟩ := startOrQueueDma_active (value &&& 0x0003FFF8) active
    rw [CountedDown, register, stays, left, if_pos rfl, BitVec.and_assoc, BitVec.and_self]
    exact ⟨fun same _ => same, fun same => same active⟩
  · refine iff_of_true ?_ (fun contra => absurd contra active)
    rw [startOrQueueDma, alignLen_masked]
    split
    · rename_i none
      rw [CountedDown, setReg_self, none]
      exact (if_neg active).symm
    · dsimp only
      rw [if_pos (by simpa [setReg] using active)]
      exact countedDown_beginDma _

theorem countedDown_write (offset value : U32) (counted : CountedDown s.ai) :
    CountedDown (write s offset value).ai ↔ (Act.write offset value).KeepsCountdown s := by
  by_cases length : offset &&& 0x1C = 0x04
  · have written : (write s offset value).ai =
        startOrQueueDma (setReg s.ai Len (value &&& 0x0003FFF8)) (value &&& 0x0003FFF8) := by
      rw [write, length]
      exact congrArg (startOrQueueDma _) (setReg_self ..)
    rw [written, countedDown_length]
    exact ⟨fun same _ => same, fun same => same length⟩
  · refine iff_of_true ?_ (fun contra => absurd contra length)
    rw [write]
    split
    · exact counted
    · exact counted.same (setReg_other _ _ (by decide)) rfl rfl
    · exact counted.same (@setReg_other s.ai Len Control (value &&& 0x1) (by decide)) rfl rfl
    · exact counted.same (@setReg_other s.ai Len DacRate (value &&& 0x3FFF) (by decide)) rfl rfl
    · exact counted.same (setReg_other _ _ (by decide)) rfl rfl
    · rename_i four
      exact absurd (BitVec.eq_of_toNat_eq four) length
    · exact counted

theorem playing_perform (act : Act) (playing : Playing s.ai) : Playing (act.perform s).ai :=
  (plays_perform act s playing).1

theorem lengthShown_perform (act : Act) (playing : Playing s.ai) (shown : LengthShown s.ai) :
    LengthShown (act.perform s).ai ↔ act.KeepsCountdown s := by
  have counted := (lengthShown_iff playing).mp shown
  rw [lengthShown_iff (playing_perform act playing)]
  cases act with
  | write offset value => exact countedDown_write offset value counted
  | tick cpuCycles => exact iff_of_true (countedDown_tick cpuCycles counted) trivial

end Steps

/-- A run of register writes and ticks from reset shows the countdown in every
state it reaches exactly when no length write of another value comes in while
a buffer plays. -/
theorem length_shown_iff (start : Sys) (acts : List Act) :
    (∀ n, LengthShown (run Act.perform (acts.take n) { start with ai := reset start.ai }).ai) ↔
      Along Act.perform Act.KeepsCountdown acts { start with ai := reset start.ai } := by
  have playing : Playing (reset start.ai) := (playing_reset start.ai start.bus).1
  have shown : LengthShown (reset {}) := by decide
  exact reached_iff_along (K := fun s : Sys => Playing s.ai) (G := fun s : Sys => LengthShown s.ai)
    (fun act _ kept => playing_perform act kept)
    (fun act _ kept good => lengthShown_perform act kept good) acts playing shown

/-- With 64 bytes left a queued buffer of 32 makes AI_LEN read 32. -/
theorem queued_length_shows :
    let s := run Act.perform [.write 0x04 64, .write 0x04 32] { ai := reset {} }
    s.ai.dmaActive = true ∧ s.ai.bytesRemaining = 64 ∧ read s.ai 0x04 = 32 ∧
      ¬ LengthShown s.ai := by
  decide

end N64.Ai
