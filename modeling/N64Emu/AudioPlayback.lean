import N64Emu.Audio
import N64Emu.Runs

/-!
# Playing the audio buffers

A buffer is accepted by its length write, waits in the queue or plays at once,
and ends in one completion. What has been played and what is left to play are
together the accepted buffers in order.
-/

set_option autoImplicit false

namespace N64.Ai

open Words Loops Runs

inductive Act where
  | write (offset value : U32)
  | tick (cpuCycles : Cycles)

def Act.perform (a : Act) (s : Sys) : Sys :=
  match a with
  | .write offset value => Ai.write s offset value
  | .tick cpuCycles => Ai.tick s cpuCycles

inductive Output where
  | frame (left right : U16)
  | completion
  deriving DecidableEq

def heard (a : AudioInterface) : Output → AudioInterface
  | .frame left right => pushFrame a left right
  | .completion => { a with dmasCompleted := a.dmasCompleted + 1 }

def sound (a : AudioInterface) : (ℕ → U16) × U64 × U64 × U64 × U64 × U64 :=
  (a.ring, a.ringR, a.ringW, a.samplesPushed, a.framesDropped, a.dmasCompleted)

/-- The condition of the loop in `tick`. -/
def due (a : AudioInterface) : Bool :=
  a.dmaActive && a.cyclesPerFrame ≤ a.cycleAccum && a.bytesRemaining ≥ 4

/-- The interface as `tick` enters its loop, and the loop's bound. -/
def credited (s : Sys) (cpuCycles : Cycles) : AudioInterface :=
  { s.ai with cycleAccum := s.ai.cycleAccum + cpuCycles }

def ticked (s : Sys) (cpuCycles : Cycles) : AudioInterface :=
  whileDo due (tickFrame s.bus) s.ai.bytesRemaining.toNat (credited s cpuCycles)

def asleep (a : AudioInterface) : Prop :=
  !a.dmaActive ∨ a.bytesRemaining = 0 ∨ a.cyclesPerFrame = 0

instance (a : AudioInterface) : Decidable (asleep a) :=
  inferInstanceAs (Decidable (_ ∨ _ ∨ _))

/-- The frame that a pass of the loop hands to `push_frame`. -/
def frameOf (b : Bus) (a : AudioInterface) : Output :=
  .frame (beS16FromRdram b a.readCursor) (beS16FromRdram b (a.readCursor + 2))

def plays (act : Act) (s : Sys) : List Output :=
  match act with
  | .write _ _ => []
  | .tick cpuCycles =>
    if asleep s.ai then []
    else
      (passes due (tickFrame s.bus) s.ai.bytesRemaining.toNat (credited s cpuCycles)).map
          (frameOf s.bus) ++
        if (ticked s cpuCycles).dmaActive ∧ (ticked s cpuCycles).bytesRemaining < 4 then
          [.completion]
        else []

def accepts (act : Act) (s : Sys) : List DmaJob :=
  match act with
  | .tick _ => []
  | .write offset value =>
    if offset &&& 0x1C = 0x04 ∧ value &&& 0x0003FFF8 ≠ 0 ∧ ¬(s.ai.dmaActive ∧ s.ai.dmaQueued) then
      [{ dramAddr := s.ai.regs DramAddr &&& 0x00FFFFF8, length := value &&& 0x0003FFF8 }]
    else []

/-- A big-endian sample, its address taken modulo the size of the memory. -/
def sample (b : Bus) (i : ℕ) : U16 :=
  if b.rdramSize = 0 then 0
  else join16 (b.rdram (i % b.rdramSize)) (b.rdram ((i + 1) % b.rdramSize))

def frameAt (b : Bus) (job : DmaJob) (j : ℕ) : Output :=
  .frame (sample b (job.dramAddr.toNat + 4 * j)) (sample b (job.dramAddr.toNat + 4 * j + 2))

def playback (b : Bus) (job : DmaJob) : List Output :=
  (List.range (job.length.toNat / 4)).map (frameAt b job) ++ [.completion]

theorem playback_end (b : Bus) (job : DmaJob) :
    (playback b job).drop (job.length.toNat / 4) = [.completion] := by
  rw [playback, List.drop_left' (by simp)]

def remaining (b : Bus) (a : AudioInterface) : List Output :=
  (if a.dmaActive then
    (playback b a.current).drop ((a.current.length.toNat - a.bytesRemaining.toNat) / 4)
  else []) ++
    if a.dmaQueued then playback b a.queued else []

/-- A buffer as a length write makes it. -/
structure Latched (job : DmaJob) : Prop where
  addr : job.dramAddr.toNat < 2 ^ 24
  short : job.length.toNat < 2 ^ 18
  long : 4 ≤ job.length.toNat
  frames : job.length.toNat % 4 = 0

/-- The cursor has moved over the part that is played. -/
structure Cursor (a : AudioInterface) : Prop where
  latched : Latched a.current
  frames : a.bytesRemaining.toNat % 4 = 0
  cursor : a.readCursor.toNat + a.bytesRemaining.toNat =
    a.current.dramAddr.toNat + a.current.length.toNat
  le : a.bytesRemaining.toNat ≤ a.current.length.toNat

def status (queued active : Bool) : U32 :=
  (if queued then StatusFull else 0) ||| if active then StatusBusy else 0

structure Playing (a : AudioInterface) : Prop where
  status : a.regs Status = status a.dmaQueued a.dmaActive
  queue : a.dmaQueued = true → a.dmaActive = true ∧ Latched a.queued
  active : a.dmaActive = true → Cursor a ∧ 4 ≤ a.bytesRemaining.toNat

section Frames

variable {b : Bus} {a : AudioInterface}

theorem pushFrame_same (a : AudioInterface) (left right : U16) :
    pushFrame a left right = { a with
      samplesPushed := (pushFrame a left right).samplesPushed
      framesDropped := (pushFrame a left right).framesDropped
      ring := (pushFrame a left right).ring
      ringW := (pushFrame a left right).ringW } := by
  rw [pushFrame]
  dsimp only
  split_ifs <;> rfl

theorem beS16FromRdram_eq {addr : U32} (small : addr.toNat + 1 < 2 ^ 32) :
    beS16FromRdram b addr = sample b addr.toNat := by
  have next : (addr + 1).toNat = addr.toNat + 1 := by
    rw [BitVec.toNat_add]
    exact Nat.mod_eq_of_lt small
  rw [beS16FromRdram, sample, next]

theorem frameOf_eq (inside : Cursor a) (more : 4 ≤ a.bytesRemaining.toNat) :
    frameOf b a =
      frameAt b a.current ((a.current.length.toNat - a.bytesRemaining.toNat) / 4) := by
  obtain ⟨⟨addr, short, long, whole⟩, frames, cursor, le⟩ := inside
  have place : a.current.dramAddr.toNat +
      4 * ((a.current.length.toNat - a.bytesRemaining.toNat) / 4) = a.readCursor.toNat := by
    omega
  have second : (a.readCursor + 2).toNat = a.readCursor.toNat + 2 := by
    rw [BitVec.toNat_add]
    exact Nat.mod_eq_of_lt (by simp; omega)
  rw [frameOf, frameAt, place, beS16FromRdram_eq (by omega), beS16FromRdram_eq (by omega), second]

theorem bytesRemaining_tickFrame (more : 4 ≤ a.bytesRemaining.toNat) :
    (tickFrame b a).bytesRemaining.toNat = a.bytesRemaining.toNat - 4 := by
  have less : (tickFrame b a).bytesRemaining = a.bytesRemaining - 4 := by
    rw [tickFrame, pushFrame_same]
    rfl
  rw [less, BitVec.toNat_sub_of_le (by rw [BitVec.le_def]; exact more)]
  rfl

theorem cursor_tickFrame (inside : Cursor a) (more : 4 ≤ a.bytesRemaining.toNat) :
    Cursor (tickFrame b a) := by
  have moved : (tickFrame b a).readCursor = a.readCursor + 4 := by
    rw [tickFrame, pushFrame_same]
    rfl
  have current : (tickFrame b a).current = a.current := by
    rw [tickFrame, pushFrame_same]
    rfl
  have less := bytesRemaining_tickFrame (b := b) more
  obtain ⟨latched, frames, cursor, le⟩ := inside
  have small := latched.addr
  have short := latched.short
  have next : (a.readCursor + 4).toNat = a.readCursor.toNat + 4 := by
    rw [BitVec.toNat_add]
    exact Nat.mod_eq_of_lt (by simp; omega)
  refine ⟨by rwa [current], by omega, ?_, ?_⟩
  · rw [moved, current, next]
    omega
  · rw [current]
    omega

theorem remaining_tickFrame (inside : Cursor a) (active : a.dmaActive = true)
    (more : 4 ≤ a.bytesRemaining.toNat) :
    frameOf b a :: remaining b (tickFrame b a) = remaining b a := by
  have same : (tickFrame b a).dmaActive = a.dmaActive ∧ (tickFrame b a).dmaQueued = a.dmaQueued ∧
      (tickFrame b a).current = a.current ∧ (tickFrame b a).queued = a.queued := by
    rw [tickFrame, pushFrame_same]
    exact ⟨rfl, rfl, rfl, rfl⟩
  have whole := inside.latched.frames
  have frames := inside.frames
  have le := inside.le
  let k := (a.current.length.toNat - a.bytesRemaining.toNat) / 4
  have next : (a.current.length.toNat - (tickFrame b a).bytesRemaining.toNat) / 4 = k + 1 := by
    rw [bytesRemaining_tickFrame more]
    simp only [k]
    omega
  have bound : k < a.current.length.toNat / 4 := by
    simp only [k]
    omega
  have here : (playback b a.current).drop k =
      frameAt b a.current k :: (playback b a.current).drop (k + 1) := by
    rw [playback, List.drop_eq_getElem_cons (by simp; omega), List.getElem_append_left (by simpa)]
    simp
  rw [remaining, remaining, same.1, same.2.1, same.2.2.1, same.2.2.2, next, if_pos active,
    if_pos active, frameOf_eq inside more, here]
  rfl

end Frames

section Tick

variable {s : Sys}

theorem remaining_whileDo {b : Bus} (fuel : ℕ) {a : AudioInterface} (inside : Cursor a) :
    (passes due (tickFrame b) fuel a).map (frameOf b) ++
        remaining b (whileDo due (tickFrame b) fuel a) = remaining b a ∧
      Cursor (whileDo due (tickFrame b) fuel a) := by
  induction fuel generalizing a with
  | zero => exact ⟨rfl, inside⟩
  | succ fuel ih =>
    rw [passes, whileDo]
    by_cases more : due a = true
    · rw [if_pos more, if_pos more]
      simp only [due, Bool.and_eq_true, decide_eq_true_eq] at more
      have enough : 4 ≤ a.bytesRemaining.toNat := more.2
      obtain ⟨played, later⟩ := ih (cursor_tickFrame (b := b) inside enough)
      rw [List.map_cons, List.cons_append, played, remaining_tickFrame inside more.1.1 enough]
      exact ⟨rfl, later⟩
    · rw [if_neg more, if_neg more]
      exact ⟨rfl, inside⟩

theorem tick_asleep {cpuCycles : Cycles} (h : asleep s.ai) : tick s cpuCycles = s := by
  rw [tick]
  exact if_pos h

theorem tick_awake {cpuCycles : Cycles} (h : ¬ asleep s.ai) :
    tick s cpuCycles =
      if (ticked s cpuCycles).dmaActive ∧ (ticked s cpuCycles).bytesRemaining < 4 then
        finishCurrentDma { s with ai := { ticked s cpuCycles with bytesRemaining := 0 } }
      else { s with ai := ticked s cpuCycles } := by
  rw [tick]
  exact (if_neg h).trans rfl

theorem ticked_same (cpuCycles : Cycles) :
    (ticked s cpuCycles).dmaActive = s.ai.dmaActive ∧
      (ticked s cpuCycles).dmaQueued = s.ai.dmaQueued ∧
      (ticked s cpuCycles).queued = s.ai.queued ∧
      (ticked s cpuCycles).regs Status = s.ai.regs Status := by
  refine whileDo_preserves
    (fun (a : AudioInterface) => a.dmaActive = s.ai.dmaActive ∧ a.dmaQueued = s.ai.dmaQueued ∧
    a.queued = s.ai.queued ∧ a.regs Status = s.ai.regs Status) _ ⟨rfl, rfl, rfl, rfl⟩ ?_
  intro a _ same
  rw [tickFrame, pushFrame_same]
  exact same

theorem updateStatusBits_status (a : AudioInterface) :
    (updateStatusBits a).regs Status = status a.dmaQueued a.dmaActive := by
  rw [updateStatusBits, status, setReg]
  dsimp only
  rw [Function.update_self]
  cases a.dmaQueued <;> cases a.dmaActive <;> rfl

theorem beginDma_begins (b : Bus) (a : AudioInterface) {job : DmaJob} (latched : Latched job)
    (empty : a.dmaQueued = false) :
    Playing (beginDma a job) ∧ remaining b (beginDma a job) = playback b job := by
  refine ⟨⟨?_, fun queued => ?_, fun _ => ⟨⟨latched, latched.frames, rfl, le_rfl⟩, latched.long⟩⟩,
    ?_⟩
  · exact updateStatusBits_status (setReg { a with
      current := job
      dmaActive := true
      bytesRemaining := job.length
      readCursor := job.dramAddr } Len job.length)
  · exact absurd (empty.symm.trans queued) (by decide)
  · simp [remaining, beginDma, setCyclesPerFrame, updateStatusBits, setReg, empty]

def stopped (a : AudioInterface) : AudioInterface :=
  let a := { a with dmaActive := false, bytesRemaining := 0 }
  let a := setReg a Len 0
  updateStatusBits { a with dmasCompleted := a.dmasCompleted + 1 }

theorem finishCurrentDma_ai (s : Sys) : (finishCurrentDma s).ai =
    if s.ai.dmaQueued then
      beginDma { stopped s.ai with dmaQueued := false, queued := {} } s.ai.queued
    else updateStatusBits (stopped s.ai) := by
  rw [finishCurrentDma]
  by_cases queued : s.ai.dmaQueued = true
  · exact (congrArg Sys.ai (if_pos queued)).trans (if_pos queued).symm
  · exact (congrArg Sys.ai (if_neg queued)).trans (if_neg queued).symm

/-- The end of the active buffer starts the queued one, if there is one. -/
theorem finishCurrentDma_starts (b : Bus)
    (queue : s.ai.dmaQueued = true → Latched s.ai.queued) :
    Playing (finishCurrentDma s).ai ∧
      remaining b (finishCurrentDma s).ai =
        if s.ai.dmaQueued then playback b s.ai.queued else [] := by
  rw [finishCurrentDma_ai]
  by_cases queued : s.ai.dmaQueued = true
  · rw [if_pos queued, if_pos queued]
    exact beginDma_begins b _ (queue queued) rfl
  · rw [if_neg queued, if_neg queued]
    rw [Bool.not_eq_true] at queued
    have flags : (updateStatusBits (stopped s.ai)).dmaActive = false ∧
        (updateStatusBits (stopped s.ai)).dmaQueued = false := ⟨rfl, queued⟩
    refine ⟨⟨?_, ?_, ?_⟩, ?_⟩
    · exact updateStatusBits_status _
    · simp [flags.2]
    · simp [flags.1]
    · simp [remaining, flags]

theorem plays_tick (cpuCycles : Cycles) (playing : Playing s.ai) :
    Playing (tick s cpuCycles).ai ∧
      plays (.tick cpuCycles) s ++ remaining s.bus (tick s cpuCycles).ai =
        remaining s.bus s.ai := by
  rw [plays]
  by_cases sleeps : asleep s.ai
  · rw [tick_asleep sleeps, if_pos sleeps]
    exact ⟨playing, rfl⟩
  · rw [tick_awake sleeps, if_neg sleeps]
    have active : s.ai.dmaActive = true := by
      simp only [asleep] at sleeps
      grind
    obtain ⟨sameActive, sameQueued, sameJob, sameStatus⟩ := ticked_same (s := s) cpuCycles
    obtain ⟨inside, more⟩ := playing.active active
    have start : Cursor (credited s cpuCycles) :=
      ⟨inside.latched, inside.frames, inside.cursor, inside.le⟩
    have credit : remaining s.bus (credited s cpuCycles) = remaining s.bus s.ai := rfl
    obtain ⟨played, stopped⟩ :=
      remaining_whileDo (b := s.bus) s.ai.bytesRemaining.toNat start
    have queue : (ticked s cpuCycles).dmaQueued = true → Latched (ticked s cpuCycles).queued := by
      rw [sameQueued, sameJob]
      exact fun queued => (playing.queue queued).2
    rw [← credit, ← played, List.append_assoc]
    change _ ∧ _ = _ ++ remaining s.bus (ticked s cpuCycles)
    change Cursor (ticked s cpuCycles) at stopped
    by_cases finished : (ticked s cpuCycles).dmaActive ∧ (ticked s cpuCycles).bytesRemaining < 4
    · rw [if_pos finished, if_pos finished]
      obtain ⟨next, starts⟩ := @finishCurrentDma_starts
        { s with ai := { ticked s cpuCycles with bytesRemaining := 0 } } s.bus queue
      refine ⟨next, ?_⟩
      have nothing : (ticked s cpuCycles).bytesRemaining.toNat = 0 := by
        have less : (ticked s cpuCycles).bytesRemaining.toNat < 4 := finished.2
        have := stopped.frames
        omega
      rw [starts, remaining, if_pos finished.1, nothing, Nat.sub_zero, playback_end]
    · rw [if_neg finished, if_neg finished]
      refine ⟨⟨?_, ?_, fun stillActive => ⟨stopped, ?_⟩⟩, rfl⟩
      · rw [sameStatus, sameActive, sameQueued, playing.status]
      · rw [sameActive, sameQueued, sameJob]
        exact playing.queue
      · have := mt (And.intro stillActive) finished
        rw [BitVec.not_lt, BitVec.le_def] at this
        exact this

end Tick

section Write

variable {s : Sys}

theorem setReg_self (a : AudioInterface) (i : ℕ) (v : U32) : (setReg a i v).regs i = v := by
  simp [setReg]

theorem setReg_other (a : AudioInterface) {i j : ℕ} (v : U32) (other : i ≠ j) :
    (setReg a j v).regs i = a.regs i := by
  simp [setReg, other]

theorem Playing.unmoved {a c : AudioInterface} (playing : Playing a) (b : Bus)
    (status : c.regs Status = a.regs Status) (active : c.dmaActive = a.dmaActive)
    (queued : c.dmaQueued = a.dmaQueued) (jobs : c.current = a.current ∧ c.queued = a.queued)
    (cursor : c.readCursor = a.readCursor) (left : c.bytesRemaining = a.bytesRemaining) :
    Playing c ∧ remaining b c = remaining b a := by
  obtain ⟨current, queuedJob⟩ := jobs
  refine ⟨⟨?_, ?_, ?_⟩, ?_⟩
  · rw [status, active, queued, playing.status]
  · rw [active, queued, queuedJob]
    exact playing.queue
  · rw [active]
    intro busy
    obtain ⟨⟨latched, frames, place, le⟩, more⟩ := playing.active busy
    refine ⟨⟨?_, ?_, ?_, ?_⟩, ?_⟩
    · rwa [current]
    · rwa [left]
    · rwa [left, cursor, current]
    · rwa [left, current]
    · rwa [left]
  · rw [remaining, remaining, active, queued, current, queuedJob, left]

theorem latched_write (s : Sys) {value : U32} (nonzero : value &&& 0x0003FFF8 ≠ 0) :
    Latched { dramAddr := s.ai.regs DramAddr &&& 0x00FFFFF8, length := value &&& 0x0003FFF8 } := by
  have low : (value &&& 0x0003FFF8) &&& 7 = 0 := by
    rw [BitVec.and_assoc]
    exact BitVec.and_zero
  have frames : (value &&& 0x0003FFF8).toNat % 2 ^ 3 = 0 := by
    rw [← Nat.and_two_pow_sub_one_eq_mod]
    exact congrArg BitVec.toNat low
  have positive : (value &&& 0x0003FFF8).toNat ≠ 0 := by
    intro zero
    exact nonzero (BitVec.eq_of_toNat_eq zero)
  refine ⟨?_, ?_, ?_, ?_⟩
  · exact (Nat.and_le_right.trans_lt (by decide : (0x00FFFFF8 : U32).toNat < 2 ^ 24))
  · exact (Nat.and_le_right.trans_lt (by decide : (0x0003FFF8 : U32).toNat < 2 ^ 18))
  · dsimp only
    omega
  · dsimp only
    omega

theorem alignLen_masked (value : U32) : alignLen (value &&& 0x0003FFF8) = value &&& 0x0003FFF8 := by
  rw [alignLen, BitVec.and_assoc]
  rfl

theorem startOrQueueDma_appends (value : U32) (playing : Playing s.ai) :
    Playing (startOrQueueDma (setReg s.ai Len (value &&& 0x0003FFF8)) (value &&& 0x0003FFF8)) ∧
      remaining s.bus
          (startOrQueueDma (setReg s.ai Len (value &&& 0x0003FFF8)) (value &&& 0x0003FFF8)) =
        remaining s.bus s.ai ++ (accepts (.write 0x04 value) s).flatMap (playback s.bus) := by
  have unmoved := playing.unmoved (c := setReg s.ai Len (value &&& 0x0003FFF8)) s.bus
    (setReg_other _ _ (by decide)) rfl rfl ⟨rfl, rfl⟩ rfl rfl
  rw [startOrQueueDma, alignLen_masked, accepts]
  by_cases nothing : value &&& 0x0003FFF8 = 0
  · rw [if_pos nothing, if_neg (fun h => h.2.1 nothing)]
    simpa using unmoved
  · rw [if_neg nothing]
    have latched := latched_write s nothing
    have addr : (setReg s.ai Len (value &&& 0x0003FFF8)).regs DramAddr = s.ai.regs DramAddr :=
      setReg_other _ _ (by decide)
    dsimp only
    rw [addr]
    by_cases active : s.ai.dmaActive = true
    · rw [if_neg (by simp [setReg, active])]
      by_cases queued : s.ai.dmaQueued = true
      · -- the third buffer is refused
        rw [if_neg (by simp [setReg, queued]), if_neg (fun h => h.2.2 ⟨active, queued⟩)]
        simpa using unmoved
      · rw [if_pos (by simpa [setReg] using queued), if_pos ⟨rfl, nothing, fun h => queued h.2⟩]
        obtain ⟨inside, more⟩ := playing.active active
        refine ⟨⟨?_, fun _ => ⟨active, latched⟩, fun _ => ⟨?_, more⟩⟩, ?_⟩
        · exact updateStatusBits_status _
        · exact ⟨inside.latched, inside.frames, inside.cursor, inside.le⟩
        · simp [remaining, updateStatusBits, setReg, active, queued]
    · rw [if_pos (by simpa [setReg] using active), if_pos ⟨rfl, nothing, fun h => active h.1⟩]
      have empty : s.ai.dmaQueued = false := by
        rw [← Bool.not_eq_true]
        exact fun queued => active (playing.queue queued).1
      obtain ⟨begun, left⟩ := beginDma_begins s.bus (setReg s.ai Len (value &&& 0x0003FFF8))
        latched empty
      refine ⟨begun, left.trans ?_⟩
      simp [remaining, active, empty]

theorem plays_write (offset value : U32) (playing : Playing s.ai) :
    Playing (write s offset value).ai ∧
      remaining s.bus (write s offset value).ai =
        remaining s.bus s.ai ++ (accepts (.write offset value) s).flatMap (playback s.bus) := by
  by_cases length : offset &&& 0x1C = 0x04
  · have same : accepts (.write offset value) s = accepts (.write 0x04 value) s := by
      rw [accepts, accepts, length]
      rfl
    have written : (write s offset value).ai =
        startOrQueueDma (setReg s.ai Len (value &&& 0x0003FFF8)) (value &&& 0x0003FFF8) := by
      rw [write, length]
      exact congrArg (startOrQueueDma _) (setReg_self ..)
    rw [same, written]
    exact startOrQueueDma_appends value playing
  · rw [accepts, if_neg (fun h => length h.1), List.flatMap_nil, List.append_nil]
    rw [write]
    split
    · exact ⟨playing, rfl⟩
    · exact playing.unmoved s.bus (setReg_other _ _ (by decide)) rfl rfl ⟨rfl, rfl⟩ rfl rfl
    · exact playing.unmoved s.bus (@setReg_other s.ai Status Control (value &&& 0x1) (by decide))
        rfl rfl ⟨rfl, rfl⟩ rfl rfl
    · exact playing.unmoved s.bus (@setReg_other s.ai Status DacRate (value &&& 0x3FFF) (by decide))
        rfl rfl ⟨rfl, rfl⟩ rfl rfl
    · exact playing.unmoved s.bus (setReg_other _ _ (by decide)) rfl rfl ⟨rfl, rfl⟩ rfl rfl
    · rename_i four
      exact absurd (BitVec.eq_of_toNat_eq four) length
    · exact ⟨playing, rfl⟩

end Write

section Sound

variable {s : Sys} {a c : AudioInterface}

theorem sound_heard (same : sound a = sound c) (o : Output) :
    sound (heard a o) = sound (heard c o) := by
  simp only [sound, Prod.mk.injEq] at same
  obtain ⟨ring, ringR, ringW, pushed, dropped, completed⟩ := same
  cases o with
  | completion => simp only [sound, heard, ring, ringR, ringW, pushed, dropped, completed]
  | frame left right =>
    simp only [heard, pushFrame, ring, ringR, ringW, pushed, dropped]
    by_cases full : c.ringW - c.ringR ≥ kRingFrames
    · simp only [if_pos full, sound, completed]
    · simp only [if_neg full, sound, completed]

theorem sound_foldl (same : sound a = sound c) (os : List Output) :
    sound (os.foldl heard a) = sound (os.foldl heard c) := by
  induction os generalizing a c with
  | nil => exact same
  | cons o os ih => exact ih (sound_heard same o)

theorem sound_tickFrame (b : Bus) (a : AudioInterface) :
    sound (tickFrame b a) = sound (heard a (frameOf b a)) := by
  have quiet : sound { a with cycleAccum := a.cycleAccum - a.cyclesPerFrame } = sound a := rfl
  exact sound_heard quiet (frameOf b a)

theorem sound_whileDo (b : Bus) (fuel : ℕ) (a : AudioInterface) :
    sound (whileDo due (tickFrame b) fuel a) =
      sound (((passes due (tickFrame b) fuel a).map (frameOf b)).foldl heard a) := by
  induction fuel generalizing a with
  | zero => rfl
  | succ fuel ih =>
    rw [whileDo, passes]
    by_cases more : due a = true
    · rw [if_pos more, if_pos more, ih, List.map_cons, List.foldl_cons]
      exact sound_foldl (sound_tickFrame b a) _
    · rw [if_neg more, if_neg more]
      rfl

theorem sound_finish (s : Sys) :
    sound (finishCurrentDma s).ai = sound (heard s.ai .completion) := by
  rw [finishCurrentDma_ai]
  split_ifs <;> rfl

theorem sound_perform (act : Act) (s : Sys) :
    sound (act.perform s).ai = sound ((plays act s).foldl heard s.ai) := by
  cases act with
  | write offset value =>
    have queued : ∀ (a : AudioInterface) v, sound (startOrQueueDma a v) = sound a := by
      intro a v
      rw [startOrQueueDma]
      dsimp only
      split_ifs <;> rfl
    rw [Act.perform, plays, write]
    split
    case h_6 => exact queued ..
    all_goals rfl
  | tick cpuCycles =>
    rw [Act.perform, plays]
    by_cases sleeps : asleep s.ai
    · rw [tick_asleep sleeps, if_pos sleeps]
      rfl
    · have credit : sound (credited s cpuCycles) = sound s.ai := rfl
      have looped := (sound_whileDo s.bus s.ai.bytesRemaining.toNat (credited s cpuCycles)).trans
        (sound_foldl credit _)
      rw [tick_awake sleeps, if_neg sleeps, List.foldl_append]
      by_cases finished : (ticked s cpuCycles).dmaActive ∧ (ticked s cpuCycles).bytesRemaining < 4
      · rw [if_pos finished, if_pos finished, sound_finish]
        exact sound_heard looped .completion
      · rw [if_neg finished, if_neg finished]
        exact looped

def framesOf (os : List Output) : List (U16 × U16) :=
  os.filterMap fun
    | .frame left right => some (left, right)
    | .completion => none

/-- What outputs leave in an empty ring nobody reads: the first 8192 frames in
order, the rest counted as dropped, and the count of the completions. -/
structure Heard (a : AudioInterface) (os : List Output) : Prop where
  unread : a.ringR = 0
  pushed : a.samplesPushed = BitVec.ofNat 64 (framesOf os).length
  written : a.ringW = BitVec.ofNat 64 (min (framesOf os).length 8192)
  dropped : a.framesDropped = BitVec.ofNat 64 ((framesOf os).length - 8192)
  completed : a.dmasCompleted = BitVec.ofNat 64 (os.count Output.completion)
  slots : ∀ j < 8192, ∀ f, (framesOf os)[j]? = some f →
    a.ring (j * 2) = f.1 ∧ a.ring (j * 2 + 1) = f.2

theorem Heard.of_sound {os : List Output} (h : Heard a os) (same : sound c = sound a) :
    Heard c os := by
  simp only [sound, Prod.mk.injEq] at same
  obtain ⟨ring, ringR, ringW, pushed, dropped, completed⟩ := same
  refine ⟨ringR.trans h.unread, pushed.trans h.pushed, ringW.trans h.written,
    dropped.trans h.dropped, completed.trans h.completed, ?_⟩
  rw [ring]
  exact h.slots

theorem heard_reset (a : AudioInterface) : Heard (reset a) [] :=
  ⟨rfl, rfl, rfl, rfl, rfl, fun _ _ _ here => nomatch here⟩

theorem framesOf_concat (os : List Output) (left right : U16) :
    framesOf (os ++ [.frame left right]) = framesOf os ++ [(left, right)] := by
  simp [framesOf]

theorem count_concat (os : List Output) (left right : U16) :
    (os ++ [Output.frame left right]).count Output.completion = os.count Output.completion := by
  rw [List.count_append, List.count_cons_of_ne (by simp)]
  rfl

section Push

variable {os : List Output} (h : Heard a os)

include h

theorem Heard.waiting : (a.ringW - a.ringR).toNat = min (framesOf os).length 8192 := by
  have nothing : a.ringW - a.ringR = a.ringW := by
    rw [h.unread]
    exact BitVec.sub_zero _
  rw [nothing, h.written, BitVec.toNat_ofNat]
  omega

theorem Heard.drops (full : 8192 ≤ (framesOf os).length) (left right : U16) :
    Heard (pushFrame a left right) (os ++ [.frame left right]) := by
  have waiting := h.waiting
  have crowded : a.ringW - a.ringR ≥ kRingFrames := by
    rw [ge_iff_le, BitVec.le_def, waiting, Nat.min_eq_right full]
    exact le_rfl
  have more : (framesOf (os ++ [.frame left right])).length = (framesOf os).length + 1 := by
    rw [framesOf_concat, List.length_append]
    rfl
  have next : (framesOf os).length + 1 - 8192 = (framesOf os).length - 8192 + 1 := by omega
  rw [pushFrame]
  dsimp only
  rw [if_pos crowded]
  refine ⟨h.unread, ?_, ?_, ?_, ?_, fun j small f here => ?_⟩
  · rw [more, BitVec.ofNat_add, ← h.pushed]
    rfl
  · rw [more, h.written, Nat.min_eq_right full, Nat.min_eq_right (by omega)]
  · rw [more, next, BitVec.ofNat_add, ← h.dropped]
    rfl
  · rw [count_concat]
    exact h.completed
  · rw [framesOf_concat, List.getElem?_append_left (by omega)] at here
    exact h.slots j small f here

theorem Heard.takes (room : (framesOf os).length < 8192) (left right : U16) :
    Heard (pushFrame a left right) (os ++ [.frame left right]) := by
  have waiting := h.waiting
  rw [Nat.min_eq_left room.le] at waiting
  have under : ¬ a.ringW - a.ringR ≥ kRingFrames := by
    rw [ge_iff_le, BitVec.le_def, waiting]
    exact Nat.not_le_of_lt room
  have more : (framesOf (os ++ [.frame left right])).length = (framesOf os).length + 1 := by
    rw [framesOf_concat, List.length_append]
    rfl
  have index : a.ringW = BitVec.ofNat 64 (framesOf os).length := by
    rw [h.written, Nat.min_eq_left room.le]
  have place : (a.ringW &&& kRingMask).toNat * 2 = (framesOf os).length * 2 := by
    have low := BitVec.toNat_and a.ringW kRingMask
    have mask : kRingMask.toNat = 2 ^ 13 - 1 := rfl
    rw [low, mask, Nat.and_two_pow_sub_one_eq_mod, index, BitVec.toNat_ofNat]
    omega
  rw [pushFrame]
  dsimp only
  rw [if_neg under, place]
  refine ⟨h.unread, ?_, ?_, ?_, ?_, fun j small f here => ?_⟩
  · rw [more, BitVec.ofNat_add, ← h.pushed]
    rfl
  · rw [more, Nat.min_eq_left (by omega), BitVec.ofNat_add, ← index]
    rfl
  · have earlier := h.dropped
    rw [Nat.sub_eq_zero_of_le room.le] at earlier
    rw [more, Nat.sub_eq_zero_of_le (by omega)]
    exact earlier
  · rw [count_concat]
    exact h.completed
  · rw [framesOf_concat] at here
    dsimp only
    rcases Nat.lt_or_ge j (framesOf os).length with before | after
    · rw [List.getElem?_append_left before] at here
      obtain ⟨leftSlot, rightSlot⟩ := h.slots j small f here
      refine ⟨?_, ?_⟩
      · rw [Function.update_of_ne (by omega), Function.update_of_ne (by omega), leftSlot]
      · rw [Function.update_of_ne (by omega), Function.update_of_ne (by omega), rightSlot]
    · rw [List.getElem?_append_right after, List.getElem?_singleton] at here
      obtain ⟨last, same⟩ := Option.ite_none_right_eq_some.mp here
      obtain rfl : j = (framesOf os).length := by omega
      obtain rfl : (left, right) = f := Option.some.inj same
      refine ⟨?_, Function.update_self ..⟩
      rw [Function.update_of_ne (by omega), Function.update_self]

theorem Heard.concat (o : Output) : Heard (heard a o) (os ++ [o]) := by
  cases o with
  | frame left right =>
    rcases Nat.lt_or_ge (framesOf os).length 8192 with room | full
    · exact h.takes room left right
    · exact h.drops full left right
  | completion =>
    have same : framesOf (os ++ [.completion]) = framesOf os := by simp [framesOf]
    obtain ⟨unread, pushed, written, dropped, completed, slots⟩ := h
    rw [← same] at pushed written dropped slots
    refine ⟨unread, pushed, written, dropped, ?_, slots⟩
    show a.dmasCompleted + 1 = _
    rw [completed, List.count_append, BitVec.ofNat_add]
    rfl

end Push

theorem heard_foldl (a : AudioInterface) (os : List Output) :
    Heard (os.foldl heard (reset a)) os := by
  induction os using List.reverseRecOn with
  | nil => exact heard_reset a
  | append_singleton os o ih =>
    rw [List.foldl_append]
    exact ih.concat o

theorem tick_interrupt (s : Sys) (cpuCycles : Cycles) :
    (tick s cpuCycles).bus.mi =
      if .completion ∈ plays (.tick cpuCycles) s then
        { s.bus.mi with intr := s.bus.mi.intr ||| MiIntr.AI }
      else s.bus.mi := by
  have quiet : ∀ as : List AudioInterface, Output.completion ∉ as.map (frameOf s.bus) := by
    intro as member
    obtain ⟨a, -, same⟩ := List.mem_map.mp member
    exact Output.noConfusion same
  rw [plays]
  by_cases sleeps : asleep s.ai
  · rw [tick_asleep sleeps, if_pos sleeps, if_neg (by simp)]
  · rw [tick_awake sleeps, if_neg sleeps]
    by_cases finished : (ticked s cpuCycles).dmaActive ∧ (ticked s cpuCycles).bytesRemaining < 4
    · rw [if_pos finished, if_pos finished, if_pos (by simp), finishCurrentDma]
      split_ifs <;> rfl
    · rw [if_neg finished, if_neg finished, if_neg (by simpa using quiet _)]

end Sound

section Run

theorem bus_perform (act : Act) (s : Sys) :
    (act.perform s).bus = { s.bus with mi := (act.perform s).bus.mi } := by
  cases act with
  | write offset value =>
    rw [Act.perform, write]
    split <;> rfl
  | tick cpuCycles =>
    rw [Act.perform]
    by_cases sleeps : asleep s.ai
    · rw [tick_asleep sleeps]
    · rw [tick_awake sleeps]
      split_ifs
      · rw [finishCurrentDma]
        split_ifs <;> rfl
      · rfl

/-- A step plays the front of what is left and appends what it accepts. -/
theorem plays_perform (act : Act) (s : Sys) (playing : Playing s.ai) :
    Playing (act.perform s).ai ∧
      plays act s ++ remaining s.bus (act.perform s).ai =
        remaining s.bus s.ai ++ (accepts act s).flatMap (playback s.bus) := by
  cases act with
  | write offset value => exact plays_write offset value playing
  | tick cpuCycles =>
    obtain ⟨next, played⟩ := plays_tick cpuCycles playing
    refine ⟨next, ?_⟩
    rw [accepts, List.flatMap_nil, List.append_nil]
    exact played

theorem playing_reset (a : AudioInterface) (b : Bus) :
    Playing (reset a) ∧ remaining b (reset a) = [] :=
  ⟨⟨by simp [reset, setReg, Status, DacRate, BitRate, status], by simp [reset, setReg],
    by simp [reset, setReg]⟩, rfl⟩

/-- After any writes and ticks from a reset. -/
structure Played (s : Sys) (acts : List Act) (t : Sys) : Prop where
  playing : Playing t.ai
  bus : t.bus = { s.bus with mi := t.bus.mi }
  conserved : trace Act.perform plays acts s ++ remaining s.bus t.ai =
    (trace Act.perform accepts acts s).flatMap (playback s.bus)
  sound : sound t.ai = sound ((trace Act.perform plays acts s).foldl heard s.ai)

theorem played_run (s : Sys) (fresh : s.ai = reset s.ai) (acts : List Act) :
    Played s acts (run Act.perform acts s) := by
  refine run_history ?_ (fun acts act before => ?_) acts
  · obtain ⟨playing, nothing⟩ := playing_reset s.ai s.bus
    rw [← fresh] at playing nothing
    exact ⟨playing, rfl, nothing, rfl⟩
  · generalize reached : run Act.perform acts s = t at before ⊢
    obtain ⟨playing, bus, conserved, sounded⟩ := before
    obtain ⟨next, played⟩ := plays_perform act t playing
    have memory : ∀ a, remaining t.bus a = remaining s.bus a := by
      intro a
      rw [bus]
      rfl
    have outputs : playback t.bus = playback s.bus := by
      rw [bus]
      rfl
    rw [memory, memory, outputs] at played
    refine ⟨next, ?_, ?_, ?_⟩
    · rw [bus_perform, bus]
    · rw [trace_concat, trace_concat, reached, List.append_assoc, played, ← List.append_assoc,
        conserved, List.flatMap_append]
    · rw [trace_concat, reached, List.foldl_append, sound_perform]
      exact sound_foldl sounded _

theorem status_bits (queued active : Bool) :
    (status queued active &&& StatusFull ≠ 0 ↔ queued = true) ∧
      (status queued active &&& StatusBusy ≠ 0 ↔ active = true) := by
  cases queued <;> cases active <;> decide

/-- After any writes and ticks from a reset: what has been played and what is
left are the accepted buffers in order, the ring holds the frames played in
their order while it has room and the counters count them, a tick raises the
interrupt exactly with a completion, and the flags, the lengths and the status
agree. -/
theorem buffers_play_in_order (start : Sys) (acts : List Act) :
    let s := { start with ai := reset start.ai }
    let t := run Act.perform acts s
    let played := trace Act.perform plays acts s
    played ++ remaining s.bus t.ai =
        (trace Act.perform accepts acts s).flatMap (playback s.bus) ∧
      Heard t.ai played ∧
      (∀ cpuCycles, (tick t cpuCycles).bus.mi =
        if .completion ∈ plays (.tick cpuCycles) t then
          { t.bus.mi with intr := t.bus.mi.intr ||| MiIntr.AI }
        else t.bus.mi) ∧
      (t.ai.dmaQueued = true → t.ai.dmaActive = true) ∧
      (t.ai.dmaActive = true →
        4 ≤ t.ai.bytesRemaining.toNat ∧ t.ai.bytesRemaining.toNat % 4 = 0) ∧
      (read t.ai 0x0C &&& StatusFull ≠ 0 ↔ t.ai.dmaQueued = true) ∧
      (read t.ai 0x0C &&& StatusBusy ≠ 0 ↔ t.ai.dmaActive = true) := by
  intro s t played
  obtain ⟨playing, -, conserved, sounded⟩ : Played s acts t := played_run s rfl acts
  have register : read t.ai 0x0C = status t.ai.dmaQueued t.ai.dmaActive := playing.status
  rw [register]
  refine ⟨conserved, (heard_foldl start.ai played).of_sound sounded, tick_interrupt t,
    fun queued => (playing.queue queued).1, fun active => ?_, status_bits ..⟩
  obtain ⟨inside, more⟩ := playing.active active
  exact ⟨more, inside.frames⟩

end Run

end N64.Ai
