import N64Emu.ScanLines
import N64Emu.Rounds
import N64Emu.LowMasks

/-!
# Vertical interrupts

Every line a tick makes may wrap the frame and may raise the interrupt. While
V_SYNC and V_INTR stay as they are, one interrupt comes between two wraps,
whenever the last one was acknowledged.
-/

set_option autoImplicit false

namespace N64

open Words Loops Rounds

namespace Vi

/-- The line the beam is on; the frame's last line and the line V_INTR names. -/
def number (v : VideoInterface) : ℕ := (vCurrent v).toNat

def lastLine (v : VideoInterface) : ℕ := (v.linesPerFrame &&& 0x3FE).toNat

def intrLine (v : VideoInterface) : U32 := vIntr v &&& 0x3FE

theorem toNat_and_even (x : U32) : (x &&& 0x3FE).toNat = x.toNat % 1024 / 2 * 2 :=
  LowMasks.toNat_and_field (n := 1) x (show 10 ≤ 32 by decide)

theorem number_lt (v : VideoInterface) : number v < 1024 := by
  have masked : number v = (v.regs VCurrent).toNat % 1024 :=
    LowMasks.toNat_and_low (v.regs VCurrent) (show 10 ≤ 32 by decide)
  omega

theorem lastLine_lt (v : VideoInterface) : lastLine v < 1024 := by
  rw [lastLine, toNat_and_even]
  omega

theorem bumped_toNat (v : VideoInterface) : (bumped v).toNat = (number v + 2) % 1024 / 2 * 2 := by
  have small := number_lt v
  have sum : (vCurrent v + 2).toNat = number v + 2 := by
    rw [BitVec.toNat_add]
    exact Nat.mod_eq_of_lt (show number v + 2 < 2 ^ 32 by omega)
  rw [bumped, toNat_and_even, sum]

theorem bumped_eq_zero_iff (v : VideoInterface) : bumped v = 0 ↔ (bumped v).toNat = 0 := by
  rw [← BitVec.toNat_inj]
  exact Iff.rfl

theorem wraps_iff {v : VideoInterface} (even : number v % 2 = 0) :
    Wraps v ↔ lastLine v < number v + 2 := by
  have small := number_lt v
  have last := lastLine_lt v
  rw [Wraps, ← lastLine, bumped_eq_zero_iff, bumped_toNat]
  omega

theorem nextNumber_of_wraps {v : VideoInterface} (wraps : Wraps v) : nextNumber v = 0 :=
  if_pos wraps

theorem nextNumber_toNat {v : VideoInterface} (even : number v % 2 = 0) (stays : ¬ Wraps v) :
    (nextNumber v).toNat = number v + 2 := by
  have small := number_lt v
  have last := lastLine_lt v
  have inside := (wraps_iff even).not.mp stays
  rw [nextNumber, if_neg stays, bumped_toNat]
  omega

theorem number_tickLine (s : Sys) : number (tickLine s).vi = (nextNumber s.vi).toNat := by
  have masked : nextNumber s.vi &&& 0x3FF = nextNumber s.vi := by
    rw [← nextNumber_masked, BitVec.and_assoc]
    rfl
  have moved : number (advanced s.vi) = (nextNumber s.vi).toNat := by
    have placed : (advanced s.vi).regs VCurrent = nextNumber s.vi := by simp [advanced]
    rw [number, vCurrent, placed, masked]
  rw [tickLine_eq]
  split <;> exact moved

theorem tickLine_registers (s : Sys) :
    lastLine (tickLine s).vi = lastLine s.vi ∧ intrLine (tickLine s).vi = intrLine s.vi := by
  rw [tickLine_eq]
  split <;> exact ⟨rfl, rfl⟩

theorem tickLine_interruptLine (s : Sys) (quiet : ¬ Matches s.vi) :
    (tickLine s).vi.interruptLine = latched s.vi := by
  rw [tickLine_eq, if_neg quiet]
  rfl

/-- What a line tells the outside. -/
inductive Signal where
  | wrap
  | interrupt (line : U32)
  deriving DecidableEq

/-- A line counts a frame where it wraps, and raises the interrupt where it
matches. -/
def lineSignals (s : Sys) : List Signal :=
  (if Wraps s.vi then [.wrap] else []) ++
    if Matches s.vi then [.interrupt (nextNumber s.vi)] else []

def tickSignals (s : Sys) (n : Cycles) : List Signal :=
  if n = 0 ∨ s.vi.cyclesPerLine = 0 then []
  else
    (passes lineDue tickLine (credit s n)
      (withAccum s (s.vi.cycleAccum + n))).flatMap lineSignals

def signals : Act → Sys → List Signal
  | .write _ _, _ => []
  | .tick n, s => tickSignals s n
  | .raiseInterrupt, s => [.interrupt (vCurrent s.vi)]
  | .clearFrameReady, _ => []

/-- Ticks, acknowledge writes and the writes that leave V_SYNC and V_INTR alone. -/
def Act.KeepsFrame : Act → Prop
  | .write offset _ => regIndex offset ≠ VSync ∧ regIndex offset ≠ VIntr
  | .tick _ => True
  | .raiseInterrupt => False
  | .clearFrameReady => True

/-- Where the frame stands once `round` has come since its wrap. -/
structure Position (x : U32) (round : List Signal) (v : VideoInterface) : Prop where
  even : number v % 2 = 0
  waiting : number v < x.toNat → round = [] ∧ v.interruptLine = false
  raised : x.toNat ≤ number v → round = [.interrupt x]

structure Counted (x : U32) (last : ℕ) (out : List Signal) (s : Sys) : Prop where
  target : intrLine s.vi = x
  bound : lastLine s.vi = last
  rounds : Each .wrap (· = [.interrupt x]) out
  current : ∀ round, Open .wrap out round → Position x round s.vi

theorem lineSignals_wrap {s : Sys} (target : intrLine s.vi ≠ 0) (wraps : Wraps s.vi) :
    lineSignals s = [.wrap] ∧ ¬ Matches s.vi := by
  have unmatched : ¬ Matches s.vi := by
    rintro ⟨-, -, same⟩
    rw [nextNumber_of_wraps wraps] at same
    exact target same.symm
  exact ⟨by rw [lineSignals, if_pos wraps, if_neg unmatched, List.append_nil], unmatched⟩

section Lines

variable {x : U32} {last : ℕ} {out : List Signal} {s : Sys} (above : 2 ≤ x.toNat)
  (below : x.toNat ≤ last) (h : Counted x last out s)

include h

theorem Counted.tickLine_registers :
    intrLine (tickLine s).vi = x ∧ lastLine (tickLine s).vi = last :=
  ⟨(Vi.tickLine_registers s).2.trans h.target, (Vi.tickLine_registers s).1.trans h.bound⟩

theorem Counted.even_target : x.toNat % 2 = 0 := by
  rw [← h.target, intrLine, toNat_and_even]
  omega

theorem Counted.next_number (stays : ¬ Wraps s.vi) {round : List Signal}
    (opened : Open .wrap out round) : number (tickLine s).vi = number s.vi + 2 :=
  (number_tickLine s).trans (nextNumber_toNat (h.current round opened).even stays)

include above in
theorem Counted.target_ne_zero : intrLine s.vi ≠ 0 := by
  intro zero
  rw [← h.target, zero] at above
  exact absurd above (by decide)

include above below in
/-- A wrap closes a round that has had its interrupt and opens the next. -/
theorem Counted.wrap (wraps : Wraps s.vi) : Counted x last (out ++ lineSignals s) (tickLine s) := by
  obtain ⟨emitted, unmatched⟩ := lineSignals_wrap (h.target_ne_zero above) wraps
  have first : number (tickLine s).vi = 0 := by
    rw [number_tickLine, nextNumber_of_wraps wraps]
    rfl
  have released : (tickLine s).vi.interruptLine = false := by
    rw [tickLine_interruptLine s unmatched, latched, if_pos wraps]
  rw [emitted]
  refine ⟨h.tickLine_registers.1, h.tickLine_registers.2, ?_, ?_⟩
  · refine each_concat h.rounds fun _ round opened => ?_
    have position := h.current round opened
    have bound := h.bound
    have passed := (wraps_iff position.even).mp wraps
    have even := position.even
    have evenTarget := h.even_target
    exact position.raised (by omega)
  · intro round opened
    rw [open_mark opened]
    refine ⟨by rw [first], fun _ => ⟨rfl, released⟩, fun reached => ?_⟩
    omega

theorem Counted.matched (stays : ¬ Wraps s.vi) (matching : Matches s.vi) :
    Counted x last (out ++ lineSignals s) (tickLine s) := by
  have target := h.target
  have emitted : lineSignals s = [.interrupt x] := by
    rw [lineSignals, if_neg stays, if_pos matching, List.nil_append, matching.2.2, ← target]
    rfl
  have here : number (tickLine s).vi = x.toNat := by
    rw [number_tickLine, matching.2.2, ← target]
    rfl
  rw [emitted]
  refine ⟨h.tickLine_registers.1, h.tickLine_registers.2, ?_, ?_⟩
  · exact each_concat h.rounds fun same => Signal.noConfusion same
  · intro round opened
    obtain ⟨earlier, before, rfl⟩ := open_signal Signal.noConfusion opened
    have next := h.next_number stays before
    obtain ⟨empty, -⟩ := (h.current earlier before).waiting (by omega)
    refine ⟨by rw [here, h.even_target], fun early => ?_, fun _ => by rw [empty]; rfl⟩
    omega

include above in
/-- Any other line adds nothing, and does not step over the one V_INTR names. -/
theorem Counted.quiet (stays : ¬ Wraps s.vi) (other : ¬ Matches s.vi) :
    Counted x last (out ++ lineSignals s) (tickLine s) := by
  have emitted : lineSignals s = [] := by
    rw [lineSignals, if_neg stays, if_neg other, List.append_nil]
  have kept : (tickLine s).vi.interruptLine = s.vi.interruptLine := by
    rw [tickLine_interruptLine s other, latched, if_neg stays]
  rw [emitted, List.append_nil]
  refine ⟨h.tickLine_registers.1, h.tickLine_registers.2, h.rounds, fun round opened => ?_⟩
  have position := h.current round opened
  have next := h.next_number stays opened
  have even := position.even
  have evenTarget := h.even_target
  refine ⟨by omega, fun early => ?_, fun reached => ?_⟩
  · obtain ⟨empty, low⟩ := position.waiting (by omega)
    exact ⟨empty, kept.trans low⟩
  · refine position.raised ?_
    by_contra waiting
    -- the line would be the one V_INTR names, with the latch released
    obtain ⟨-, low⟩ := position.waiting (by omega)
    refine other ⟨by rw [latched, if_neg stays, low], h.target_ne_zero above, ?_⟩
    apply BitVec.eq_of_toNat_eq
    rw [← number_tickLine, next]
    change number s.vi + 2 = (intrLine s.vi).toNat
    rw [h.target]
    omega

include above below in
theorem Counted.line : Counted x last (out ++ lineSignals s) (tickLine s) := by
  by_cases wraps : Wraps s.vi
  · exact h.wrap above below wraps
  · by_cases matching : Matches s.vi
    · exact h.matched wraps matching
    · exact h.quiet above wraps matching

end Lines

theorem Counted.other {x : U32} {last : ℕ} {out : List Signal} {s t : Sys}
    (h : Counted x last out s)
    (target : intrLine t.vi = intrLine s.vi) (bound : lastLine t.vi = lastLine s.vi)
    (beam : number t.vi = number s.vi)
    (latch : t.vi.interruptLine = false ∨ t.vi.interruptLine = s.vi.interruptLine) :
    Counted x last out t := by
  refine ⟨target.trans h.target, bound.trans h.bound, h.rounds, fun round opened => ?_⟩
  obtain ⟨even, waiting, raised⟩ := h.current round opened
  refine ⟨by rw [beam, even], fun early => ?_, fun reached => raised (by rwa [beam] at reached)⟩
  rw [beam] at early
  obtain ⟨empty, low⟩ := waiting early
  exact ⟨empty, latch.elim id fun same => same.trans low⟩

theorem write_counted {x : U32} {last : ℕ} {out : List Signal} {s : Sys} (h : Counted x last out s)
    {offset : U32} (value : U32) (sync : regIndex offset ≠ VSync) (intr : regIndex offset ≠ VIntr) :
    Counted x last out (write s offset value) := by
  rw [write]
  split
  · exact h
  · split
    · exact h.other rfl rfl rfl (.inl rfl)
    · rename_i beam
      dsimp only
      rw [if_neg (fun both => sync both.1)]
      have others : ∀ i ≠ regIndex offset,
          Function.update s.vi.regs (regIndex offset) value i = s.vi.regs i :=
        fun i other => Function.update_of_ne other _ _
      have target := congrArg (· &&& 0x3FF &&& 0x3FE) (others VIntr (Ne.symm intr))
      have current := congrArg (fun r : U32 => (r &&& 0x3FF).toNat) (others VCurrent (Ne.symm beam))
      exact h.other target rfl current (.inr rfl)

theorem tick_counted {x : U32} {last : ℕ} (above : 2 ≤ x.toNat) (below : x.toNat ≤ last)
    {out : List Signal} {s : Sys} (h : Counted x last out s) (n : Cycles) :
    Counted x last (out ++ tickSignals s n) (tick s n) := by
  rw [tickSignals, tick]
  split
  · rw [List.append_nil]
    exact h
  · have start : Counted x last out (withAccum s (s.vi.cycleAccum + n)) :=
      h.other rfl rfl rfl (.inr rfl)
    exact whileDo_emits (fun _ _ _ counted => counted.line above below) _ start

theorem act_counted {x : U32} {last : ℕ} (above : 2 ≤ x.toNat) (below : x.toNat ≤ last) {a : Act}
    (keeps : a.KeepsFrame) {out : List Signal} {s : Sys} (h : Counted x last out s) :
    Counted x last (out ++ signals a s) (act a s) := by
  cases a with
  | write offset value =>
    rw [signals, List.append_nil]
    exact write_counted h value keeps.1 keeps.2
  | tick n => exact tick_counted above below h n
  | raiseInterrupt => exact keeps.elim
  | clearFrameReady =>
    rw [signals, List.append_nil]
    exact h.other rfl rfl rfl (.inr rfl)

/-- The VI request of the MI, the latch of the VI and its count of frames. -/
structure Told where
  intr : U32
  latch : Bool
  frames : U64
  deriving DecidableEq

def told (s : Sys) : Told := ⟨s.bus.mi.intr, s.vi.interruptLine, s.vi.frameCount⟩

/-- What a signal means: a wrap counts one frame and releases the latch, an
interrupt raises bit 3 of MI_INTR and sets the latch. -/
def Told.tell (w : Told) : Signal → Told
  | .wrap => { w with latch := false, frames := w.frames + 1 }
  | .interrupt _ => { w with intr := w.intr ||| 0x8, latch := true }

def Told.acknowledge (w : Told) : Act → Told
  | .write offset _ =>
    if regIndex offset = VCurrent then { w with intr := w.intr &&& ~~~0x8, latch := false } else w
  | _ => w

theorem told_tickLine (s : Sys) :
    told (tickLine s) = (lineSignals s).foldl Told.tell (told s) := by
  rw [tickLine_eq, lineSignals]
  by_cases wraps : Wraps s.vi <;> by_cases matching : Matches s.vi <;>
    simp only [if_pos, if_neg, wraps, matching, not_false_eq_true, List.nil_append,
      List.append_nil, List.cons_append, List.foldl_cons, List.foldl_nil] <;>
    simp [told, Told.tell, advanced, latched, wraps, raiseInterrupt, Mi.raise, Mi.notify, MiIntr.VI]

theorem told_tick (s : Sys) (n : Cycles) :
    told (tick s n) = (tickSignals s n).foldl Told.tell (told s) := by
  rw [tickSignals, tick]
  split
  · rfl
  · have lines : ∀ out t, lineDue t = true →
        told t = out.foldl Told.tell (told s) →
        told (tickLine t) = (out ++ lineSignals t).foldl Told.tell (told s) := by
      intro out t _ before
      rw [told_tickLine, before, List.foldl_append]
    have start : told (withAccum s (s.vi.cycleAccum + n)) =
        ([] : List Signal).foldl Told.tell (told s) := rfl
    exact whileDo_emits (P := fun out t => told t = out.foldl Told.tell (told s)) lines _ start

theorem told_act (a : Act) (s : Sys) :
    told (act a s) = (signals a s).foldl Told.tell ((told s).acknowledge a) := by
  cases a with
  | write offset value =>
    rw [signals, List.foldl_nil, Told.acknowledge, act, write]
    by_cases beam : regIndex offset = VCurrent
    · rw [if_pos beam, if_neg (by rw [beam]; decide), if_pos beam]
      rfl
    · rw [if_neg beam]
      split
      · rfl
      · dsimp only
        split <;> rfl
  | tick n => exact told_tick s n
  | raiseInterrupt => rfl
  | clearFrameReady => rfl

/-- A line raises the interrupt at the number it moves the beam to; a line
without one changes the VI alone. -/
theorem tickLine_raises (s : Sys) :
    (∀ x, .interrupt x ∈ lineSignals s → vCurrent (tickLine s).vi = x ∧
      tickLine s = Mi.raise { s with vi := (tickLine s).vi } 0x8) ∧
    ((∀ x, .interrupt x ∉ lineSignals s) → tickLine s = { s with vi := (tickLine s).vi }) := by
  have beam : vCurrent (tickLine s).vi = nextNumber s.vi :=
    BitVec.eq_of_toNat_eq (number_tickLine s)
  have named : ∀ x, .interrupt x ∈ lineSignals s ↔ Matches s.vi ∧ x = nextNumber s.vi := by
    intro x
    rw [lineSignals]
    by_cases wraps : Wraps s.vi <;> by_cases matching : Matches s.vi <;> simp [wraps, matching]
  constructor
  · intro x raised
    obtain ⟨matching, rfl⟩ := (named x).mp raised
    refine ⟨beam, ?_⟩
    rw [tickLine_eq, if_pos matching]
    rfl
  · intro silent
    have other : ¬ Matches s.vi := fun matching => silent _ ((named _).mpr ⟨matching, rfl⟩)
    rw [tickLine_eq, if_neg other]

/-- Between two consecutive wraps of a run that leaves V_SYNC and V_INTR alone
comes one interrupt, at the line V_INTR names. What the run leaves of the
request, the latch and the count of frames is what its signals tell, and every
line with an interrupt raises it at the CPU and stands on the line it names. -/
theorem one_interrupt_each_frame (s : Sys) (acts : List Act) (keeps : ∀ a ∈ acts, a.KeepsFrame)
    (above : 2 ≤ (vIntr s.vi &&& 0x3FE).toNat)
    (below : (vIntr s.vi &&& 0x3FE).toNat ≤ (s.vi.linesPerFrame &&& 0x3FE).toNat) :
    Each .wrap (fun round => round = [.interrupt (vIntr s.vi &&& 0x3FE)])
      (Runs.trace act signals acts s) ∧
    (∀ a t, told (act a t) = (signals a t).foldl Told.tell ((told t).acknowledge a)) ∧
    ∀ t, told (tickLine t) = (lineSignals t).foldl Told.tell (told t) ∧
      (∀ x, .interrupt x ∈ lineSignals t → vCurrent (tickLine t).vi = x ∧
        tickLine t = Mi.raise { t with vi := (tickLine t).vi } 0x8) ∧
      ((∀ x, .interrupt x ∉ lineSignals t) → tickLine t = { t with vi := (tickLine t).vi }) := by
  have start : Counted (intrLine s.vi) (lastLine s.vi) [] s :=
    ⟨rfl, rfl, each_nil, fun _ opened => absurd opened not_open_nil⟩
  have step : ∀ a ∈ acts, ∀ out t, Counted (intrLine s.vi) (lastLine s.vi) out t →
      Counted (intrLine s.vi) (lastLine s.vi) (out ++ signals a t) (act a t) :=
    fun a mem _ _ h => act_counted above below (keeps a mem) h
  exact ⟨(Runs.trace_emits step start).rounds, told_act,
    fun t => ⟨told_tickLine t, tickLine_raises t⟩⟩

/-- The machine as it powers on raises the interrupt on its first line; the
acknowledge write drops the request. -/
theorem one_interrupt_each_frame_from_reset :
    Each .wrap (fun round => round = [.interrupt (vIntr (powerOn {}).vi &&& 0x3FE)])
      (Runs.trace act signals [.tick 6000, .write 0x10 0, .tick 2000000] (powerOn {})) ∧
    told (act (.tick 6000) (powerOn {})) = ⟨0x8, true, 0⟩ ∧
    told (act (.write 0x10 0) (act (.tick 6000) (powerOn {}))) = ⟨0, false, 0⟩ := by
  have frames := one_interrupt_each_frame (powerOn {}) [.tick 6000, .write 0x10 0, .tick 2000000]
    (by simp [Act.KeepsFrame, regIndex, VSync, VIntr]) (by decide) (by decide)
  have first : told (act (.tick 6000) (powerOn {})) = ⟨0x8, true, 0⟩ := by decide +kernel
  refine ⟨frames.1, first, ?_⟩
  rw [frames.2.1, first]
  rfl

end Vi

end N64
