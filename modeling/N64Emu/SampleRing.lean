import N64Emu.Audio
import N64Emu.Runs

/-!
# The sample ring between two threads

The emulation thread pushes frames and the host callback pulls them. Every
load of an index, every access to a slot and every store of an index is one
step, and the two threads may take their steps in any order.
-/

set_option autoImplicit false

namespace N64.SampleRing

open Words Runs Ai

abbrev Frame := U16 × U16

/-- Where a `push_frame` call stands. -/
inductive Producer where
  | idle
  | loadedW (frame : Frame) (w : U64)
  | storing (frame : Frame) (w : U64)
  | storedLeft (frame : Frame) (w : U64)
  | storedRight (frame : Frame) (w : U64)

/-- Where a `pull_frames` call stands; `out` is what it has copied. -/
inductive Consumer where
  | idle
  | loadedR (maxFrames r : U64)
  | copying (r n f : U64) (out : List Frame)
  | halfway (r n f : U64) (out : List Frame) (left : U16)

/-- The audio interface, both threads, the frames that passed the check for
room and the frames that pulls have returned. -/
structure World where
  ai : AudioInterface
  producer : Producer := .idle
  consumer : Consumer := .idle
  accepted : List Frame := []
  pulled : List Frame := []

inductive Act where
  | push (left right : U16)
  | pull (maxFrames : U64)
  | producer
  | consumer

def slot (i : U64) : ℕ := (i &&& kRingMask).toNat * 2

def storeRing (a : AudioInterface) (i : ℕ) (v : U16) : AudioInterface :=
  { a with ring := Function.update a.ring i v }

def produce (s : World) : World :=
  match s.producer with
  | .idle => s
  | .loadedW frame w =>
    let r := s.ai.ringR
    let count := w - r
    let a := { s.ai with samplesPushed := s.ai.samplesPushed + 1 }
    if count ≥ kRingFrames then
      { s with ai := { a with framesDropped := a.framesDropped + 1 }, producer := .idle }
    else { s with ai := a, producer := .storing frame w, accepted := s.accepted ++ [frame] }
  | .storing frame w =>
    { s with ai := storeRing s.ai (slot w) frame.1, producer := .storedLeft frame w }
  | .storedLeft frame w =>
    { s with ai := storeRing s.ai (slot w + 1) frame.2, producer := .storedRight frame w }
  | .storedRight _ w => { s with ai.ringW := w + 1, producer := .idle }

def consume (s : World) : World :=
  match s.consumer with
  | .idle => s
  | .loadedR maxFrames r =>
    let w := s.ai.ringW
    if w ≤ r then { s with consumer := .idle }
    else
      let available := w - r
      let n := if available < maxFrames then available else maxFrames
      { s with consumer := .copying r n 0 [] }
  | .copying r n f out =>
    if f < n then { s with consumer := .halfway r n f out (s.ai.ring (slot (r + f))) }
    else { s with ai.ringR := r + n, consumer := .idle, pulled := s.pulled ++ out }
  | .halfway r n f out left =>
    { s with consumer := .copying r n (f + 1) (out ++ [(left, s.ai.ring (slot (r + f) + 1))]) }

def Act.perform (a : Act) (s : World) : World :=
  match a with
  | .push left right =>
    match s.producer with
    | .idle => { s with producer := .loadedW (left, right) s.ai.ringW }
    | _ => s
  | .pull maxFrames =>
    match s.consumer with
    | .idle => if maxFrames = 0 then s else { s with consumer := .loadedR maxFrames s.ai.ringR }
    | _ => s
  | .producer => produce s
  | .consumer => consume s

/-- The frame a push has been granted room for and has not published. -/
def Producer.inFlight : Producer → List Frame
  | .idle => []
  | .loadedW _ _ => []
  | .storing frame _ => [frame]
  | .storedLeft frame _ => [frame]
  | .storedRight frame _ => [frame]

def Producer.target : Producer → Option ℕ
  | .storing _ w => some (slot w)
  | .storedLeft _ w => some (slot w + 1)
  | _ => none

def Stands (ring : ℕ → U16) (i : ℕ) (frame : Frame) : Prop :=
  ring (slot (BitVec.ofNat 64 i)) = frame.1 ∧ ring (slot (BitVec.ofNat 64 i) + 1) = frame.2

/-- The frames `buffered` wait between the two indices. -/
structure Buffered (s : World) (buffered : List Frame) : Prop where
  accepted : s.accepted = s.pulled ++ buffered ++ s.producer.inFlight
  ringR : s.ai.ringR = BitVec.ofNat 64 s.pulled.length
  ringW : s.ai.ringW = BitVec.ofNat 64 (s.pulled.length + buffered.length)
  room : buffered.length ≤ 8192
  stands : ∀ i frame, buffered[i]? = some frame → Stands s.ai.ring (s.pulled.length + i) frame
  counted : s.ai.samplesPushed = BitVec.ofNat 64 s.accepted.length + s.ai.framesDropped

/-- The write index is the producer's own, so what it loaded is still right. -/
def Producing (s : World) (buffered : List Frame) : Prop :=
  match s.producer with
  | .idle => True
  | .loadedW _ w => w = s.ai.ringW
  | .storing _ w => w = s.ai.ringW ∧ buffered.length < 8192
  | .storedLeft frame w =>
    w = s.ai.ringW ∧ buffered.length < 8192 ∧ s.ai.ring (slot w) = frame.1
  | .storedRight frame w =>
    w = s.ai.ringW ∧ buffered.length < 8192 ∧ s.ai.ring (slot w) = frame.1 ∧
      s.ai.ring (slot w + 1) = frame.2

def Consuming (s : World) (buffered : List Frame) : Prop :=
  match s.consumer with
  | .idle => True
  | .loadedR _ r => r = s.ai.ringR
  | .copying r n f out =>
    r = s.ai.ringR ∧ n.toNat ≤ buffered.length ∧ f.toNat ≤ n.toNat ∧ out = buffered.take f.toNat
  | .halfway r n f out left =>
    r = s.ai.ringR ∧ n.toNat ≤ buffered.length ∧ f.toNat < n.toNat ∧
      out = buffered.take f.toNat ∧ ∃ right, buffered[f.toNat]? = some (left, right)

structure Ordered (s : World) (buffered : List Frame) : Prop where
  buffer : Buffered s buffered
  producing : Producing s buffered
  consuming : Consuming s buffered

section Indices

theorem slot_ofNat (i : ℕ) : slot (BitVec.ofNat 64 i) = i % 8192 * 2 := by
  rw [slot, BitVec.toNat_and, BitVec.toNat_ofNat, show kRingMask.toNat = 2 ^ 13 - 1 from rfl,
    Nat.and_two_pow_sub_one_eq_mod, Nat.mod_mod_of_dvd i (by decide)]

theorem index_sub (r n : ℕ) : BitVec.ofNat 64 (r + n) - BitVec.ofNat 64 r = BitVec.ofNat 64 n := by
  rw [BitVec.ofNat_add, BitVec.add_comm, BitVec.add_sub_cancel]

/-- What is buffered is not in the slot behind it, as long as there is room. -/
theorem apart_behind {r i n : ℕ} (room : n < 8192) (inside : i < n) :
    (r + i) % 8192 ≠ (r + n) % 8192 := by
  omega

theorem stands_storeRing {a : AudioInterface} {i j cell : ℕ} {frame : Frame} (v : U16)
    (apart : i % 8192 ≠ j % 8192)
    (target : cell = slot (BitVec.ofNat 64 j) ∨ cell = slot (BitVec.ofNat 64 j) + 1)
    (stands : Stands a.ring i frame) : Stands (storeRing a cell v).ring i frame := by
  simp only [Stands, storeRing, slot_ofNat] at stands target ⊢
  constructor
  · rw [Function.update_of_ne (by omega), stands.1]
  · rw [Function.update_of_ne (by omega), stands.2]

end Indices

section Producer

variable {s : World} {buffered : List Frame} {frame : Frame} {w : U64}

theorem Ordered.loaded (ordered : Ordered s buffered) (at_w : s.producer = .loadedW frame w) :
    Ordered (produce s) buffered := by
  obtain ⟨⟨accepted, ringR, ringW, room, stands, counted⟩, producing, consuming⟩ := ordered
  simp only [Producing, at_w] at producing
  have count : w - s.ai.ringR = BitVec.ofNat 64 buffered.length := by
    rw [producing, ringW, ringR, index_sub]
  simp only [Producer.inFlight, at_w, List.append_nil] at accepted
  rw [produce, at_w]
  dsimp only
  rw [count]
  by_cases full : BitVec.ofNat 64 buffered.length ≥ kRingFrames
  · rw [if_pos full]
    refine ⟨⟨by simpa [Producer.inFlight] using accepted, ringR, ringW, room, stands, ?_⟩,
      trivial, consuming⟩
    dsimp only
    rw [counted, BitVec.add_assoc]
  · rw [if_neg full]
    have less : buffered.length < 8192 := by
      rw [ge_iff_le, BitVec.le_def, BitVec.toNat_ofNat, Nat.mod_eq_of_lt (by omega)] at full
      exact Nat.lt_of_not_le full
    refine ⟨⟨by simp [Producer.inFlight, accepted], ringR, ringW, room, stands, ?_⟩,
      ⟨producing, less⟩, consuming⟩
    dsimp only
    rw [counted, List.length_append, BitVec.ofNat_add]
    simp only [List.length_singleton]
    ac_rfl

/-- A store into the slot behind the buffer leaves the buffer as it is. -/
theorem Buffered.store (buffer : Buffered s buffered) (less : buffered.length < 8192) {cell : ℕ}
    (target : cell = slot s.ai.ringW ∨ cell = slot s.ai.ringW + 1) (v : U16) {p : Producer}
    (same : p.inFlight = s.producer.inFlight) :
    Buffered { s with ai := storeRing s.ai cell v, producer := p } buffered := by
  refine ⟨?_, buffer.ringR, buffer.ringW, buffer.room, fun i frame here => ?_, buffer.counted⟩
  · rw [buffer.accepted, same]
  · obtain ⟨inside, -⟩ := List.getElem?_eq_some_iff.mp here
    rw [buffer.ringW] at target
    exact stands_storeRing v (apart_behind less inside) target (buffer.stands i frame here)

theorem Producing.target (producing : Producing s buffered) {cell : ℕ}
    (target : s.producer.target = some cell) :
    buffered.length < 8192 ∧ (cell = slot s.ai.ringW ∨ cell = slot s.ai.ringW + 1) := by
  rw [Producing] at producing
  cases h : s.producer with
  | idle => simp [h, Producer.target] at target
  | loadedW frame w => simp [h, Producer.target] at target
  | storedRight frame w => simp [h, Producer.target] at target
  | storing frame w =>
    simp only [h, Producer.target, Option.some.injEq] at target producing
    rw [← producing.1, ← target]
    exact ⟨producing.2, Or.inl rfl⟩
  | storedLeft frame w =>
    simp only [h, Producer.target, Option.some.injEq] at target producing
    rw [← producing.1, ← target]
    exact ⟨producing.2.1, Or.inr rfl⟩

theorem Ordered.storing (ordered : Ordered s buffered) (at_w : s.producer = .storing frame w) :
    Ordered (produce s) buffered := by
  obtain ⟨buffer, producing, consuming⟩ := ordered
  simp only [Producing, at_w] at producing
  obtain ⟨index, less⟩ := producing
  rw [produce, at_w]
  refine ⟨buffer.store less (Or.inl (by rw [index])) _ (by rw [at_w]; rfl), ⟨index, less, ?_⟩,
    consuming⟩
  exact Function.update_self ..

theorem Ordered.storedLeft (ordered : Ordered s buffered)
    (at_w : s.producer = .storedLeft frame w) : Ordered (produce s) buffered := by
  obtain ⟨buffer, producing, consuming⟩ := ordered
  simp only [Producing, at_w] at producing
  obtain ⟨index, less, left⟩ := producing
  rw [produce, at_w]
  refine ⟨buffer.store less (Or.inr (by rw [index])) _ (by rw [at_w]; rfl), ⟨index, less, ?_, ?_⟩,
    consuming⟩
  · exact (Function.update_of_ne (by omega) _ _).trans left
  · exact Function.update_self ..

theorem Ordered.storedRight (ordered : Ordered s buffered)
    (at_w : s.producer = .storedRight frame w) : Ordered (produce s) (buffered ++ [frame]) := by
  obtain ⟨buffer, producing, consuming⟩ := ordered
  simp only [Producing, at_w] at producing
  obtain ⟨index, less, left, right⟩ := producing
  rw [produce, at_w]
  refine ⟨⟨?_, buffer.ringR, ?_, ?_, fun i f here => ?_, buffer.counted⟩, trivial, ?_⟩
  · simp [buffer.accepted, at_w, Producer.inFlight]
  · dsimp only
    rw [index, buffer.ringW, List.length_append, ← Nat.add_assoc, List.length_singleton,
      BitVec.ofNat_add _ 1]
    rfl
  · rw [List.length_append]
    exact less
  · by_cases old : i < buffered.length
    · rw [List.getElem?_append_left old] at here
      exact buffer.stands i f here
    · obtain ⟨inside, value⟩ := List.getElem?_eq_some_iff.mp here
      rw [List.length_append, List.length_singleton] at inside
      have last : i = buffered.length := by omega
      subst last
      rw [List.getElem_concat_length rfl] at value
      rw [← value, Stands, ← buffer.ringW, ← index]
      exact ⟨left, right⟩
  · have taken : ∀ f : U64, f.toNat ≤ buffered.length →
        (buffered ++ [frame]).take f.toNat = buffered.take f.toNat :=
      fun f inside => List.take_append_of_le_length inside
    revert consuming
    simp only [Consuming]
    cases s.consumer with
    | idle => exact id
    | loadedR m r => exact id
    | copying r n f out =>
      rintro ⟨rIndex, bound, done, copied⟩
      refine ⟨rIndex, by rw [List.length_append]; omega, done, ?_⟩
      rw [taken f (by omega), copied]
    | halfway r n f out l =>
      rintro ⟨rIndex, bound, done, copied, second, here⟩
      refine ⟨rIndex, by rw [List.length_append]; omega, done, ?_, second, ?_⟩
      · rw [taken f (by omega), copied]
      · rw [List.getElem?_append_left (by omega), here]

end Producer

section Consumer

variable {s : World} {buffered : List Frame}

theorem Buffered.consumer (buffer : Buffered s buffered) (c : Consumer) :
    Buffered { s with consumer := c } buffered :=
  ⟨buffer.accepted, buffer.ringR, buffer.ringW, buffer.room, buffer.stands, buffer.counted⟩

theorem Buffered.front (buffer : Buffered s buffered) {f : U64} {frame : Frame}
    (here : buffered[f.toNat]? = some frame) :
    s.ai.ring (slot (s.ai.ringR + f)) = frame.1 ∧
      s.ai.ring (slot (s.ai.ringR + f) + 1) = frame.2 := by
  have index : s.ai.ringR + f = BitVec.ofNat 64 (s.pulled.length + f.toNat) := by
    rw [buffer.ringR, BitVec.ofNat_add, BitVec.ofNat_toNat, BitVec.setWidth_eq]
  rw [index]
  exact buffer.stands _ frame here

theorem Ordered.loadedR {maxFrames r : U64} (ordered : Ordered s buffered)
    (at_r : s.consumer = .loadedR maxFrames r) : Ordered (consume s) buffered := by
  obtain ⟨buffer, producing, consuming⟩ := ordered
  simp only [Consuming, at_r] at consuming
  rw [consume, at_r]
  dsimp only
  by_cases empty : s.ai.ringW ≤ r
  · rw [if_pos empty]
    exact ⟨buffer.consumer _, producing, trivial⟩
  · rw [if_neg empty]
    have available : (s.ai.ringW - r).toNat = buffered.length := by
      rw [consuming, buffer.ringW, buffer.ringR, index_sub, BitVec.toNat_ofNat]
      have := buffer.room
      omega
    refine ⟨buffer.consumer _, producing, consuming, ?_, Nat.zero_le _, rfl⟩
    split_ifs with less
    · exact available.le
    · rw [BitVec.not_lt, BitVec.le_def] at less
      omega

theorem Ordered.copying {r n f : U64} {out : List Frame} (ordered : Ordered s buffered)
    (at_r : s.consumer = .copying r n f out) : ∃ rest, Ordered (consume s) rest := by
  obtain ⟨buffer, producing, consuming⟩ := ordered
  simp only [Consuming, at_r] at consuming
  obtain ⟨rIndex, bound, done, copied⟩ := consuming
  rw [consume, at_r]
  dsimp only
  by_cases more : f < n
  · rw [if_pos more]
    have next := BitVec.lt_def.mp more
    have here := List.getElem?_eq_getElem (show f.toNat < buffered.length by omega)
    refine ⟨buffered, buffer.consumer _, producing, rIndex, bound, next, copied,
      buffered[f.toNat].2, ?_⟩
    rw [rIndex, (buffer.front here).1]
    exact here
  · rw [if_neg more]
    have all : f.toNat = n.toNat := le_antisymm done (BitVec.le_def.mp (BitVec.not_lt.mp more))
    have length : out.length = n.toNat := by
      rw [copied, List.length_take]
      omega
    have split : buffered = out ++ buffered.drop n.toNat := by
      rw [copied, all, List.take_append_drop]
    have shorter : (buffered.drop n.toNat).length ≤ buffered.length := by
      rw [List.length_drop]
      omega
    refine ⟨buffered.drop n.toNat, ⟨?_, ?_, ?_, ?_, fun i frame here => ?_, buffer.counted⟩, ?_,
      trivial⟩
    · dsimp only
      rw [List.append_assoc s.pulled, ← split, buffer.accepted]
    · dsimp only
      rw [rIndex, buffer.ringR, List.length_append, length, BitVec.ofNat_add, BitVec.ofNat_toNat,
        BitVec.setWidth_eq]
    · dsimp only
      rw [buffer.ringW, List.length_append, length, List.length_drop]
      congr 1
      omega
    · rw [List.length_drop]
      have := buffer.room
      omega
    · dsimp only
      rw [List.length_append, length, Nat.add_assoc]
      rw [List.getElem?_drop] at here
      exact buffer.stands _ frame here
    · revert producing
      simp only [Producing]
      cases s.producer with
      | idle => exact id
      | loadedW frame w => exact id
      | storing frame w => exact fun ⟨index, less⟩ => ⟨index, shorter.trans_lt less⟩
      | storedLeft frame w => exact fun ⟨index, less, left⟩ => ⟨index, shorter.trans_lt less, left⟩
      | storedRight frame w =>
        exact fun ⟨index, less, both⟩ => ⟨index, shorter.trans_lt less, both⟩

theorem Ordered.halfway {r n f : U64} {out : List Frame} {left : U16}
    (ordered : Ordered s buffered) (at_r : s.consumer = .halfway r n f out left) :
    Ordered (consume s) buffered := by
  obtain ⟨buffer, producing, consuming⟩ := ordered
  simp only [Consuming, at_r] at consuming
  obtain ⟨rIndex, bound, more, copied, right, here⟩ := consuming
  have next : (f + 1).toNat = f.toNat + 1 := by
    rw [BitVec.toNat_add]
    have := n.isLt
    exact Nat.mod_eq_of_lt (by simp; omega)
  rw [consume, at_r]
  refine ⟨buffer.consumer _, producing, rIndex, bound, by rw [next]; exact more, ?_⟩
  rw [next, List.take_add_one, here, copied, rIndex, (buffer.front here).2]
  rfl

end Consumer

section Run

theorem ordered_perform {s : World} {buffered : List Frame} (act : Act)
    (ordered : Ordered s buffered) :
    ∃ rest, Ordered (act.perform s) rest := by
  have unchanged : ∃ rest, Ordered s rest := ⟨buffered, ordered⟩
  cases act with
  | push left right =>
    rw [Act.perform]
    cases h : s.producer with
    | idle =>
      obtain ⟨buffer, producing, consuming⟩ := ordered
      refine ⟨buffered, ⟨?_, buffer.ringR, buffer.ringW, buffer.room, buffer.stands,
        buffer.counted⟩, rfl, consuming⟩
      rw [buffer.accepted, h]
      rfl
    | loadedW frame w => exact unchanged
    | storing frame w => exact unchanged
    | storedLeft frame w => exact unchanged
    | storedRight frame w => exact unchanged
  | pull maxFrames =>
    rw [Act.perform]
    cases h : s.consumer with
    | idle =>
      dsimp only
      by_cases nothing : maxFrames = 0
      · rwa [if_pos nothing]
      · rw [if_neg nothing]
        exact ⟨buffered, ordered.buffer.consumer _, ordered.producing, rfl⟩
    | loadedR m r => exact unchanged
    | copying r n f out => exact unchanged
    | halfway r n f out left => exact unchanged
  | producer =>
    rw [Act.perform]
    cases h : s.producer with
    | idle => rwa [produce, h]
    | loadedW frame w => exact ⟨_, ordered.loaded h⟩
    | storing frame w => exact ⟨_, ordered.storing h⟩
    | storedLeft frame w => exact ⟨_, ordered.storedLeft h⟩
    | storedRight frame w => exact ⟨_, ordered.storedRight h⟩
  | consumer =>
    rw [Act.perform]
    cases h : s.consumer with
    | idle => rwa [consume, h]
    | loadedR m r => exact ⟨_, ordered.loadedR h⟩
    | copying r n f out => exact ordered.copying h
    | halfway r n f out left => exact ⟨_, ordered.halfway h⟩

theorem ordered_run (a : AudioInterface) (acts : List Act) :
    ∃ buffered, Ordered (run Act.perform acts { ai := reset a }) buffered := by
  refine @run_preserves Act World Act.perform (fun s => ∃ buffered, Ordered s buffered)
    (fun act s => ?_) acts { ai := reset a } ?_
  · rintro ⟨buffered, ordered⟩
    exact ordered_perform act ordered
  · exact ⟨[], ⟨rfl, rfl, rfl, by simp, by simp, rfl⟩, trivial, trivial⟩

def Producer.asked : Producer → List Frame
  | .loadedW frame _ => [frame]
  | _ => []

def Act.frame : Act → Option Frame
  | .push left right => some (left, right)
  | _ => none

/-- A producer that moves on takes the frame it asked for or drops it. -/
theorem produce_asked (s : World) :
    ((produce s).accepted ++ (produce s).producer.asked).Sublist
      (s.accepted ++ s.producer.asked) := by
  cases h : s.producer with
  | idle => rw [produce, h]; simp [h]
  | storing frame w => rw [produce, h]; simp [Producer.asked]
  | storedLeft frame w => rw [produce, h]; simp [Producer.asked]
  | storedRight frame w => rw [produce, h]; simp [Producer.asked]
  | loadedW frame w =>
    rw [produce, h]
    dsimp only
    by_cases full : w - s.ai.ringR ≥ kRingFrames
    · rw [if_pos full]
      simp [Producer.asked]
    · rw [if_neg full]
      simp [Producer.asked]

theorem consume_asked (s : World) :
    (consume s).accepted = s.accepted ∧ (consume s).producer = s.producer := by
  cases h : s.consumer with
  | idle => rw [consume, h]; exact ⟨rfl, rfl⟩
  | halfway r n f out left => rw [consume, h]; exact ⟨rfl, rfl⟩
  | loadedR m r =>
    rw [consume, h]
    dsimp only
    by_cases empty : s.ai.ringW ≤ r
    · rw [if_pos empty]
      exact ⟨rfl, rfl⟩
    · rw [if_neg empty]
      exact ⟨rfl, rfl⟩
  | copying r n f out =>
    rw [consume, h]
    dsimp only
    by_cases more : f < n
    · rw [if_pos more]
      exact ⟨rfl, rfl⟩
    · rw [if_neg more]
      exact ⟨rfl, rfl⟩

theorem accepted_in_push_order (a : AudioInterface) (acts : List Act) :
    (run Act.perform acts { ai := reset a }).accepted.Sublist (acts.filterMap Act.frame) := by
  have history := @run_history Act World Act.perform
    (fun acts s => (s.accepted ++ s.producer.asked).Sublist (acts.filterMap Act.frame))
    { ai := reset a } (by simp [Producer.asked]) (fun acts act before => ?_) acts
  · exact (List.sublist_append_left ..).trans history
  · generalize run Act.perform acts { ai := reset a } = s at before ⊢
    rw [List.filterMap_append]
    cases act with
    | producer => exact ((produce_asked s).trans before).trans (List.sublist_append_left ..)
    | consumer =>
      rw [Act.perform, (consume_asked s).1, (consume_asked s).2]
      exact before.trans (List.sublist_append_left ..)
    | pull maxFrames =>
      have same : (Act.perform (.pull maxFrames) s).accepted = s.accepted ∧
          (Act.perform (.pull maxFrames) s).producer = s.producer := by
        rw [Act.perform]
        split
        · split_ifs <;> exact ⟨rfl, rfl⟩
        · exact ⟨rfl, rfl⟩
      rw [same.1, same.2]
      exact before.trans (List.sublist_append_left ..)
    | push left right =>
      rw [Act.perform]
      cases h : s.producer with
      | idle =>
        rw [h] at before
        simp only [Producer.asked, List.append_nil] at before ⊢
        exact before.append (List.Sublist.refl _)
      | loadedW frame w => exact before.trans (List.sublist_append_left ..)
      | storing frame w => exact before.trans (List.sublist_append_left ..)
      | storedLeft frame w => exact before.trans (List.sublist_append_left ..)
      | storedRight frame w => exact before.trans (List.sublist_append_left ..)

/-- For every interleaving: what has been pulled, what waits in the slots and
the frame in flight are the accepted frames in order, the producer's next store
misses every waiting frame, and every push was accepted or dropped. -/
theorem ring_is_queue (a : AudioInterface) (acts : List Act) :
    let s := run Act.perform acts { ai := reset a }
    s.accepted.Sublist (acts.filterMap Act.frame) ∧
      ∃ buffered, s.accepted = s.pulled ++ buffered ++ s.producer.inFlight ∧
        (s.ai.ringW - s.ai.ringR).toNat = buffered.length ∧
        buffered.length ≤ kRingFrames.toNat ∧
        (∀ i frame, buffered[i]? = some frame →
          Stands s.ai.ring (s.pulled.length + i) frame ∧
          ∀ cell, s.producer.target = some cell →
            cell ≠ slot (BitVec.ofNat 64 (s.pulled.length + i)) ∧
            cell ≠ slot (BitVec.ofNat 64 (s.pulled.length + i)) + 1) ∧
        s.ai.samplesPushed = BitVec.ofNat 64 s.accepted.length + s.ai.framesDropped := by
  intro s
  have pushes : s.accepted.Sublist (acts.filterMap Act.frame) := accepted_in_push_order a acts
  obtain ⟨buffered, buffer, producing, -⟩ : ∃ buffered, Ordered s buffered := ordered_run a acts
  clear_value s
  refine ⟨pushes, buffered, buffer.accepted, ?_, buffer.room,
    fun i frame here => ⟨buffer.stands i frame here, fun cell target => ?_⟩, buffer.counted⟩
  · rw [buffer.ringW, buffer.ringR, index_sub, BitVec.toNat_ofNat]
    have := buffer.room
    omega
  · obtain ⟨inside, -⟩ := List.getElem?_eq_some_iff.mp here
    obtain ⟨less, behind⟩ := producing.target target
    have apart := apart_behind (r := s.pulled.length) less inside
    rw [buffer.ringW, slot_ofNat] at behind
    rw [slot_ofNat]
    omega

theorem push_uninterrupted (s : World) (idle : s.producer = .idle) (left right : U16) :
    (run Act.perform [.push left right, .producer, .producer, .producer, .producer] s).ai =
      pushFrame s.ai left right := by
  simp only [run, Act.perform, idle, produce, pushFrame]
  by_cases full : s.ai.ringW - s.ai.ringR ≥ kRingFrames
  · simp only [if_pos full]
  · simp only [if_neg full]
    rfl

/-- The frames of `k` slots from `r + f` on. -/
def copied (a : AudioInterface) (r : U64) : U64 → ℕ → List Frame
  | _, 0 => []
  | f, k+1 => (a.ring (slot (r + f)), a.ring (slot (r + f) + 1)) :: copied a r (f + 1) k

theorem copied_eq (a : AudioInterface) (r f : U64) (k : ℕ) :
    copied a r f k = (List.range k).map fun i =>
      (a.ring (slot (r + (f + BitVec.ofNat 64 i))),
        a.ring (slot (r + (f + BitVec.ofNat 64 i)) + 1)) := by
  induction k generalizing f with
  | zero => rfl
  | succ k ih =>
    have shift : ∀ i, f + 1 + BitVec.ofNat 64 i = f + BitVec.ofNat 64 (i + 1) := by
      intro i
      rw [Nat.add_comm i 1, BitVec.ofNat_add, ← BitVec.add_assoc f]
      rfl
    rw [copied, ih, List.range_succ_eq_map, List.map_cons, List.map_map]
    congr 1
    · simp
    · refine List.map_congr_left fun i _ => ?_
      rw [shift]
      rfl

theorem copy_uninterrupted (s : World) (r n : U64) (k : ℕ) (f : U64) (out : List Frame)
    (left : f.toNat + k = n.toNat) (at_r : s.consumer = .copying r n f out) :
    run Act.perform (List.replicate (2 * k + 1) .consumer) s =
      { s with
        ai.ringR := r + n
        consumer := .idle
        pulled := s.pulled ++ (out ++ copied s.ai r f k) } := by
  induction k generalizing s f out with
  | zero =>
    have done : ¬ f < n := by
      rw [BitVec.lt_def]
      omega
    simp [run, Act.perform, consume, at_r, done, copied]
  | succ k ih =>
    have more : f < n := by
      rw [BitVec.lt_def]
      omega
    have next : (f + 1).toNat = f.toNat + 1 := by
      rw [BitVec.toNat_add]
      have := n.isLt
      exact Nat.mod_eq_of_lt (by simp; omega)
    have twice : Act.perform .consumer (Act.perform .consumer s) = { s with
        consumer := .copying r n (f + 1)
          (out ++ [(s.ai.ring (slot (r + f)), s.ai.ring (slot (r + f) + 1))]) } := by
      simp [Act.perform, consume, at_r, more]
    rw [show 2 * (k + 1) + 1 = (2 * k + 1) + 1 + 1 by omega, List.replicate_succ,
      List.replicate_succ, run_cons, run_cons, twice, ih _ (f + 1) _ (by omega) rfl, copied,
      List.append_assoc]
    rfl

theorem pull_uninterrupted (s : World) (idle : s.consumer = .idle) (maxFrames : U64) :
    ∃ k, run Act.perform (.pull maxFrames :: List.replicate k .consumer) s =
      { s with
        ai := (pullFrames s.ai maxFrames).1
        pulled := s.pulled ++ (pullFrames s.ai maxFrames).2 } := by
  obtain ⟨a, producer, consumer, accepted, pulled⟩ := s
  dsimp only at idle
  subst idle
  by_cases nothing : maxFrames = 0
  · refine ⟨0, ?_⟩
    simp [run, Act.perform, pullFrames, nothing]
  · have begun : Act.perform (.pull maxFrames) ⟨a, producer, .idle, accepted, pulled⟩ =
        ⟨a, producer, .loadedR maxFrames a.ringR, accepted, pulled⟩ := by
      rw [Act.perform]
      dsimp only
      rw [if_neg nothing]
    by_cases empty : a.ringW ≤ a.ringR
    · refine ⟨1, ?_⟩
      rw [run_cons, begun, pullFrames, if_neg nothing, if_pos empty]
      simp only [List.replicate_one, run, Act.perform, consume, if_pos empty, List.append_nil]
    · let n := if a.ringW - a.ringR < maxFrames then a.ringW - a.ringR else maxFrames
      refine ⟨2 * n.toNat + 1 + 1, ?_⟩
      have started : Act.perform .consumer
          ⟨a, producer, .loadedR maxFrames a.ringR, accepted, pulled⟩ =
            ⟨a, producer, .copying a.ringR n 0 [], accepted, pulled⟩ := by
        simp only [Act.perform, consume, if_neg empty, n]
      have out : copied a a.ringR 0 n.toNat = (pullFrames a maxFrames).2 := by
        rw [copied_eq, pullFrames, if_neg nothing, if_neg empty]
        simp only [BitVec.ofNat_eq_ofNat, BitVec.zero_add]
        rfl
      rw [List.replicate_succ, run_cons, run_cons, begun, started,
        copy_uninterrupted _ a.ringR n n.toNat 0 [] (by simp) rfl]
      dsimp only
      rw [List.nil_append, out, pullFrames, if_neg nothing, if_neg empty]

end Run

end N64.SampleRing
