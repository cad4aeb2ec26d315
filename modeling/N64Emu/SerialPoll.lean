import N64Emu.Fills
import N64Emu.InputMapper
import N64Emu.JoybusPackets
import N64Emu.JoybusRobust
import N64Emu.LowMasks
import N64Emu.PeripheralDma
import N64Emu.PixelWrites

/-!
# Polling the controllers

A program puts a block of commands in RDRAM, lets the SI copy it to the PIF
and back, and reads the answers where the commands were. What it reads on the
first channel is what the player did last.
-/

set_option autoImplicit false

namespace N64.Si

open Words Loops Fills Pif

def start (base : U32) : U32 := (base &&& 0x00FFFFFF) &&& ~~~7

def block (s : Sys) (base : U32) : Bytes := fun i => s.bus.rdram ((start base).toNat + i)

def Room (s : Sys) (base : U32) : Prop := (start base).toNat + kPifRamSize ≤ s.bus.rdramSize

def poll (s : Sys) (base : U32) : Sys := write (write (write s 0x00 base) 0x10 0) 0x04 0

section Load

variable {s : Sys} {base : U32}

theorem start_lt (base : U32) : (start base).toNat + kPifRamSize < 2 ^ 32 := by
  have low : (base &&& 0x00FFFFFF).toNat ≤ 0x00FFFFFF := by
    rw [BitVec.toNat_and]
    exact Nat.and_le_right
  have aligned : (start base).toNat ≤ (base &&& 0x00FFFFFF).toNat := by
    rw [start, BitVec.toNat_and]
    exact Nat.and_le_left
  have size : kPifRamSize = 64 := rfl
  omega

theorem start_add {i : ℕ} (inside : i < kPifRamSize) :
    (start base + BitVec.ofNat 32 i).toNat = (start base).toNat + i := by
  have room := start_lt base
  rw [BitVec.toNat_add, BitVec.toNat_ofNat]
  omega

/-- A machine that differs from `s` in PIF RAM and the log. -/
def PifIs (s t : Sys) (m : Bytes) : Prop := t = { s with pif.pifRam := m, log := t.log }

def toPif (base : U32) (n : ℕ) (t : Sys) : Sys :=
  upTo (fun i t => t.pokePif i (t.bus.rdramByte (start base + BitVec.ofNat 32 i))) n t

theorem toPif_pass (room : Room s base) {t : Sys} {m : Bytes} {i : ℕ} (inside : i < kPifRamSize)
    (h : PifIs s t m) :
    PifIs s (t.pokePif i (t.bus.rdramByte (start base + BitVec.ofNat 32 i)))
      (Function.update m i (block s base i)) := by
  have bus : t.bus = s.bus := by rw [h]
  have byte : t.bus.rdramByte (start base + BitVec.ofNat 32 i) = block s base i := by
    unfold Room at room
    rw [bus, Bus.rdramByte, if_neg (by omega), start_add inside, Nat.mod_eq_of_lt (by omega)]
    rfl
  rw [byte]
  unfold PifIs at h ⊢
  rw [h]
  rfl

theorem toPif_copies (room : Room s base) {n : ℕ} (le : n ≤ kPifRamSize) :
    PifIs s (toPif base n s) (fill id (block s base) n s.pif.pifRam) := by
  unfold toPif fill
  refine upTo_sim (PifIs s) n ?_ fun i inside t m h => ?_
  · rfl
  · exact toPif_pass room (by omega) h

def loaded (s : Sys) (base : U32) : Bytes := fill id (block s base) kPifRamSize s.pif.pifRam

theorem loaded_apply {i : ℕ} (inside : i < kPifRamSize) : loaded s base i = block s base i := by
  show fill id (block s base) kPifRamSize s.pif.pifRam (id i) = block s base i
  exact fill_at_of_injective inside fun _ _ same => same

def filled (s : Sys) (base : U32) : Pif := { s.pif with pifRam := loaded s base }

def answered (s : Sys) (base : U32) : Pif :=
  if (filled s base).processRequested then (filled s base).processJoybus.1 else filled s base

/-- A machine that has answered, apart from its interrupt line. -/
structure Answered (s : Sys) (base : U32) (t : Sys) : Prop where
  pif : t.pif = answered s base
  rdram : t.bus.rdram = s.bus.rdram
  rdramSize : t.bus.rdramSize = s.bus.rdramSize
  dramAddr : t.bus.si.dramAddr = base &&& 0x00FFFFFF

theorem write_dramAddr (s : Sys) (base : U32) :
    write s 0x00 base = { s with bus.si.dramAddr := base &&& 0x00FFFFFF } := rfl

theorem write_toPif (s : Sys) : write s 0x10 0 = dmaToPif s := rfl

theorem write_fromPif (s : Sys) : write s 0x04 0 = dmaFromPif s := rfl

def afterLoad (t : Sys) : Sys := if t.pif.processRequested then t.processJoybus.mirrorPif else t

theorem dmaToPif_eq (s : Sys) (base : U32)
    (addressed : s.bus.si.dramAddr &&& ~~~7 = start base) : dmaToPif s =
    finishDma { afterLoad (toPif base kPifRamSize (setDmaBusy s)).mirrorPif with
      bus.si.lastDmaBytes := BitVec.ofNat 32 kPifRamSize } := by
  unfold dmaToPif toPif
  dsimp only
  rw [← addressed]
  rfl

theorem afterLoad_pif (t : Sys) : (afterLoad t).pif =
    if t.pif.processRequested then t.pif.processJoybus.1 else t.pif := by
  unfold afterLoad
  split <;> rfl

theorem afterLoad_bus (t : Sys) : (afterLoad t).bus.rdram = t.bus.rdram ∧
    (afterLoad t).bus.rdramSize = t.bus.rdramSize ∧
    (afterLoad t).bus.si.dramAddr = t.bus.si.dramAddr := by
  unfold afterLoad
  split <;> exact ⟨rfl, rfl, rfl⟩

theorem answered_toPif (room : Room s base) :
    Answered s base (write (write s 0x00 base) 0x10 0) := by
  rw [write_toPif, write_dramAddr, dmaToPif_eq _ base rfl]
  have there : Room (setDmaBusy { s with bus.si.dramAddr := base &&& 0x00FFFFFF }) base := room
  have copied := toPif_copies there le_rfl
  unfold PifIs at copied
  have after := afterLoad_bus (toPif base kPifRamSize
    (setDmaBusy { s with bus.si.dramAddr := base &&& 0x00FFFFFF })).mirrorPif
  refine ⟨?_, after.1.trans ?_, after.2.1.trans ?_, after.2.2.trans ?_⟩
  · refine (afterLoad_pif _).trans ?_
    rw [copied]
    rfl
  · rw [copied]
    rfl
  · rw [copied]
    rfl
  · rw [copied]
    rfl

end Load

section Answers

variable (p : Pif)

theorem control_after : p.processJoybus.1.pifRam 0x3F = p.pifRam 0x3F &&& ~~~kCtrlProcess := by
  rw [processJoybus_ram, Function.update_self,
    processChannels_outside p (Nat.zero_le 0x3F) kChannels 0 0 (Or.inr le_rfl)]

theorem answered_done (s : Sys) (base : U32) : (answered s base).processRequested = false := by
  unfold answered
  split
  · rw [Pif.processRequested, control_after, BitVec.and_assoc]
    exact bne_eq_false_iff_eq.mpr BitVec.and_zero
  · exact Bool.eq_false_iff.mpr ‹_›

theorem answers_congr {p q : Pif} (same : q.controllers = p.controllers) (ch : ℕ)
    (packets : List Packet) : answers q ch packets = answers p ch packets := by
  have devices (n : ℕ) : q.controller n = p.controller n := by
    unfold controller
    rw [same]
  induction packets generalizing ch with
  | nil => rfl
  | cons x xs ih => rw [answers, answers, devices, ih]

theorem answers_stand {packets : List Packet} {rest : List U8} (fits : ∀ x ∈ packets, x.block.Fits)
    (few : packets.length ≤ kChannels) (ended : packets.length = kChannels ∨ Ended rest)
    (here : Holds p.pifRam 0 (packets.flatMap Packet.bytes ++ rest))
    (whole : (packets.flatMap Packet.bytes ++ rest).length = 0x3F) :
    Holds p.processJoybus.1.pifRam 0 (answers p 0 packets ++ rest) := by
  have lengths : (answers p 0 packets ++ rest).length = 0x3F := by
    rw [List.length_append, length_answers, ← List.length_append, whole]
  have listed := (processChannels_answers p packets fits rest kChannels 0 0 0 p.pifRam few ended
    here (by omega)).1
  refine listed.congr fun i _ inside => ?_
  rw [processJoybus_ram]
  exact Function.update_of_ne (by omega) _ _

end Answers

section Store

variable {s t : Sys} {base : U32}

/-- A machine that differs from `s` in RDRAM and the log. -/
def RdramIs (s t : Sys) (m : Bytes) : Prop := t = { s with bus.rdram := m, log := t.log }

theorem RdramIs.rdram {m : Bytes} (h : RdramIs s t m) : t.bus.rdram = m := by
  unfold RdramIs at h
  rw [h]

def fromPif (base : U32) (n : ℕ) (t : Sys) : Sys :=
  upTo (fun i t => t.setRdramByte (start base + BitVec.ofNat 32 i) (t.pif.pifRam i)) n t

theorem fromPif_copies (room : Room s base) {n : ℕ} (le : n ≤ kPifRamSize) :
    RdramIs s (fromPif base n s)
      (fill (fun i => (start base).toNat + i) s.pif.pifRam n s.bus.rdram) := by
  unfold fromPif fill
  refine upTo_sim (RdramIs s) n ?_ fun i inside t m h => ?_
  · rfl
  · unfold Room at room
    have size : t.bus.rdramSize = s.bus.rdramSize := by rw [h]
    have pif : t.pif = s.pif := by rw [h]
    have stored : t.setRdramByte (start base + BitVec.ofNat 32 i) (t.pif.pifRam i) =
        t.pokeRdram ((start base).toNat + i) (s.pif.pifRam i) := by
      rw [Sys.setRdramByte, if_neg (by omega), size, start_add (by omega),
        Nat.mod_eq_of_lt (by omega), pif]
    rw [stored]
    unfold RdramIs at h ⊢
    rw [h]
    rfl

theorem dmaFromPif_eq (addressed : s.bus.si.dramAddr &&& ~~~7 = start base)
    (done : s.pif.processRequested = false) : dmaFromPif s =
      finishDma { ((fromPif base kPifRamSize (setDmaBusy s)).notifyMemoryWrite (start base)
        (BitVec.ofNat 32 kPifRamSize)).mirrorPif with
        bus.si.lastDmaBytes := BitVec.ofNat 32 kPifRamSize } := by
  have idle : runRequested (setDmaBusy s) = setDmaBusy s := by
    unfold runRequested
    rw [show (setDmaBusy s).pif.processRequested = false from done]
    rfl
  have there : (setDmaBusy s).bus.si.dramAddr &&& ~~~7 = start base := addressed
  unfold dmaFromPif fromPif
  dsimp only
  rw [idle, there]

/-- What a poll leaves. -/
structure Polled (s : Sys) (base : U32) (t : Sys) : Prop where
  block : ∀ i < kPifRamSize, block t base i = (answered s base).pifRam i
  others : ∀ k, k < (start base).toNat ∨ (start base).toNat + kPifRamSize ≤ k →
    t.bus.rdram k = s.bus.rdram k
  pending : t.bus.mi.intr &&& MiIntr.SI ≠ 0
  idle : t.bus.si.status &&& StatusDmaBusy = 0

theorem notified_rdram (t : Sys) (a n : U32) :
    ((t.notifyMemoryWrite a n).mirrorPif).bus.rdram = t.bus.rdram := by
  unfold Sys.notifyMemoryWrite
  split <;> rfl

theorem finished_rdram (t : Sys) (n : U32) :
    (finishDma { t with bus.si.lastDmaBytes := n }).bus.rdram = t.bus.rdram := rfl

theorem finished_pending (t : Sys) : (finishDma t).bus.mi.intr &&& MiIntr.SI ≠ 0 := by
  have raised : (finishDma t).bus.mi.intr = t.bus.mi.intr ||| MiIntr.SI := rfl
  have shown : (t.bus.mi.intr ||| MiIntr.SI) &&& MiIntr.SI = MiIntr.SI := by
    ext i hi
    rw [BitVec.getElem_and, BitVec.getElem_or]
    cases t.bus.mi.intr[i] <;> cases MiIntr.SI[i] <;> rfl
  rw [raised, shown]
  decide

theorem finished_idle (t : Sys) : (finishDma t).bus.si.status &&& StatusDmaBusy = 0 := by
  have last : (finishDma t).bus.si.status =
      (t.bus.si.status &&& ~~~StatusDmaBusy) ||| StatusIntr := rfl
  have cleared : t.bus.si.status &&& ~~~StatusDmaBusy &&& StatusDmaBusy = 0 := by
    rw [BitVec.and_assoc, BitVec.and_comm (~~~StatusDmaBusy), BitVec.and_not_self]
    exact BitVec.and_zero
  rw [last, BitVec.and_or_distrib_right, cleared]
  decide

theorem polled (room : Room s base) : Polled s base (poll s base) := by
  have half := answered_toPif room
  unfold poll
  generalize write (write s 0x00 base) 0x10 0 = t at half ⊢
  have addressed : t.bus.si.dramAddr &&& ~~~7 = start base := by
    rw [half.dramAddr]
    rfl
  have done : t.pif.processRequested = false := by
    rw [half.pif]
    exact answered_done s base
  have room' : Room (setDmaBusy t) base := by
    unfold Room
    rw [show (setDmaBusy t).bus.rdramSize = s.bus.rdramSize from half.rdramSize]
    exact room
  rw [write_fromPif, dmaFromPif_eq addressed done]
  have stored := (fromPif_copies room' le_rfl).rdram
  rw [show (setDmaBusy t).pif = answered s base from half.pif,
    show (setDmaBusy t).bus.rdram = s.bus.rdram from half.rdram] at stored
  have final : (finishDma { ((fromPif base kPifRamSize (setDmaBusy t)).notifyMemoryWrite
      (start base) (BitVec.ofNat 32 kPifRamSize)).mirrorPif with
      bus.si.lastDmaBytes := BitVec.ofNat 32 kPifRamSize }).bus.rdram =
      fill (fun i => (start base).toNat + i) (answered s base).pifRam kPifRamSize s.bus.rdram :=
    (finished_rdram _ _).trans ((notified_rdram _ _ _).trans stored)
  refine ⟨fun i inside => ?_, fun k outside => ?_, finished_pending _, finished_idle _⟩
  · unfold block
    rw [final]
    show fill (fun i => (start base).toNat + i) (answered s base).pifRam kPifRamSize s.bus.rdram
      ((fun i => (start base).toNat + i) i) = (answered s base).pifRam i
    exact fill_at_of_injective inside fun j _ same => Nat.add_left_cancel same
  · rw [final]
    exact fill_other fun i inside same => by omega

end Store

section Packets

variable {s : Sys} {base : U32} {packets : List Packet} {rest : List U8}

/-- The block in RDRAM is packets in front of `rest`, and asks to be answered. -/
structure Asks (s : Sys) (base : U32) (packets : List Packet) (rest : List U8) : Prop where
  fits : ∀ x ∈ packets, x.block.Fits
  few : packets.length ≤ kChannels
  ended : packets.length = kChannels ∨ Ended rest
  here : Holds (block s base) 0 (packets.flatMap Packet.bytes ++ rest)
  whole : (packets.flatMap Packet.bytes ++ rest).length = 0x3F
  request : block s base 0x3F &&& kCtrlProcess ≠ 0

theorem Asks.answered (asks : Asks s base packets rest) :
    answered s base = (filled s base).processJoybus.1 := by
  unfold Si.answered
  refine if_pos (bne_iff_ne.mpr ?_)
  show loaded s base 0x3F &&& kCtrlProcess ≠ 0
  rw [loaded_apply (by decide)]
  exact asks.request

theorem poll_answers (room : Room s base) (asks : Asks s base packets rest) :
    Holds (block (poll s base) base) 0 (answers s.pif 0 packets ++ rest) ∧
    block (poll s base) base 0x3F = block s base 0x3F &&& ~~~kCtrlProcess := by
  have after := polled room
  have size : kPifRamSize = 64 := rfl
  have inside : Holds (loaded s base) 0 (packets.flatMap Packet.bytes ++ rest) :=
    asks.here.congr fun i _ below => loaded_apply (by rw [asks.whole] at below; omega)
  have stand := answers_stand (filled s base) asks.fits asks.few asks.ended inside asks.whole
  have same : answers (filled s base) 0 packets = answers s.pif 0 packets :=
    answers_congr (show (filled s base).controllers = s.pif.controllers from rfl) 0 packets
  rw [same] at stand
  have lengths : (answers s.pif 0 packets ++ rest).length = 0x3F := by
    rw [List.length_append, length_answers, ← List.length_append, asks.whole]
  refine ⟨stand.congr fun i _ below => ?_, ?_⟩
  · rw [after.block i (by omega), asks.answered]
  · rw [after.block 0x3F (by decide), asks.answered, control_after]
    exact congrArg (· &&& ~~~kCtrlProcess) (loaded_apply (i := 0x3F) (by decide))

def readReply (pad : ControllerState) : List U8 :=
  [0x01, 0x04, 0x01, (pad.buttons >>> 8).setWidth 8, pad.buttons.setWidth 8, pad.stickX, pad.stickY]

theorem read_answer (p : Pif) (n : ℕ) {rx : List U8} (four : rx.length = 4) (more : List Packet)
    (present : (p.controller 0).present = true) :
    answers p 0 (⟨n, .command [JoybusCmd.Controller] rx⟩ :: more) =
      List.replicate n 0xFF ++ (readReply (p.controller 0) ++ answers p 1 more) := by
  have block : Block.answer (p.controller 0) (.command [JoybusCmd.Controller] rx) =
      readReply (p.controller 0) := by
    simp only [Block.answer, Block.reply, present, Bool.not_true, List.headD_cons, four]
    rfl
  simp only [answers, Packet.answer, block, List.append_assoc]

theorem applyTo_controller (m : InputMapper) (p : Pif) : (m.applyTo p).controller 0 = m.state := by
  unfold InputMapper.applyTo setController
  have first : 0 < kChannels := by decide
  rw [dif_pos first, controller, dif_pos first]
  exact Function.update_self (⟨0, first⟩ : Fin 4) m.state p.controllers

end Packets

section Input

open InputMapper

variable {s : Sys} {base : U32} {packets : List Packet} {rest : List U8}

/-- The machine once the frontend has applied what the events came to. -/
def applied (events : List InputEvent) (s : Sys) : Sys :=
  { s with pif := (Runs.run onEvent events {}).applyTo s.pif }

/-- A poll reads where the controls were last left, and disturbs nothing else. -/
theorem poll_reads_input (events : List InputEvent) (s : Sys) (base : U32)
    (packets : List Packet) (rest : List U8) (room : Room (applied events s) base)
    (asks : Asks (applied events s) base packets rest) :
    let t := poll (applied events s) base
    Holds (block t base) 0 (answers (applied events s).pif 0 packets ++ rest) ∧
    block t base 0x3F = block s base 0x3F &&& ~~~1 ∧
    (∀ k, k < (start base).toNat ∨ (start base).toNat + kPifRamSize ≤ k →
      t.bus.rdram k = s.bus.rdram k) ∧
    t.bus.mi.intr &&& MiIntr.SI ≠ 0 ∧ t.bus.si.status &&& StatusDmaBusy = 0 ∧
    ∀ n rx more, packets = ⟨n, .command [JoybusCmd.Controller] rx⟩ :: more → rx.length = 4 →
      (∀ b : Button, join16 (block t base (n + 3)) (block t base (n + 4)) &&& b.mask ≠ 0 ↔
        (positions events).Pressed b) ∧
      ((block t base (n + 5)).toInt, (block t base (n + 6)).toInt) = (positions events).stick := by
  intro t
  have after := polled room
  obtain ⟨stand, control⟩ := poll_answers room asks
  refine ⟨stand, control, after.others, after.pending, after.idle, ?_⟩
  rintro n rx more rfl four
  have tracks := tracks_run events
  have pad : (applied events s).pif.controller 0 = (Runs.run onEvent events {}).state :=
    applyTo_controller _ _
  have present : ((applied events s).pif.controller 0).present = true := by
    rw [pad]
    unfold state
    dsimp only
    split <;> rfl
  rw [read_answer _ n four more present, pad, List.append_assoc] at stand
  obtain ⟨-, behind⟩ := holds_append.mp stand
  rw [List.length_replicate, List.append_assoc] at behind
  obtain ⟨⟨-, -, -, high, low, x, y, -⟩, -⟩ := holds_append.mp behind
  simp only [Nat.zero_add, Nat.add_assoc] at high low x y
  refine ⟨fun b => ?_, ?_⟩
  · rw [show block t base (n + 3) = _ from high, show block t base (n + 4) = _ from low]
    exact (iff_of_eq (congrArg (fun v => v &&& b.mask ≠ 0) (Rdp.join16_bytes _))).trans
      (tracks.pressed b)
  · rw [show block t base (n + 5) = _ from x, show block t base (n + 6) = _ from y]
    exact tracks.stick (axes_range events)

/-- A read of the first controller at 256, with two keys held. -/
theorem poll_reads_input_held :
    let s : Sys := { bus := { rdram := fun i => if i = 0x13F then 1 else
      [0x01, 0x04, 0x01, 0xFF, 0xFF, 0xFF, 0xFF, 0xFE].getD (i - 0x100) 0x00 } }
    let events := [.key .Z true false, .key .W true false]
    let t := poll (applied events s) 0x100
    ∀ b : Button, join16 (block t 0x100 (0 + 3)) (block t 0x100 (0 + 4)) &&& b.mask ≠ 0 ↔
      (positions events).Pressed b := by
  intro s events t
  let packets : List Packet := [⟨0, .command [0x01] [0xFF, 0xFF, 0xFF, 0xFF]⟩]
  let rest : List U8 := 0xFE :: List.replicate 55 0x00
  have asks : Asks (applied events s) 0x100 packets rest := by
    refine ⟨by simp [packets, Block.Fits], by decide, Or.inr (Or.inr ⟨0, _, rfl⟩), ?_, by decide,
      by decide⟩
    exact (map_range_eq_iff (by decide)).mp
      (show (List.range 0x3F).map (block (applied events s) 0x100) = _ by decide +kernel)
  exact ((poll_reads_input events s 0x100 packets rest (by unfold Room; decide) asks).2.2.2.2.2
    0 _ [] rfl (by decide)).1

end Input

end N64.Si
