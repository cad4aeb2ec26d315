import N64Emu.Joybus

/-!
# Joybus packets

A PIF RAM that is laid out as channel blocks, and what the answers make of it:
the reader walks the blocks one by one, and a reply stays inside its block.
-/

set_option autoImplicit false

namespace N64.Pif

open Words Loops

/-- The bytes `bs` stand in `ram` from `off` on. -/
def Holds (ram : Bytes) : ℕ → List U8 → Prop
  | _, [] => True
  | off, b :: bs => ram off = b ∧ Holds ram (off + 1) bs

inductive Block where
  | skip
  | command (tx rx : List U8)

namespace Block

def Fits : Block → Prop
  | skip => True
  | command tx rx => 1 ≤ tx.length ∧ tx.length ≤ 63 ∧ rx.length ≤ 63

/-- `00 00`, or the two lengths, the transmit bytes and the receive bytes. -/
def bytes : Block → List U8
  | skip => [0x00, 0x00]
  | command tx rx => BitVec.ofNat 8 tx.length :: BitVec.ofNat 8 rx.length :: (tx ++ rx)

def reply (pad : ControllerState) (tx rx : List U8) : List U8 :=
  let cmd := tx.headD 0
  if !pad.present then List.replicate rx.length 0
  else if cmd = JoybusCmd.Controller then
    if 4 ≤ rx.length then
      [(pad.buttons >>> 8).setWidth 8, pad.buttons.setWidth 8, pad.stickX, pad.stickY] ++
        List.replicate (rx.length - 4) 0
    else rx
  else if cmd = JoybusCmd.Info ∨ cmd = JoybusCmd.Reset then
    if 3 ≤ rx.length then
      [kControllerType.setWidth 8, (kControllerType >>> 8).setWidth 8, kControllerStatus] ++
        List.replicate (rx.length - 3) 0
    else rx
  else List.replicate rx.length 0

def answer (pad : ControllerState) : Block → List U8
  | skip => [0x00, 0x00]
  | command tx rx =>
    let rlen : U8 := BitVec.ofNat 8 rx.length
    BitVec.ofNat 8 tx.length :: (if pad.present then rlen else rlen ||| 0x80) ::
      (tx ++ reply pad tx rx)

end Block

/-- A block behind its padding. -/
structure Packet where
  padding : ℕ
  block : Block

namespace Packet

def bytes (x : Packet) : List U8 := List.replicate x.padding 0xFF ++ x.block.bytes

def answer (pad : ControllerState) (x : Packet) : List U8 :=
  List.replicate x.padding 0xFF ++ x.block.answer pad

end Packet

/-- The packets answered by the controllers from channel `ch` on. -/
def answers (p : Pif) : ℕ → List Packet → List U8
  | _, [] => []
  | ch, x :: xs => x.answer (p.controller ch) ++ answers p (ch + 1) xs

/-- Behind the last packet comes padding to the end or a terminator. -/
def Ended (rest : List U8) : Prop :=
  (∃ n, rest = List.replicate n 0xFF) ∨ ∃ n tail, rest = List.replicate n 0xFF ++ 0xFE :: tail

section Holds

variable {ram ram' : Bytes} {off : ℕ} {xs ys : List U8}

theorem holds_append : Holds ram off (xs ++ ys) ↔
    Holds ram off xs ∧ Holds ram (off + xs.length) ys := by
  induction xs generalizing off with
  | nil => simp [Holds]
  | cons x xs ih =>
    simp only [List.cons_append, Holds, ih, List.length_cons, and_assoc]
    rw [show off + 1 + xs.length = off + (xs.length + 1) by omega]

theorem Holds.congr (h : Holds ram off xs)
    (same : ∀ i, off ≤ i → i < off + xs.length → ram' i = ram i) : Holds ram' off xs := by
  induction xs generalizing off with
  | nil => trivial
  | cons x xs ih =>
    refine ⟨(same off le_rfl (by simp)).trans h.1, ih h.2 fun i low high => ?_⟩
    exact same i (by omega) (by simp only [List.length_cons]; omega)

theorem holds_replicate {n : ℕ} {b : U8} :
    Holds ram off (List.replicate n b) ↔ ∀ i, off ≤ i → i < off + n → ram i = b := by
  induction n generalizing off with
  | zero => simp only [List.replicate_zero, Holds, true_iff]; omega
  | succ n ih =>
    rw [List.replicate_succ, Holds, ih]
    constructor
    · rintro ⟨first, later⟩ i low high
      by_cases here : i = off
      · rw [here, first]
      · exact later i (by omega) (by omega)
    · intro all
      exact ⟨all off le_rfl (by omega), fun i low high => all i (by omega) (by omega)⟩

theorem holds_range (ram : Bytes) (off n : ℕ) : Holds ram off ((List.range' off n).map ram) := by
  induction n generalizing off with
  | zero => trivial
  | succ n ih => exact ⟨rfl, ih (off + 1)⟩

theorem Holds.map_range' (h : Holds ram off xs) : (List.range' off xs.length).map ram = xs := by
  induction xs generalizing off with
  | nil => rfl
  | cons x xs ih =>
    rw [List.length_cons, List.range'_succ, List.map_cons, h.1, ih h.2]

/-- The first `n` bytes of a memory, as a list and one by one. -/
theorem map_range_eq_iff {n : ℕ} (len : xs.length = n) :
    (List.range n).map ram = xs ↔ Holds ram 0 xs := by
  subst len
  rw [List.range_eq_range']
  constructor
  · intro same
    rw [← same]
    simpa using holds_range ram 0 xs.length
  · exact Holds.map_range'

end Holds

section Loops

variable (ram : Bytes)

theorem fillZero_apply (first last i : ℕ) :
    fillZero ram first last i = if first ≤ i ∧ i < last then 0 else ram i := by
  have upTo_apply : ∀ n, upTo (fun i (m : Bytes) => Function.update m (first + i) 0) n ram i =
      if first ≤ i ∧ i < first + n then 0 else ram i := by
    intro n
    induction n with
    | zero =>
      rw [upTo_zero, if_neg]
      omega
    | succ n ih =>
      rw [upTo_succ, Function.update_apply, ih]
      split_ifs <;> first | rfl | omega
  rw [fillZero, upTo_apply]
  split_ifs <;> first | rfl | omega

theorem skipPadding_eq {cursor n : ℕ} (padding : Holds ram cursor (List.replicate n 0xFF))
    (inside : cursor + n ≤ 0x3F) (stop : cursor + n = 0x3F ∨ ram (cursor + n) ≠ 0xFF) :
    skipPadding ram cursor = cursor + n := by
  have loop : ∀ fuel n c, n ≤ fuel → Holds ram c (List.replicate n 0xFF) → c + n ≤ 0x3F →
      (c + n = 0x3F ∨ ram (c + n) ≠ 0xFF) →
      whileDo (fun c => decide (c < 0x3F) && ram c == 0xFF) (· + 1) fuel c = c + n := by
    intro fuel
    induction fuel with
    | zero =>
      intro n c enough _ _ _
      rw [whileDo]
      omega
    | succ fuel ih =>
      intro n c enough padding inside stop
      cases n with
      | zero =>
        rw [whileDo, if_neg]
        · rfl
        · rcases stop with last | other
          · simp [show ¬ c < 0x3F by omega]
          · simp only [Nat.add_zero] at other
            simp only [Bool.and_eq_true, beq_iff_eq]
            exact fun both => other both.2
      | succ n =>
        rw [List.replicate_succ, Holds] at padding
        rw [whileDo, if_pos (by simp [padding.1, show c < 0x3F by omega])]
        rw [ih n (c + 1) (by omega) padding.2 (by omega)]
        · omega
        · rw [show c + 1 + n = c + (n + 1) by omega]
          exact stop
  exact loop 0x3F n cursor (by omega) padding inside stop

end Loops

section Reply

variable {ram : Bytes} {pad : ControllerState} {off : ℕ} {tx rx : List U8}

theorem holds_fillZero (ram : Bytes) {first last n : ℕ} (len : first + n = last) :
    Holds (fillZero ram first last) first (List.replicate n 0) := by
  rw [holds_replicate]
  intro i low high
  rw [fillZero_apply, if_pos (by omega)]

theorem respond_outside {cmd : U8} {n i : ℕ} (outside : i < off ∨ off + n ≤ i) :
    respond ram pad cmd off n i = ram i := by
  unfold respond
  split_ifs
  · simp only [fillZero_apply, Function.update_apply]
    split_ifs <;> first | rfl | omega
  · rfl
  · simp only [fillZero_apply, Function.update_apply]
    split_ifs <;> first | rfl | omega
  · rfl
  · rw [fillZero_apply, if_neg (by omega)]

theorem respond_holds (present : pad.present = true) (old : Holds ram off rx) :
    Holds (respond ram pad (tx.headD 0) off rx.length) off (Block.reply pad tx rx) := by
  have apart : JoybusCmd.Controller ≠ JoybusCmd.Info ∧ JoybusCmd.Controller ≠ JoybusCmd.Reset := by
    decide
  simp only [respond, Block.reply, present, Bool.not_true, Bool.false_eq_true, if_false]
  by_cases info : tx.headD 0 = JoybusCmd.Info ∨ tx.headD 0 = JoybusCmd.Reset
  · have other : tx.headD 0 ≠ JoybusCmd.Controller := by
      rintro same
      rw [same] at info
      exact info.elim apart.1 apart.2
    rw [if_pos info, if_neg other, if_pos info]
    by_cases long : 3 ≤ rx.length
    · rw [if_pos long, if_pos long]
      refine ⟨?_, ?_, ?_, ?_⟩
      · simp [fillZero_apply]
      · simp [fillZero_apply]
      · simp [fillZero_apply]
      · exact holds_fillZero _ (by omega)
    · rw [if_neg long, if_neg long]
      exact old
  · rw [if_neg info]
    by_cases controller : tx.headD 0 = JoybusCmd.Controller
    · rw [if_pos controller, if_pos controller]
      by_cases long : 4 ≤ rx.length
      · rw [if_pos long, if_pos long]
        refine ⟨?_, ?_, ?_, ?_, ?_⟩
        · simp [fillZero_apply]
        · simp [fillZero_apply]
        · simp [fillZero_apply]
        · simp [fillZero_apply]
        · exact holds_fillZero _ (by omega)
      · rw [if_neg long, if_neg long]
        exact old
    · rw [if_neg controller, if_neg controller, if_neg info]
      exact holds_fillZero _ rfl

end Reply

section Channel

variable {ram : Bytes} {pad : ControllerState} {cursor : ℕ} {x : Packet}

theorem small_and {n : ℕ} (small : n ≤ 63) : BitVec.ofNat 8 n &&& 0x3F = BitVec.ofNat 8 n := by
  apply BitVec.eq_of_toNat_eq
  rw [BitVec.toNat_and, BitVec.toNat_ofNat, show (0x3F : U8).toNat = 2 ^ 6 - 1 from rfl,
    Nat.and_two_pow_sub_one_eq_mod]
  omega

theorem small_toNat {n : ℕ} (small : n ≤ 63) : (BitVec.ofNat 8 n).toNat = n := by
  rw [BitVec.toNat_ofNat]
  omega

theorem small_ne {n m : ℕ} (small : n ≤ 63) (other : n ≠ m) (bound : m < 256) :
    BitVec.ofNat 8 n ≠ BitVec.ofNat 8 m := by
  intro same
  have value := congrArg BitVec.toNat same
  rw [BitVec.toNat_ofNat, BitVec.toNat_ofNat] at value
  omega

theorem Block.length_answer (pad : ControllerState) (b : Block) :
    (b.answer pad).length = b.bytes.length := by
  cases b with
  | skip => rfl
  | command tx rx =>
    simp only [answer, bytes, reply, List.length_cons, List.length_append]
    split_ifs <;> simp <;> omega

theorem Block.length_command (tx rx : List U8) :
    (Block.command tx rx).bytes.length = 2 + tx.length + rx.length := by
  simp only [Block.bytes, List.length_cons, List.length_append]
  omega

theorem holds_command {tx rx : List U8} (here : Holds ram cursor (Block.command tx rx).bytes) :
    ram cursor = BitVec.ofNat 8 tx.length ∧ ram (cursor + 1) = BitVec.ofNat 8 rx.length ∧
      Holds ram (cursor + 2) tx ∧ Holds ram (cursor + 2 + tx.length) rx := by
  simp only [Block.bytes, Holds] at here
  obtain ⟨tlen, rlen, payload⟩ := here
  exact ⟨tlen, rlen, holds_append.mp payload⟩

/-- What the code leaves of a command with `rlen` receive bytes at `rxOff`. -/
def commandRam (pad : ControllerState) (ram : Bytes) (cursor : ℕ) (cmd : U8) (rxOff rlen : ℕ) :
    Bytes :=
  let lengths := Function.update ram (cursor + 1) (BitVec.ofNat 8 rlen)
  if !pad.present then
    fillZero (Function.update lengths (cursor + 1) (BitVec.ofNat 8 rlen ||| 0x80)) rxOff
      (rxOff + rlen)
  else respond lengths pad cmd rxOff rlen

theorem commandRam_outside {cmd : U8} {rxOff rlen i : ℕ} (other : i ≠ cursor + 1)
    (outside : i < rxOff ∨ rxOff + rlen ≤ i) :
    commandRam pad ram cursor cmd rxOff rlen i = ram i := by
  unfold commandRam
  split_ifs
  · rw [fillZero_apply, if_neg (by omega), Function.update_of_ne other,
      Function.update_of_ne other]
  · rw [respond_outside outside, Function.update_of_ne other]

theorem commandRam_flags {cmd : U8} {rxOff rlen : ℕ} (before : cursor + 1 < rxOff) :
    commandRam pad ram cursor cmd rxOff rlen (cursor + 1) =
      if pad.present then BitVec.ofNat 8 rlen else BitVec.ofNat 8 rlen ||| 0x80 := by
  unfold commandRam
  cases pad.present with
  | true =>
    simp only [Bool.not_true, Bool.false_eq_true, if_false, if_true]
    rw [respond_outside (Or.inl before), Function.update_self]
  | false =>
    simp only [Bool.not_false, if_true, Bool.false_eq_true, if_false]
    rw [fillZero_apply, if_neg (by omega), Function.update_self]

theorem commandRam_reply {tx rx : List U8} {rxOff : ℕ} (before : cursor + 1 < rxOff)
    (old : Holds ram rxOff rx) :
    Holds (commandRam pad ram cursor (tx.headD 0) rxOff rx.length) rxOff
      (Block.reply pad tx rx) := by
  unfold commandRam
  by_cases present : pad.present = true
  · rw [if_neg (by simp [present])]
    refine respond_holds present (old.congr fun i low high => ?_)
    exact Function.update_of_ne (by omega) _ _
  · rw [if_pos (by simp [present])]
    simp only [Block.reply, present, Bool.not_false, if_true]
    exact holds_fillZero _ rfl

theorem processChannel_at (pad : ControllerState) {tx rx : List U8}
    (fits : (Block.command tx rx).Fits)
    (unpadded : skipPadding ram cursor = cursor)
    (here : Holds ram cursor (Block.command tx rx).bytes)
    (inside : cursor + 2 + tx.length + rx.length ≤ 0x3F) :
    processChannel pad ram cursor =
      (true, commandRam pad ram cursor (tx.headD 0) (cursor + 2 + tx.length) rx.length,
        cursor + 2 + tx.length + rx.length) := by
  obtain ⟨nonempty, txFits, rxFits⟩ := fits
  obtain ⟨tlen, rlen, sent, -⟩ := holds_command here
  have command : ram (cursor + 2) = tx.headD 0 := by
    cases tx with
    | nil => simp at nonempty
    | cons b bs => exact sent.1
  have ended : ¬ cursor ≥ 0x3F ∧ ¬ cursor + 1 ≥ 0x3F := by omega
  have notEnd : BitVec.ofNat 8 tx.length ≠ 0xFE :=
    small_ne (m := 0xFE) txFits (by omega) (by decide)
  have notZero : BitVec.ofNat 8 tx.length ≠ 0x00 :=
    small_ne (m := 0x00) txFits (by omega) (by decide)
  have notReset : BitVec.ofNat 8 tx.length ≠ 0xFD :=
    small_ne (m := 0xFD) txFits (by omega) (by decide)
  have room : ¬ cursor + 2 + tx.length + rx.length > 0x3F := by omega
  simp only [processChannel, unpadded, if_neg ended.1, if_neg ended.2, tlen, rlen, if_neg notEnd,
    if_neg notZero, if_neg notReset, small_and txFits, small_and rxFits, small_toNat txFits,
    small_toNat rxFits, if_neg room, if_pos (show tx.length > 0 by omega), command, commandRam]
  split_ifs <;> rfl

theorem processChannel_command {tx rx : List U8} (fits : (Block.command tx rx).Fits)
    (unpadded : skipPadding ram cursor = cursor)
    (here : Holds ram cursor (Block.command tx rx).bytes)
    (inside : cursor + (Block.command tx rx).bytes.length ≤ 0x3F) :
    ∃ ram', processChannel pad ram cursor =
        (true, ram', cursor + (Block.command tx rx).bytes.length) ∧
      Holds ram' cursor ((Block.command tx rx).answer pad) ∧
      ∀ i, i < cursor ∨ cursor + (Block.command tx rx).bytes.length ≤ i → ram' i = ram i := by
  rw [Block.length_command] at inside ⊢
  obtain ⟨tlen, -, sent, received⟩ := holds_command here
  have done := processChannel_at pad fits unpadded here (by omega)
  have ends : cursor + 2 + tx.length + rx.length = cursor + (2 + tx.length + rx.length) := by omega
  rw [ends] at done
  refine ⟨_, done, ⟨?_, ?_, ?_⟩, fun i outside => ?_⟩
  · exact (commandRam_outside (by omega) (by omega)).trans tlen
  · exact commandRam_flags (by omega)
  · refine holds_append.mpr ⟨sent.congr fun i low high => ?_, commandRam_reply (by omega) received⟩
    exact commandRam_outside (by omega) (by omega)
  · exact commandRam_outside (by omega) (by omega)

theorem processChannel_block {b : Block} (fits : b.Fits)
    (unpadded : skipPadding ram cursor = cursor)
    (here : Holds ram cursor b.bytes) (inside : cursor + b.bytes.length ≤ 0x3F) :
    ∃ ram', processChannel pad ram cursor = (true, ram', cursor + b.bytes.length) ∧
      Holds ram' cursor (b.answer pad) ∧
      ∀ i, i < cursor ∨ cursor + b.bytes.length ≤ i → ram' i = ram i := by
  cases b with
  | command tx rx => exact processChannel_command fits unpadded here inside
  | skip =>
    simp only [Block.bytes, List.length_cons, List.length_nil] at inside ⊢
    refine ⟨ram, ?_, here, fun _ _ => rfl⟩
    simp only [processChannel, unpadded, here.1, here.2.1, if_neg (show ¬ cursor ≥ 0x3F by omega)]
    rw [if_neg (by decide), if_pos trivial, if_pos ⟨by omega, trivial⟩]

theorem Block.head_ne {b : Block} (fits : b.Fits) (here : Holds ram cursor b.bytes) :
    ram cursor ≠ 0xFF := by
  cases b with
  | skip =>
    rw [here.1]
    decide
  | command tx rx =>
    rw [here.1]
    exact small_ne (m := 0xFF) fits.2.1 (by have := fits.2.1; omega) (by decide)

theorem Block.length_pos (b : Block) : 2 ≤ b.bytes.length := by
  cases b <;> simp [bytes]

theorem processChannel_skip (ram : Bytes) (cursor : ℕ)
    (settled : skipPadding ram (skipPadding ram cursor) = skipPadding ram cursor) :
    processChannel pad ram cursor = processChannel pad ram (skipPadding ram cursor) := by
  simp only [processChannel, settled]

theorem processChannel_packet (fits : x.block.Fits) (here : Holds ram cursor x.bytes)
    (inside : cursor + x.bytes.length ≤ 0x3F) :
    ∃ ram', processChannel pad ram cursor = (true, ram', cursor + x.bytes.length) ∧
      Holds ram' cursor (x.answer pad) ∧
      ∀ i, i < cursor ∨ cursor + x.bytes.length ≤ i → ram' i = ram i := by
  obtain ⟨padding, block⟩ := holds_append.mp here
  rw [List.length_replicate] at block
  have total : x.bytes.length = x.padding + x.block.bytes.length := by simp [Packet.bytes]
  have head := Block.head_ne fits block
  have two := x.block.length_pos
  have skipped : skipPadding ram cursor = cursor + x.padding :=
    skipPadding_eq ram padding (by omega) (Or.inr head)
  have settled : skipPadding ram (cursor + x.padding) = cursor + x.padding :=
    skipPadding_eq ram (n := 0) trivial (by omega) (Or.inr head)
  obtain ⟨ram', result, answered, outside⟩ :=
    @processChannel_block ram pad (cursor + x.padding) x.block fits settled block (by omega)
  refine ⟨ram', ?_, ?_, fun i h => outside i (by omega)⟩
  · rw [processChannel_skip ram cursor (by rw [skipped, settled]), skipped, result, total,
      Nat.add_assoc]
  · refine holds_append.mpr ⟨?_, ?_⟩
    · refine padding.congr fun i low high => outside i ?_
      rw [List.length_replicate] at high
      exact Or.inl high
    · rw [List.length_replicate]
      exact answered

end Channel

section Channels

variable (p : Pif)

theorem processChannel_ended {ram : Bytes} {cursor : ℕ} {rest : List U8} (pad : ControllerState)
    (ended : Ended rest) (here : Holds ram cursor rest) (whole : cursor + rest.length = 0x3F) :
    ∃ cursor', processChannel pad ram cursor = (false, ram, cursor') := by
  rcases ended with ⟨n, rfl⟩ | ⟨n, tail, rfl⟩
  · rw [List.length_replicate] at whole
    have skipped := skipPadding_eq ram here (by omega) (Or.inl whole)
    refine ⟨cursor + n, ?_⟩
    simp only [processChannel, skipped]
    rw [if_pos (by omega)]
  · obtain ⟨padding, terminator⟩ := holds_append.mp here
    rw [List.length_replicate] at terminator
    simp only [List.length_append, List.length_replicate, List.length_cons] at whole
    have skipped : skipPadding ram cursor = cursor + n := by
      refine skipPadding_eq ram padding (by omega) (Or.inr ?_)
      rw [terminator.1]
      decide
    refine ⟨cursor + n, ?_⟩
    simp only [processChannel, skipped, terminator.1]
    rw [if_neg (by omega), if_pos trivial]

theorem Packet.length_answer (pad : ControllerState) (x : Packet) :
    (x.answer pad).length = x.bytes.length := by
  simp [Packet.answer, Packet.bytes, Block.length_answer]

theorem length_answers (ch : ℕ) (packets : List Packet) :
    (answers p ch packets).length = (packets.flatMap Packet.bytes).length := by
  induction packets generalizing ch with
  | nil => rfl
  | cons x xs ih => simp [answers, Packet.length_answer, ih]

theorem processChannels_answers (packets : List Packet) (fits : ∀ x ∈ packets, x.block.Fits)
    (rest : List U8) (left ch answered cursor : ℕ) (ram : Bytes) (few : packets.length ≤ left)
    (ended : packets.length = left ∨ Ended rest)
    (here : Holds ram cursor (packets.flatMap Packet.bytes ++ rest))
    (whole : cursor + (packets.flatMap Packet.bytes ++ rest).length = 0x3F) :
    Holds (processChannels p left ch ram cursor answered).1 cursor (answers p ch packets ++ rest) ∧
      ∀ i, i < cursor → (processChannels p left ch ram cursor answered).1 i = ram i := by
  induction packets generalizing left ch answered cursor ram with
  | nil =>
    cases left with
    | zero => exact ⟨here, fun _ _ => rfl⟩
    | succ left =>
      have atEnd : Ended rest := ended.resolve_left (by simp)
      obtain ⟨cursor', stopped⟩ := processChannel_ended (p.controller ch) atEnd here whole
      rw [processChannels, stopped]
      exact ⟨here, fun _ _ => rfl⟩
  | cons x xs ih =>
    cases left with
    | zero => simp at few
    | succ left =>
      rw [List.flatMap_cons, List.append_assoc] at here whole
      rw [List.length_append] at whole
      obtain ⟨packet, later⟩ := holds_append.mp here
      obtain ⟨ram', result, reply, outside⟩ := @processChannel_packet ram (p.controller ch) cursor x
        (fits x (by simp)) packet (by omega)
      have behind : Holds ram' (cursor + x.bytes.length) (xs.flatMap Packet.bytes ++ rest) :=
        later.congr fun i low _ => outside i (Or.inr low)
      rw [processChannels, result, answers, List.append_assoc]
      dsimp only
      generalize (if cursor + x.bytes.length ≠ cursor then answered + 1 else answered) = answered'
      by_cases full : cursor + x.bytes.length ≥ 0x3F
      · rw [if_pos full]
        have nothing : answers p (ch + 1) xs ++ rest = [] := by
          apply List.eq_nil_of_length_eq_zero
          rw [List.length_append, length_answers, ← List.length_append]
          omega
        refine ⟨?_, fun i before => outside i (Or.inl before)⟩
        rw [nothing, List.append_nil]
        exact reply
      · rw [if_neg full]
        obtain ⟨replies, unchanged⟩ := ih (fun y member => fits y (by simp [member])) left (ch + 1)
          answered' (cursor + x.bytes.length) ram' (by simpa using few)
          (by simpa using ended) behind (by omega)
        refine ⟨holds_append.mpr ⟨?_, ?_⟩, fun i before => ?_⟩
        · refine reply.congr fun i low high => unchanged i ?_
          rwa [Packet.length_answer] at high
        · rw [Packet.length_answer]
          exact replies
        · rw [unchanged i (by omega), outside i (Or.inl before)]

/-- Block `k` is answered from controller `k`, and the rest of the bytes below
the control byte stands as it was. -/
theorem processJoybus_answers (packets : List Packet) (rest : List U8)
    (fits : ∀ x ∈ packets, x.block.Fits) (few : packets.length ≤ kChannels)
    (ended : packets.length = kChannels ∨ Ended rest)
    (here : (List.range 0x3F).map p.pifRam = packets.flatMap Packet.bytes ++ rest) :
    (List.range 0x3F).map p.processJoybus.1.pifRam = answers p 0 packets ++ rest := by
  have whole : (packets.flatMap Packet.bytes ++ rest).length = 0x3F := by
    rw [← here, List.length_map, List.length_range]
  have lengths : (answers p 0 packets ++ rest).length = 0x3F := by
    rw [List.length_append, length_answers, ← List.length_append, whole]
  have answered := (processChannels_answers p packets fits rest kChannels 0 0 0 p.pifRam few ended
    ((map_range_eq_iff whole).mp here) (by omega)).1
  refine (map_range_eq_iff lengths).mpr (answered.congr fun i _ inside => ?_)
  exact Function.update_of_ne (by omega) _ _

/-- A pad that is read, a skip, an absent channel behind two padding bytes,
and the terminator. -/
theorem processJoybus_answers_three :
    let p : Pif := {
      controllers :=
        fun i => { buttons := 0x8020, stickX := 0x11, stickY := 0x22, present := i == 0 }
      pifRam := fun i => [0x01, 0x04, 0x01, 0xAA, 0xAA, 0xAA, 0xAA, 0x00, 0x00, 0xFF, 0xFF,
        0x01, 0x03, 0x00, 0xAA, 0xAA, 0xAA, 0xFE].getD i 0xAA }
    (List.range 0x3F).map p.processJoybus.1.pifRam =
      [0x01, 0x04, 0x01, 0x80, 0x20, 0x11, 0x22, 0x00, 0x00, 0xFF, 0xFF,
        0x01, 0x83, 0x00, 0x00, 0x00, 0x00, 0xFE] ++ List.replicate 45 0xAA := by
  intro p
  let packets : List Packet :=
    [⟨0, .command [0x01] [0xAA, 0xAA, 0xAA, 0xAA]⟩, ⟨0, .skip⟩,
      ⟨2, .command [0x00] [0xAA, 0xAA, 0xAA]⟩]
  have reads : (List.range 0x3F).map p.pifRam =
      packets.flatMap Packet.bytes ++ 0xFE :: List.replicate 45 0xAA := by
    decide +kernel
  have answered := processJoybus_answers p packets _ (by simp [packets, Block.Fits]) (by decide)
    (Or.inr (Or.inr ⟨0, _, rfl⟩)) reads
  exact answered.trans (by decide +kernel)

end Channels

end N64.Pif
