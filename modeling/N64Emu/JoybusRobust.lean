import N64Emu.JoybusSlots
import N64Emu.CheckedMemory

/-!
# Robustness of the joybus

`process_joybus` over any PIF RAM: the same program with every access checked and
every loop bounded has a result, the cursor only moves on, the bytes that were sent
stay, and a second pass finds what the first one left.
-/

set_option autoImplicit false

namespace N64.Pif

open Words Loops CheckedMemory

section Checked

def respondChecked (pad : ControllerState) (cmd : U8) (rxOff rlen : ℕ) : Program U8 Unit :=
  if cmd = JoybusCmd.Info ∨ cmd = JoybusCmd.Reset then
    if rlen ≥ 3 then do
      store 64 (rxOff + 0) (kControllerType.setWidth 8)
      store 64 (rxOff + 1) ((kControllerType >>> 8).setWidth 8)
      store 64 (rxOff + 2) kControllerStatus
      fill 64 rxOff 0 rlen 64 3
    else pure ()
  else if cmd = JoybusCmd.Controller then
    if rlen ≥ 4 then do
      store 64 (rxOff + 0) ((pad.buttons >>> 8).setWidth 8)
      store 64 (rxOff + 1) (pad.buttons.setWidth 8)
      store 64 (rxOff + 2) pad.stickX
      store 64 (rxOff + 3) pad.stickY
      fill 64 rxOff 0 rlen 64 4
    else pure ()
  else fill 64 rxOff 0 rlen 64 0

def commandChecked (txOff tlen : ℕ) : Program U8 U8 :=
  if tlen > 0 then load 64 txOff else pure 0x00

/-- `process_channel` with its accesses to the 64 bytes checked. -/
def processChannelChecked (pad : ControllerState) (cursor : ℕ) : Program U8 (Bool × ℕ) := do
  let cursor ← seek 64 (· == 0xFF) 0x3F 64 cursor
  if cursor ≥ 0x3F then pure (false, cursor)
  else do
    let first ← load 64 cursor
    if first = 0xFE then pure (false, cursor)
    else do
      let tlen ← load 64 cursor
      if tlen = 0x00 then do
        if cursor + 1 < 0x3F then do
          let second ← load 64 (cursor + 1)
          if second = 0x00 then pure (true, cursor + 2) else pure (true, cursor + 1)
        else pure (true, cursor + 1)
      else if tlen = 0xFD then pure (true, cursor + 1)
      else if cursor + 1 ≥ 0x3F then pure (false, cursor)
      else do
        let rlen ← load 64 (cursor + 1)
        let rlenBytes := rlen &&& 0x3F
        let tlenBytes := tlen &&& 0x3F
        let txOff := cursor + 2
        let rxOff := txOff + tlenBytes.toNat
        if rxOff + rlenBytes.toNat > 0x3F then pure (false, cursor)
        else do
          let cmd ← commandChecked txOff tlenBytes.toNat
          store 64 (cursor + 1) rlenBytes
          if !pad.present then do
            store 64 (cursor + 1) (rlenBytes ||| 0x80)
            fill 64 rxOff 0 rlenBytes.toNat 64 0
            pure (true, rxOff + rlenBytes.toNat)
          else do
            respondChecked pad cmd rxOff rlenBytes.toNat
            pure (true, rxOff + rlenBytes.toNat)

def processChannelsChecked (p : Pif) : ℕ → ℕ → ℕ → ℕ → Program U8 ℕ
  | 0, _, _, answered => pure answered
  | left+1, ch, cursor, answered => do
    let (going, cursor') ← processChannelChecked (p.controller ch) cursor
    if !going then pure answered
    else
      let answered := if cursor' ≠ cursor then answered + 1 else answered
      if cursor' ≥ 0x3F then pure answered
      else processChannelsChecked p left (ch + 1) cursor' answered

/-- `process_joybus` with its accesses checked. -/
def processJoybusChecked (p : Pif) : Program U8 ℕ := do
  let answered ← processChannelsChecked p kChannels 0 0 0
  let control ← load 64 0x3F
  store 64 0x3F (control &&& ~~~kCtrlProcess)
  pure answered

variable {pad : ControllerState} {ram : Bytes} {cursor : ℕ}

theorem skipPadding_checked (ram : Bytes) (cursor : ℕ) :
    seek 64 (· == 0xFF) 0x3F 64 cursor ram = some (skipPadding ram cursor, ram) :=
  seek_run ram (by decide) (by omega) (by omega)

theorem fill_checked {rxOff rlen first : ℕ} (inside : rxOff + rlen ≤ 0x3F) (ram : Bytes) :
    fill 64 rxOff 0 rlen 64 first ram = some ((), fillZero ram (rxOff + first) (rxOff + rlen)) := by
  rw [fill_run ram 0 (by omega) (by omega)]
  congr 2
  funext j
  rw [fillZero_apply]

theorem respond_checked {cmd : U8} {rxOff rlen : ℕ} (inside : rxOff + rlen ≤ 0x3F) (ram : Bytes) :
    respondChecked pad cmd rxOff rlen ram = some ((), respond ram pad cmd rxOff rlen) := by
  unfold respondChecked respond
  split_ifs with info long controller long'
  · rw [store_bind _ (by omega), store_bind _ (by omega), store_bind _ (by omega)]
    exact fill_checked inside _
  · rfl
  · rw [store_bind _ (by omega), store_bind _ (by omega), store_bind _ (by omega),
      store_bind _ (by omega)]
    exact fill_checked inside _
  · rfl
  · exact fill_checked inside _

theorem command_checked {txOff tlen : ℕ} (inside : txOff + tlen ≤ 0x3F) (ram : Bytes) :
    commandChecked txOff tlen ram = some (if tlen > 0 then ram txOff else 0x00, ram) := by
  unfold commandChecked
  split_ifs with sent
  · rw [load, if_pos (by omega)]
  · rfl

theorem processChannel_checked (ram : Bytes) (cursor : ℕ) :
    processChannelChecked pad cursor ram =
      some (((processChannel pad ram cursor).1, (processChannel pad ram cursor).2.2),
        (processChannel pad ram cursor).2.1) := by
  unfold processChannelChecked processChannel
  rw [bind_run ram (skipPadding_checked ram cursor)]
  generalize skipPadding ram cursor = start
  dsimp only
  by_cases ended : start ≥ 0x3F
  · rw [if_pos ended, if_pos ended, pure_run]
  rw [if_neg ended, if_neg ended, load_bind ram (by omega)]
  by_cases terminator : ram start = 0xFE
  · rw [if_pos terminator, if_pos terminator, pure_run]
  rw [if_neg terminator, if_neg terminator, load_bind ram (by omega)]
  by_cases zero : ram start = 0x00
  · rw [if_pos zero, if_pos zero]
    by_cases more : start + 1 < 0x3F
    · rw [if_pos more, load_bind ram (by omega)]
      by_cases pair : ram (start + 1) = 0x00
      · rw [if_pos pair, if_pos ⟨more, pair⟩, pure_run]
      · rw [if_neg pair, if_neg fun both => pair both.2, pure_run]
    · rw [if_neg more, if_neg fun both => more both.1, pure_run]
  rw [if_neg zero, if_neg zero]
  by_cases reset : ram start = 0xFD
  · rw [if_pos reset, if_pos reset, pure_run]
  rw [if_neg reset, if_neg reset]
  by_cases last : start + 1 ≥ 0x3F
  · rw [if_pos last, if_pos last, pure_run]
  rw [if_neg last, if_neg last, load_bind ram (by omega)]
  generalize (ram (start + 1) &&& 0x3F) = rlen
  by_cases overrun : start + 2 + (ram start &&& 0x3F).toNat + rlen.toNat > 0x3F
  · rw [if_pos overrun, if_pos overrun, pure_run]
  rw [if_neg overrun, if_neg overrun]
  rw [bind_run ram (command_checked (by omega) ram), store_bind ram (by omega)]
  by_cases absent : (!pad.present) = true
  · rw [if_pos absent, if_pos absent, store_bind _ (by omega),
      bind_run _ (fill_checked (by omega) _)]
    rfl
  · rw [if_neg absent, if_neg absent, bind_run _ (respond_checked (by omega) _)]
    rfl

theorem processChannels_checked (p : Pif) (left ch : ℕ) (ram : Bytes) (cursor answered : ℕ) :
    processChannelsChecked p left ch cursor answered ram =
      some ((processChannels p left ch ram cursor answered).2,
        (processChannels p left ch ram cursor answered).1) := by
  induction left generalizing ch ram cursor answered with
  | zero => rfl
  | succ left ih =>
    rw [processChannelsChecked, bind_run ram (processChannel_checked ram cursor), processChannels]
    cases result : processChannel (p.controller ch) ram cursor with
    | mk going rest =>
      cases going with
      | false => rfl
      | true =>
        dsimp only
        rw [if_neg (by decide)]
        split_ifs
        · rfl
        · rfl
        · exact ih _ _ _ _
        · exact ih _ _ _ _

theorem processJoybus_checked (p : Pif) : processJoybusChecked p p.pifRam =
    some (p.processJoybus.2, p.processJoybus.1.pifRam) := by
  unfold processJoybusChecked
  rw [bind_run p.pifRam (processChannels_checked p kChannels 0 p.pifRam 0 0),
    load_bind _ (by decide), store_bind _ (by decide)]
  rfl

end Checked

/-- The padding, the length of what is sent, and the bytes sent. -/
def Slot.Sent (cursor : ℕ) : Slot → ℕ → Prop
  | stop start, i => cursor ≤ i ∧ i ≤ start
  | skip start size, i => cursor ≤ i ∧ i < start + size
  | command start tlen _ _, i =>
    cursor ≤ i ∧ i ≤ start ∨ start + 2 ≤ i ∧ i < start + 2 + tlen

section Channel

variable (pad : ControllerState) (ram : Bytes) {cursor i : ℕ}

theorem perform_bounds {slot : Slot} (within : slot.Within cursor) :
    cursor ≤ (slot.perform pad ram).2.2 ∧ (slot.perform pad ram).2.2 ≤ 0x3F := by
  cases slot with
  | stop start => exact within
  | skip start size => exact ⟨le_trans within.1 (Nat.le_add_right _ _), within.2.2⟩
  | command start tlen rlen cmd =>
    simp only [Slot.perform]
    exact ⟨by have := within.1; omega, within.2.1⟩

theorem perform_outside {slot : Slot} (within : slot.Within cursor)
    (outside : i ≤ cursor ∨ (slot.perform pad ram).2.2 ≤ i) :
    (slot.perform pad ram).2.1 i = ram i := by
  cases slot with
  | stop start => rfl
  | skip start size => rfl
  | command start tlen rlen cmd =>
    simp only [Slot.perform] at outside
    have := within.1
    exact answered_other (by omega) (by omega)

theorem perform_sent {slot : Slot} (within : slot.Within cursor) (sent : slot.Sent cursor i) :
    (slot.perform pad ram).2.1 i = ram i := by
  cases slot with
  | stop start => rfl
  | skip start size => rfl
  | command start tlen rlen cmd =>
    simp only [Slot.Sent] at sent
    exact answered_other (by omega) (by omega)

theorem sent_bounds {slot : Slot} (within : slot.Within cursor) (sent : slot.Sent cursor i) :
    cursor ≤ i ∧ (i < (slot.perform pad ram).2.2 ∨ (slot.perform pad ram).1 = false) := by
  cases slot with
  | stop start => exact ⟨sent.1, Or.inr rfl⟩
  | skip start size => exact ⟨sent.1, Or.inl sent.2⟩
  | command start tlen rlen cmd =>
    simp only [Slot.Sent, Slot.perform] at sent ⊢
    have := within.1
    omega

variable {pad ram}

/-- A channel over its own answer finds the same block and answers it the same. -/
theorem processChannel_again {m : Bytes} (low : cursor ≤ 0x3F)
    (same : ∀ j, cursor ≤ j → j < 0x3F →
      ((processChannel pad ram cursor).1 = true → j ≤ (processChannel pad ram cursor).2.2) →
      m j = (processChannel pad ram cursor).2.1 j) :
    processChannel pad m cursor =
      ((processChannel pad ram cursor).1, m, (processChannel pad ram cursor).2.2) := by
  have within := parse_within ram low
  rw [processChannel_parse] at *
  rw [processChannel_parse]
  cases found : parse ram cursor with
  | stop start =>
    rw [found] at same
    have again : parse m cursor = parse ram cursor :=
      parse_congr low (fun j above _ below => same j above below nofun) fun _ _ _ _ h => by
        rw [found] at h
        cases h
    rw [again, found]
    rfl
  | skip start size =>
    rw [found] at same within
    have behind : start = skipPadding ram cursor := slotOf_skip found
    have again : parse m cursor = parse ram cursor := by
      refine parse_congr low (fun j above near below => ?_) fun _ _ _ _ h => ?_
      · refine same j above below fun _ => ?_
        have := within.2.1
        simp only [Slot.perform]
        omega
      · rw [found] at h
        cases h
    rw [again, found]
    rfl
  | command start tlen rlen cmd =>
    rw [found] at same within
    obtain ⟨above, below, small⟩ := within
    simp only [Slot.perform] at same
    have again : parse m cursor = .command start tlen rlen cmd := by
      refine parse_command low found (fun j low' near => ?_) ?_ fun sent => ?_
      · rw [same j low' (by omega) fun _ => by omega]
        exact answered_other (by omega) (by omega)
      · rw [same (start + 1) (by omega) (by omega) fun _ => by omega]
        exact answered_status small
      · rw [same (start + 2) (by omega) (by omega) fun _ => by omega]
        exact answered_other (by omega) (by omega)
    have settled := answered_again (m := m) fun j low' near =>
      same j (by omega) (by omega) fun _ => by omega
    rw [again]
    simp only [Slot.perform, settled]

end Channel

section Run

variable (p : Pif) {m ram : Bytes} {cursor i : ℕ}

/-- One round of the loop: the list ends, or the next channel goes on behind the cursor. -/
theorem processChannels_succ (left ch : ℕ) (ram : Bytes) (cursor answered : ℕ) :
    ∃ n, (processChannels p (left + 1) ch ram cursor answered).1 =
      let r := processChannel (p.controller ch) ram cursor
      if r.1 = true ∧ r.2.2 < 0x3F then (processChannels p left (ch + 1) r.2.1 r.2.2 n).1
      else r.2.1 := by
  rw [processChannels]
  cases result : processChannel (p.controller ch) ram cursor with
  | mk going rest =>
    cases going with
    | false => exact ⟨0, by rw [if_neg (by simp)]⟩
    | true =>
      dsimp only
      generalize (if rest.2 ≠ cursor then answered + 1 else answered) = n
      refine ⟨n, ?_⟩
      by_cases ended : rest.2 ≥ 0x3F
      · rw [if_pos ended, if_neg (by omega)]
      · rw [if_neg ended, if_pos ⟨rfl, by omega⟩]

theorem processChannels_outside (low : cursor ≤ 0x3F) (left ch answered : ℕ)
    (outside : i ≤ cursor ∨ 0x3F ≤ i) :
    (processChannels p left ch ram cursor answered).1 i = ram i := by
  induction left generalizing ch ram cursor answered with
  | zero => rfl
  | succ left ih =>
    obtain ⟨n, round⟩ := processChannels_succ p left ch ram cursor answered
    rw [round]
    rw [processChannel_parse]
    have within := parse_within ram low
    have bounds := perform_bounds (p.controller ch) ram within
    have kept := perform_outside (p.controller ch) ram (i := i) within (by omega)
    dsimp only
    split_ifs with going
    · rw [ih bounds.2 _ _ (by omega), kept]
    · exact kept

/-- What the first pass sent and answered is what a second pass over it finds and
    answers, whatever stands in front of the cursor and behind the list. -/
theorem processChannels_again (low : cursor ≤ 0x3F) (left ch answered count : ℕ)
    (same : ∀ j, cursor ≤ j → j < 0x3F →
      m j = (processChannels p left ch ram cursor answered).1 j) :
    (processChannels p left ch m cursor count).1 = m := by
  induction left generalizing ch ram cursor answered count with
  | zero => rfl
  | succ left ih =>
    obtain ⟨n, round⟩ := processChannels_succ p left ch ram cursor answered
    obtain ⟨k, round'⟩ := processChannels_succ p left ch m cursor count
    rw [round] at same
    rw [round']
    dsimp only at same ⊢
    have within := parse_within ram low
    have bounds := perform_bounds (p.controller ch) ram within
    rw [← processChannel_parse] at bounds
    by_cases going : (processChannel (p.controller ch) ram cursor).1 = true ∧
        (processChannel (p.controller ch) ram cursor).2.2 < 0x3F
    · rw [if_pos going] at same
      have again := processChannel_again (m := m) low fun j above below near => by
        rw [same j above below, processChannels_outside p bounds.2 _ _ _ (Or.inl (near going.1))]
      rw [again, if_pos going]
      exact ih bounds.2 _ _ _ fun j above below => same j (by omega) below
    · rw [if_neg going] at same
      have again := processChannel_again (m := m) low fun j above below _ => same j above below
      rw [again, if_neg going]

end Run

/-- A call of `process_channel`. -/
structure Call where
  channel : ℕ
  ram : Bytes
  cursor : ℕ

namespace Call

def result (p : Pif) (c : Call) : Bool × Bytes × ℕ :=
  processChannel (p.controller c.channel) c.ram c.cursor

def slot (c : Call) : Slot := parse c.ram c.cursor

end Call

/-- The calls of the channel loop, each at the cursor the one before it leaves. -/
def calls (p : Pif) : ℕ → ℕ → Bytes → ℕ → List Call
  | 0, _, _, _ => []
  | left+1, ch, ram, cursor =>
    let r := processChannel (p.controller ch) ram cursor
    ⟨ch, ram, cursor⟩ :: if r.1 = true ∧ r.2.2 < 0x3F then calls p left (ch + 1) r.2.1 r.2.2 else []

section Calls

variable (p : Pif)

theorem calls_spec {ram : Bytes} {cursor : ℕ} (low : cursor ≤ 0x3F) (left ch answered : ℕ)
    {c : Call} (call : c ∈ calls p left ch ram cursor) :
    cursor ≤ c.cursor ∧ c.cursor ≤ 0x3F ∧ ∀ i, c.slot.Sent c.cursor i →
      (processChannels p left ch ram cursor answered).1 i = ram i := by
  induction left generalizing ch ram cursor answered with
  | zero => exact absurd call List.not_mem_nil
  | succ left ih =>
    obtain ⟨n, round⟩ := processChannels_succ p left ch ram cursor answered
    rw [round]
    rw [calls] at call
    dsimp only at call ⊢
    have within := parse_within ram low
    have bounds := perform_bounds (p.controller ch) ram within
    have step := processChannel_parse (p.controller ch) ram cursor
    rw [← step] at bounds
    rcases List.mem_cons.mp call with rfl | later
    · refine ⟨le_rfl, low, fun i sent => ?_⟩
      have kept := perform_sent (p.controller ch) ram within sent
      have place := (sent_bounds (p.controller ch) ram within sent).2
      rw [← step] at kept place
      split_ifs with going
      · have inside := place.resolve_right (by rw [going.1]; decide)
        rw [processChannels_outside p bounds.2 _ _ _ (Or.inl (Nat.le_of_lt inside)), kept]
      · exact kept
    · by_cases going : (processChannel (p.controller ch) ram cursor).1 = true ∧
          (processChannel (p.controller ch) ram cursor).2.2 < 0x3F
      · rw [if_pos going] at later ⊢
        obtain ⟨behind, inside, kept⟩ := ih bounds.2 _ n later
        refine ⟨by omega, inside, fun i sent => ?_⟩
        have first := (sent_bounds (p.controller c.channel) c.ram (parse_within c.ram inside)
          sent).1
        have untouched := perform_outside (p.controller ch) ram (i := i) within
        rw [← step] at untouched
        rw [kept i sent]
        exact untouched (Or.inr (by omega))
      · rw [if_neg going] at later
        exact absurd later List.not_mem_nil

theorem processChannels_controllers {q : Pif} (same : q.controllers = p.controllers)
    (left ch : ℕ) (ram : Bytes) (cursor answered : ℕ) :
    processChannels q left ch ram cursor answered =
      processChannels p left ch ram cursor answered := by
  have devices : q.controller = p.controller := by
    funext n
    unfold controller
    rw [same]
  induction left generalizing ch ram cursor answered with
  | zero => rfl
  | succ left ih => simp only [processChannels, devices, ih]

theorem processJoybus_ram : p.processJoybus.1.pifRam =
    Function.update (processChannels p kChannels 0 p.pifRam 0 0).1 0x3F
      ((processChannels p kChannels 0 p.pifRam 0 0).1 0x3F &&& ~~~kCtrlProcess) := rfl

/-- Over any PIF RAM and any controllers, `process_joybus` ends within the 64 bytes, its
    cursor only moves on, it changes neither padding nor what is sent, and a second pass
    changes nothing. -/
theorem joybus_robust :
    processJoybusChecked p p.pifRam = some (p.processJoybus.2, p.processJoybus.1.pifRam) ∧
    (∀ c ∈ calls p kChannels 0 p.pifRam 0,
      c.cursor ≤ (c.result p).2.2 ∧ (c.result p).2.2 ≤ 0x3F ∧
      ∀ i < 0x3F, c.slot.Sent c.cursor i → p.processJoybus.1.pifRam i = p.pifRam i) ∧
    p.processJoybus.1.pifRam 0x3F = p.pifRam 0x3F &&& ~~~1 ∧
    p.processJoybus.1.processJoybus.1.pifRam = p.processJoybus.1.pifRam := by
  have list (i : ℕ) (other : i ≠ 0x3F) : p.processJoybus.1.pifRam i =
      (processChannels p kChannels 0 p.pifRam 0 0).1 i := by
    rw [processJoybus_ram, Function.update_of_ne other]
  have control : p.processJoybus.1.pifRam 0x3F = p.pifRam 0x3F &&& ~~~1 := by
    rw [processJoybus_ram, Function.update_self,
      processChannels_outside p (Nat.zero_le 0x3F) kChannels 0 0 (Or.inr le_rfl)]
    rfl
  refine ⟨processJoybus_checked p, fun c call => ?_, control, ?_⟩
  · obtain ⟨_, low, kept⟩ := calls_spec p (Nat.zero_le 0x3F) kChannels 0 0 call
    have bounds := perform_bounds (p.controller c.channel) c.ram (parse_within c.ram low)
    rw [← processChannel_parse] at bounds
    exact ⟨bounds.1, bounds.2, fun i inside sent =>
      (list i (by omega)).trans (kept i sent)⟩
  · have again := processChannels_again p (m := p.processJoybus.1.pifRam) (Nat.zero_le 0x3F)
      kChannels 0 0 0 fun j _ below => list j (by omega)
    have cleared : p.processJoybus.1.pifRam 0x3F &&& ~~~kCtrlProcess =
        p.processJoybus.1.pifRam 0x3F := by
      rw [control, BitVec.and_assoc]
      rfl
    have second := processChannels_controllers p (q := p.processJoybus.1) rfl kChannels 0
      p.processJoybus.1.pifRam 0 0
    rw [processJoybus_ram, second, again, cleared, Function.update_eq_self]

end Calls

end N64.Pif
