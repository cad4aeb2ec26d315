import N64Emu.JoybusPackets

/-!
# Joybus slots

What a channel finds in any PIF RAM, well formed or not, and what its answer
writes. Where an answer writes and what it writes depend on the lengths and the
command byte alone.
-/

set_option autoImplicit false

namespace N64.Pif

open Words Loops

/-- What a channel finds behind the padding. -/
inductive Slot where
  | stop (start : ℕ)
  | skip (start size : ℕ)
  | command (start tlen : ℕ) (rlen cmd : U8)

def slotOf (start : ℕ) (first second third : U8) : Slot :=
  if start ≥ 0x3F then .stop start
  else if first = 0xFE then .stop start
  else if first = 0x00 then
    if start + 1 < 0x3F ∧ second = 0x00 then .skip start 2 else .skip start 1
  else if first = 0xFD then .skip start 1
  else if start + 1 ≥ 0x3F then .stop start
  else
    let tlen := (first &&& 0x3F).toNat
    let rlen := second &&& 0x3F
    if start + 2 + tlen + rlen.toNat > 0x3F then .stop start
    else .command start tlen rlen (if tlen > 0 then third else 0x00)

def parse (ram : Bytes) (cursor : ℕ) : Slot :=
  let start := skipPadding ram cursor
  slotOf start (ram start) (ram (start + 1)) (ram (start + 2))

def answered (pad : ControllerState) (start tlen : ℕ) (rlen cmd : U8) (ram : Bytes) : Bytes :=
  let rxOff := start + 2 + tlen
  let ram := Function.update ram (start + 1) rlen
  if !pad.present then
    fillZero (Function.update ram (start + 1) (rlen ||| 0x80)) rxOff (rxOff + rlen.toNat)
  else respond ram pad cmd rxOff rlen.toNat

def Slot.perform (pad : ControllerState) (ram : Bytes) : Slot → Bool × Bytes × ℕ
  | stop start => (false, ram, start)
  | skip start size => (true, ram, start + size)
  | command start tlen rlen cmd =>
    (true, answered pad start tlen rlen cmd ram, start + 2 + tlen + rlen.toNat)

theorem processChannel_parse (pad : ControllerState) (ram : Bytes) (cursor : ℕ) :
    processChannel pad ram cursor = (parse ram cursor).perform pad ram := by
  unfold processChannel parse slotOf
  dsimp only
  split_ifs <;> first | rfl | simp_all [Slot.perform, answered]

/-- The receive byte `k` of an answer, unless the answer leaves the bytes. -/
def response (pad : ControllerState) (cmd : U8) (rlen k : ℕ) : Option U8 :=
  if !pad.present then some 0
  else if cmd = JoybusCmd.Info ∨ cmd = JoybusCmd.Reset then
    if rlen ≥ 3 then
      some (if k = 0 then kControllerType.setWidth 8
        else if k = 1 then (kControllerType >>> 8).setWidth 8 else 0)
    else none
  else if cmd = JoybusCmd.Controller then
    if rlen ≥ 4 then
      some (if k = 0 then (pad.buttons >>> 8).setWidth 8
        else if k = 1 then pad.buttons.setWidth 8
        else if k = 2 then pad.stickX else if k = 3 then pad.stickY else 0)
    else none
  else some 0

/-- The byte an answer writes at `i`, if it writes there. -/
def written (pad : ControllerState) (start tlen : ℕ) (rlen cmd : U8) (i : ℕ) : Option U8 :=
  let rxOff := start + 2 + tlen
  if i = start + 1 then some (if pad.present then rlen else rlen ||| 0x80)
  else if rxOff ≤ i ∧ i < rxOff + rlen.toNat then response pad cmd rlen.toNat (i - rxOff)
  else none

section Answers

variable {pad : ControllerState} {start tlen : ℕ} {rlen cmd : U8} {ram : Bytes} {i : ℕ}

theorem respond_apply (present : pad.present = true) {off n : ℕ} : respond ram pad cmd off n i =
    if off ≤ i ∧ i < off + n then (response pad cmd n (i - off)).getD (ram i) else ram i := by
  by_cases inside : off ≤ i ∧ i < off + n
  · rw [if_pos inside]
    obtain ⟨k, rfl⟩ := Nat.exists_eq_add_of_le inside.1
    rw [Nat.add_sub_cancel_left]
    have running : ¬(!pad.present) = true := by simp [present]
    unfold respond response
    rw [if_neg running]
    by_cases info : cmd = JoybusCmd.Info ∨ cmd = JoybusCmd.Reset
    · rw [if_pos info, if_pos info]
      by_cases long : n ≥ 3
      · rw [if_pos long, if_pos long, Option.getD_some]
        simp only [fillZero_apply, Function.update_apply]
        split_ifs <;> first | rfl | omega
      · rw [if_neg long, if_neg long]
        rfl
    · rw [if_neg info, if_neg info]
      by_cases controller : cmd = JoybusCmd.Controller
      · rw [if_pos controller, if_pos controller]
        by_cases long : n ≥ 4
        · rw [if_pos long, if_pos long, Option.getD_some]
          simp only [fillZero_apply, Function.update_apply]
          split_ifs <;> first | rfl | omega
        · rw [if_neg long, if_neg long]
          rfl
      · rw [if_neg controller, if_neg controller, fillZero_apply, if_pos (by omega)]
        rfl
  · rw [if_neg inside]
    exact respond_outside (by omega)

theorem answered_apply : answered pad start tlen rlen cmd ram i =
    (written pad start tlen rlen cmd i).getD (ram i) := by
  unfold answered written
  dsimp only
  by_cases present : pad.present = true
  · rw [if_neg (by simp [present]), respond_apply present, if_pos present]
    by_cases status : i = start + 1
    · rw [if_neg (by omega), if_pos status, status, Function.update_self]
      rfl
    · rw [if_neg status, Function.update_of_ne status]
      split_ifs
      · rfl
      · rfl
  · rw [if_pos (by simp [present]), fillZero_apply, if_neg present]
    by_cases status : i = start + 1
    · rw [if_neg (by omega), if_pos status, status, Function.update_self]
      rfl
    · rw [if_neg status, Function.update_of_ne status, Function.update_of_ne status]
      have absent : response pad cmd rlen.toNat (i - (start + 2 + tlen)) = some 0 := by
        rw [response, if_pos (by simp [present])]
      rw [absent]
      split_ifs
      · rfl
      · rfl

/-- The bytes an answer leaves: the lengths of what was sent, the sent bytes, and all
    outside of the block. -/
theorem answered_other (other : i ≠ start + 1)
    (outside : i < start + 2 + tlen ∨ start + 2 + tlen + rlen.toNat ≤ i) :
    answered pad start tlen rlen cmd ram i = ram i := by
  rw [answered_apply, written, if_neg other, if_neg (by omega)]
  rfl

theorem answered_status (small : rlen &&& 0x3F = rlen) :
    answered pad start tlen rlen cmd ram (start + 1) &&& 0x3F = rlen := by
  rw [answered_apply, written, if_pos rfl, Option.getD_some]
  split_ifs
  · exact small
  · exact (or_and_of_disjoint rlen (by decide)).trans small

theorem answered_again {m : Bytes} (same : ∀ j, start ≤ j → j < start + 2 + tlen + rlen.toNat →
    m j = answered pad start tlen rlen cmd ram j) : answered pad start tlen rlen cmd m = m := by
  funext j
  rw [answered_apply]
  cases value : written pad start tlen rlen cmd j with
  | none => rfl
  | some v =>
    have inside : start ≤ j ∧ j < start + 2 + tlen + rlen.toNat := by
      by_contra outside
      rw [written, if_neg (by omega), if_neg (by omega)] at value
      cases value
    rw [same j inside.1 inside.2, answered_apply, value]
    rfl

end Answers

section Parse

variable {ram m : Bytes} {cursor start : ℕ} {first second third : U8}

theorem skipPadding_ends (ram : Bytes) (cursor : ℕ) :
    (fun c => decide (c < 0x3F) && ram c == 0xFF) (skipPadding ram cursor) = false := by
  refine @whileDo_done ℕ (fun c => decide (c < 0x3F) && ram c == 0xFF) (· + 1)
    (fun c => 0x3F - c) (fun c going => ?_) 0x3F cursor (by omega)
  simp only [Bool.and_eq_true, decide_eq_true_eq] at going
  omega

theorem skipPadding_spec (ram : Bytes) (low : cursor ≤ 0x3F) :
    cursor ≤ skipPadding ram cursor ∧ skipPadding ram cursor ≤ 0x3F ∧
    (∀ i, cursor ≤ i → i < skipPadding ram cursor → ram i = 0xFF) ∧
    (skipPadding ram cursor = 0x3F ∨ ram (skipPadding ram cursor) ≠ 0xFF) := by
  have walked : cursor ≤ skipPadding ram cursor ∧ skipPadding ram cursor ≤ 0x3F ∧
      ∀ i, cursor ≤ i → i < skipPadding ram cursor → ram i = 0xFF := by
    refine whileDo_preserves
      (fun c => cursor ≤ c ∧ c ≤ 0x3F ∧ ∀ i, cursor ≤ i → i < c → ram i = 0xFF)
      0x3F ⟨le_rfl, low, fun i _ _ => by omega⟩ fun c going walked => ?_
    simp only [Bool.and_eq_true, decide_eq_true_eq, beq_iff_eq] at going
    refine ⟨by omega, by omega, fun i above below => ?_⟩
    by_cases here : i = c
    · rw [here, going.2]
    · exact walked.2.2 i above (by omega)
  have ended := skipPadding_ends ram cursor
  refine ⟨walked.1, walked.2.1, walked.2.2, ?_⟩
  by_cases last : skipPadding ram cursor = 0x3F
  · exact Or.inl last
  · refine Or.inr fun padded => ?_
    simp only [padded, beq_self_eq_true, Bool.and_true, decide_eq_false_iff_not] at ended
    omega

theorem skipPadding_congr (low : cursor ≤ 0x3F)
    (same : ∀ i, cursor ≤ i → i ≤ skipPadding ram cursor → i < 0x3F → m i = ram i) :
    skipPadding m cursor = skipPadding ram cursor := by
  obtain ⟨above, below, padding, stop⟩ := skipPadding_spec ram low
  obtain ⟨n, total⟩ := Nat.exists_eq_add_of_le above
  rw [total] at below padding stop same ⊢
  refine skipPadding_eq m (holds_replicate.mpr fun i first last => ?_) below ?_
  · rw [same i first (by omega) (by omega)]
    exact padding i first last
  · by_cases last : cursor + n = 0x3F
    · exact Or.inl last
    · rw [same _ (by omega) le_rfl (by omega)]
      exact Or.inr (stop.resolve_left last)

theorem slotOf_command {s tlen : ℕ} {rlen cmd : U8}
    (found : slotOf start first second third = .command s tlen rlen cmd) :
    s = start ∧ rlen = second &&& 0x3F ∧ start + 2 + tlen + rlen.toNat ≤ 0x3F ∧
    ∀ second' third', second' &&& 0x3F = rlen → (0 < tlen → third' = third) →
      slotOf start first second' third' = .command s tlen rlen cmd := by
  unfold slotOf at found
  dsimp only at found
  split_ifs at found with ended terminator zero pair reset last overrun sent
  all_goals
    cases found
    refine ⟨rfl, rfl, by omega, fun second' third' masked command => ?_⟩
    unfold slotOf
    rw [if_neg ended, if_neg terminator, if_neg zero, if_neg reset, if_neg last]
    dsimp only
    rw [masked, if_neg overrun]
  · rw [if_pos sent, command sent]
  · rw [if_neg sent]

theorem slotOf_skip {s size : ℕ} (found : slotOf start first second third = .skip s size) :
    s = start := by
  unfold slotOf at found
  dsimp only at found
  split_ifs at found
  all_goals
    cases found
    rfl

theorem slotOf_third (third' : U8)
    (other : ∀ s tlen rlen cmd, slotOf start first second third ≠ .command s tlen rlen cmd) :
    slotOf start first second third' = slotOf start first second third := by
  unfold slotOf at *
  dsimp only at *
  split_ifs at * with ended terminator zero pair reset last overrun
  all_goals first
    | rfl
    | exact absurd rfl (other _ _ _ _)

theorem slotOf_last (last : start + 1 ≥ 0x3F) (second' third' : U8) :
    slotOf start first second' third' = slotOf start first second third := by
  have alone : ∀ b : U8, ¬(start + 1 < 0x3F ∧ b = 0x00) := by omega
  unfold slotOf
  rw [if_neg (alone second'), if_neg (alone second), if_pos last, if_pos last]

def Slot.Within (cursor : ℕ) : Slot → Prop
  | stop start => cursor ≤ start ∧ start ≤ 0x3F
  | skip start size => cursor ≤ start ∧ 1 ≤ size ∧ start + size ≤ 0x3F
  | command start tlen rlen _ =>
    cursor ≤ start ∧ start + 2 + tlen + rlen.toNat ≤ 0x3F ∧ rlen &&& 0x3F = rlen

theorem parse_within (ram : Bytes) (low : cursor ≤ 0x3F) : (parse ram cursor).Within cursor := by
  obtain ⟨above, below, _⟩ := skipPadding_spec ram low
  unfold parse slotOf
  dsimp only
  split_ifs with ended terminator zero pair reset last overrun
  · exact ⟨above, below⟩
  · exact ⟨above, below⟩
  · exact ⟨above, by decide, by omega⟩
  · exact ⟨above, by decide, by omega⟩
  · exact ⟨above, by decide, by omega⟩
  · exact ⟨above, below⟩
  · exact ⟨above, below⟩
  all_goals exact ⟨above, by omega, by rw [BitVec.and_assoc, BitVec.and_self]⟩

theorem parse_congr (low : cursor ≤ 0x3F)
    (same : ∀ i, cursor ≤ i → i ≤ skipPadding ram cursor + 1 → i < 0x3F → m i = ram i)
    (other : ∀ s tlen rlen cmd, parse ram cursor ≠ .command s tlen rlen cmd) :
    parse m cursor = parse ram cursor := by
  have walked := skipPadding_congr low fun i above below => same i above (by omega)
  obtain ⟨above, below, _⟩ := skipPadding_spec ram low
  unfold parse at *
  dsimp only at *
  rw [walked]
  generalize skipPadding ram cursor = start at *
  by_cases ended : start ≥ 0x3F
  · unfold slotOf
    rw [if_pos ended, if_pos ended]
  rw [same start above (by omega) (by omega)]
  by_cases last : start + 1 ≥ 0x3F
  · exact slotOf_last last _ _
  · rw [same (start + 1) (by omega) le_rfl (by omega)]
    exact slotOf_third _ other

theorem parse_command {tlen : ℕ} {rlen cmd : U8} (low : cursor ≤ 0x3F)
    (found : parse ram cursor = .command start tlen rlen cmd)
    (padding : ∀ i, cursor ≤ i → i ≤ start → m i = ram i)
    (lengths : m (start + 1) &&& 0x3F = rlen) (sent : 0 < tlen → m (start + 2) = ram (start + 2)) :
    parse m cursor = .command start tlen rlen cmd := by
  unfold parse at *
  dsimp only at *
  obtain ⟨rfl, _, _, again⟩ := slotOf_command found
  have walked := skipPadding_congr low fun i above below _ => padding i above below
  rw [walked, padding _ (skipPadding_spec ram low).1 le_rfl]
  exact again _ _ lengths sent

end Parse

end N64.Pif
