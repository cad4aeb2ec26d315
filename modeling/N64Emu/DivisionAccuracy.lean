import N64Emu.DivisionTable
import Mathlib.Data.Rat.Cast.Order
import Mathlib.Tactic.NormNum
import Mathlib.Tactic.Positivity

/-!
# Accuracy of the division instructions

A positive word is a binary exponent and ten leading bits. The table entry of
the leading bits, scaled by the exponent, is within a part in five hundred of
the reciprocal or of the inverse square root, and falls as the word grows.
-/

set_option autoImplicit false

namespace N64.RspVector

open Words

section Estimate

variable {input : U32}

def exponent (input : U32) : ℕ := 31 - input.clz.toNat

def mantissa (input : U32) : ℕ := input.toNat * 2 ^ (31 - exponent input)

theorem clz_toNat (nonzero : input ≠ 0) : input.clz.toNat = 31 - exponent input := by
  have count : input.clz.toNat < 32 := BitVec.clz_lt_iff_ne_zero.mpr nonzero
  unfold exponent
  omega

theorem exponent_le : exponent input ≤ 31 := Nat.sub_le _ _

theorem two_pow_exponent_le (nonzero : input ≠ 0) : 2 ^ exponent input ≤ input.toNat :=
  BitVec.two_pow_sub_clz_le_toNat_of_ne_zero (by decide) nonzero

theorem lt_two_pow_exponent (nonzero : input ≠ 0) : input.toNat < 2 ^ (exponent input + 1) := by
  have below := BitVec.toNat_lt_two_pow_sub_clz (x := input)
  have count := clz_toNat nonzero
  have le : exponent input ≤ 31 := exponent_le
  rwa [count, show 32 - (31 - exponent input) = exponent input + 1 by omega] at below

theorem mantissa_normal (nonzero : input ≠ 0) :
    2 ^ 31 ≤ mantissa input ∧ mantissa input < 2 ^ 32 := by
  have le : exponent input ≤ 31 := exponent_le
  have least := Nat.mul_le_mul_right (2 ^ (31 - exponent input)) (two_pow_exponent_le nonzero)
  have most := Nat.mul_lt_mul_of_pos_right (lt_two_pow_exponent nonzero)
    (Nat.two_pow_pos (31 - exponent input))
  rw [← pow_add, show exponent input + (31 - exponent input) = 31 by omega] at least
  rw [← pow_add, show exponent input + 1 + (31 - exponent input) = 32 by omega] at most
  exact ⟨least, most⟩

def tableAddress (input : U32) (squareRoot : Bool) : U32 :=
  let leading := ((input <<< input.clz.toNat) >>> 22) &&& 0x1FF
  if squareRoot then (leading &&& 0x1FE) ||| 0x200 ||| (input.clz &&& 1) else leading

def outputShift (input : U32) (squareRoot : Bool) : U32 :=
  if squareRoot then (input.clz ^^^ 31) >>> 1 else input.clz ^^^ 31

theorem divisionEstimate_positive (nonzero : input ≠ 0) (positive : 0 ≤ input.toInt)
    (squareRoot : Bool) :
    divisionEstimate input squareRoot true =
      (0x40000000#32 |||
        ((divisionRom (tableAddress input squareRoot).toNat).setWidth 32 <<< 14)) >>>
          (outputShift input squareRoot).toNat := by
  have not_negative : ¬ input.toInt < 0 := by omega
  have not_least : input.toInt ≠ -32768 := by omega
  simp only [divisionEstimate, tableAddress, outputShift, nonzero, not_negative, not_least,
    Bool.not_true, Bool.false_eq_true, if_false]

theorem flip_shift {c : U32} {k : ℕ} (h : c.toNat = 31 - k) (le : k ≤ 31) :
    (c ^^^ 31).toNat = k := by
  have flip : ∀ n < 32, n ^^^ 31 = 31 - n := by decide
  rw [BitVec.toNat_xor, h]
  exact (flip (31 - k) (by omega)).trans (by omega)

theorem scaled_entry {rom : U16} {r : ℕ} (h : rom.toNat = r - 2 ^ 16) (normal : Normal r)
    (n : ℕ) :
    ((0x40000000#32 ||| (rom.setWidth 32 <<< 14)) >>> n).toNat = r * 2 ^ 14 / 2 ^ n := by
  rw [BitVec.toNat_ushiftRight, Nat.shiftRight_eq_div_pow, entry_or h normal]

theorem leading_toNat (nonzero : input ≠ 0) :
    (((input <<< input.clz.toNat) >>> 22) &&& 0x1FF).toNat = mantissa input / 2 ^ 22 - 512 := by
  obtain ⟨least, below⟩ := mantissa_normal nonzero
  have moved : (input <<< input.clz.toNat).toNat = mantissa input := by
    rw [BitVec.toNat_shiftLeft, Nat.shiftLeft_eq, clz_toNat nonzero]
    exact Nat.mod_eq_of_lt below
  have masked := LowMasks.toNat_and_low (n := 9) ((input <<< input.clz.toNat) >>> 22) (by decide)
  rw [BitVec.toNat_ushiftRight, Nat.shiftRight_eq_div_pow, moved] at masked
  have value : mantissa input / 2 ^ 22 % 2 ^ 9 = mantissa input / 2 ^ 22 - 512 := by omega
  exact masked.trans value

theorem rootAddress_toNat {leading c : U32} (below : leading.toNat < 512) :
    ((leading &&& 0x1FE) ||| 0x200 ||| (c &&& 1)).toNat =
      512 + 2 * (leading.toNat / 2) + c.toNat % 2 := by
  have even : (leading &&& 0x1FE).toNat = leading.toNat / 2 * 2 := by
    have mask : (0x1FE : U32) = LowMasks.low 32 9 &&& ~~~LowMasks.low 32 1 := by decide
    rw [mask, LowMasks.toNat_and_field leading (by decide)]
    omega
  have parity : (c &&& 1).toNat = c.toNat % 2 := LowMasks.toNat_and_low (n := 1) c (by decide)
  have page : (0x200 : U32).toNat = 512 := by decide
  have high : ((leading &&& 0x1FE) ||| 0x200).toNat = 512 + leading.toNat / 2 * 2 := by
    rw [BitVec.or_comm, LowMasks.toNat_or_low (n := 9) (by decide) (by omega), page, even]
  rw [LowMasks.toNat_or_low (n := 1) (by omega) (by omega), high, parity]
  omega

theorem estimate_reciprocal (nonzero : input ≠ 0) (positive : 0 ≤ input.toInt) :
    (divisionEstimate input false true).toNat =
      reciprocalEntry (mantissa input / 2 ^ 22) * 2 ^ 14 / 2 ^ exponent input := by
  obtain ⟨least, below⟩ := mantissa_normal nonzero
  have address : (tableAddress input false).toNat = mantissa input / 2 ^ 22 - 512 :=
    leading_toNat nonzero
  have entry : (divisionFull (tableAddress input false).toNat).toNat =
      reciprocalEntry (mantissa input / 2 ^ 22) := by
    rw [address, divisionFull_reciprocal (by omega)]
    congr 1
    omega
  have normal : Normal (reciprocalEntry (mantissa input / 2 ^ 22)) :=
    reciprocal_normal (by omega) (by omega)
  have shift : (outputShift input false).toNat = exponent input :=
    flip_shift (clz_toNat nonzero) exponent_le
  rw [divisionEstimate_positive nonzero positive, shift]
  exact scaled_entry (divisionRom_toNat entry normal) normal _

/-- The exponent of the table for the inverse square root of this word. -/
def rootExponent (input : U32) : ℕ := 41 + (31 - exponent input) % 2

theorem estimate_root (nonzero : input ≠ 0) (positive : 0 ≤ input.toInt) :
    (divisionEstimate input true true).toNat =
      rootEntry (rootExponent input) (mantissa input / 2 ^ 23) * 2 ^ 14 /
        2 ^ (exponent input / 2) := by
  obtain ⟨least, below⟩ := mantissa_normal nonzero
  have leading := leading_toNat nonzero
  have address : (tableAddress input true).toNat =
      512 + 2 * ((mantissa input / 2 ^ 22 - 512) / 2) + (31 - exponent input) % 2 := by
    rw [← leading, ← clz_toNat nonzero]
    exact rootAddress_toNat (by omega)
  have entry : (divisionFull (tableAddress input true).toNat).toNat =
      rootEntry (rootExponent input) (mantissa input / 2 ^ 23) := by
    rw [address, divisionFull_root _ _ (Nat.mod_lt _ (by decide))]
    unfold rootExponent
    congr 1
    omega
  have normal : Normal (rootEntry (rootExponent input) (mantissa input / 2 ^ 23)) :=
    root_normal (Nat.le_add_right 41 _) (by omega) (by omega)
  have shift : (outputShift input true).toNat = exponent input / 2 := by
    have flip := flip_shift (clz_toNat nonzero) exponent_le
    show ((input.clz ^^^ 31) >>> 1).toNat = _
    rw [BitVec.toNat_ushiftRight, Nat.shiftRight_eq_div_pow, flip, pow_one]
  rw [divisionEstimate_positive nonzero positive, shift]
  exact scaled_entry (divisionRom_toNat entry normal) normal _

end Estimate

section Bounds

variable {k r m E X b e c : ℕ}

theorem scaled_le (value : E = r * 2 ^ 14 / 2 ^ k) : E * 2 ^ k ≤ r * 2 ^ 14 := by
  rw [value]
  exact Nat.div_mul_le_self _ _

theorem lt_scaled_next (value : E = r * 2 ^ 14 / 2 ^ k) : r * 2 ^ 14 < (E + 1) * 2 ^ k := by
  rw [value, Nat.mul_comm (_ + 1)]
  exact Nat.lt_mul_div_succ _ (Nat.two_pow_pos k)

theorem reciprocal_bounds (le : k ≤ 31) (word : m = X * 2 ^ (31 - k)) (least : 512 ≤ b)
    (most : b < 1024) (low : 2 ^ 22 * b ≤ m) (high : m < 2 ^ 22 * (b + 1))
    (entry : r * b ≤ 2 ^ 26) (next : 2 ^ 26 ≤ (r + 1) * b) (value : E = r * 2 ^ 14 / 2 ^ k) :
    2 ^ 9 * (E * X) ≤ 2 ^ 31 * (2 ^ 9 + 1) ∧ 2 ^ 31 * 65535 < 2 ^ 16 * ((E + 1) * X) := by
  have split : 2 ^ k * 2 ^ (31 - k) = 2 ^ 31 := by rw [← pow_add, Nat.add_sub_of_le le]
  constructor
  · have scaled : 2 ^ 31 * (E * X) ≤ 2 ^ 14 * (r * m) := by
      calc 2 ^ 31 * (E * X) = E * 2 ^ k * m := by rw [word, ← split]; ring
        _ ≤ r * 2 ^ 14 * m := Nat.mul_le_mul_right m (scaled_le value)
        _ = 2 ^ 14 * (r * m) := by ring
    have leading : 512 * m ≤ 513 * 2 ^ 22 * b := by omega
    have product : 512 * (r * m) ≤ 513 * 2 ^ 22 * (r * b) := by
      calc 512 * (r * m) = r * (512 * m) := by ring
        _ ≤ r * (513 * 2 ^ 22 * b) := Nat.mul_le_mul_left r leading
        _ = 513 * 2 ^ 22 * (r * b) := by ring
    omega
  · have positive : 0 < m := by omega
    have scaled : 2 ^ 14 * (r * m) < 2 ^ 31 * ((E + 1) * X) := by
      calc 2 ^ 14 * (r * m) = r * 2 ^ 14 * m := by ring
        _ < (E + 1) * 2 ^ k * m := Nat.mul_lt_mul_of_pos_right (lt_scaled_next value) positive
        _ = 2 ^ 31 * ((E + 1) * X) := by rw [word, ← split]; ring
    have product : 2 ^ 22 * (r * b) ≤ r * m := by
      calc 2 ^ 22 * (r * b) = r * (2 ^ 22 * b) := by ring
        _ ≤ r * m := Nat.mul_le_mul_left r low
    rw [Nat.add_mul, Nat.one_mul] at next
    omega

theorem root_bounds {j : ℕ} (scale : 2 ^ j * 2 ^ j * 2 ^ (31 - k) = 2 ^ (e - 11))
    (exponent : 41 ≤ e) (word : m = X * 2 ^ (31 - k)) (positive : 0 < m) (least : 256 ≤ c)
    (low : 2 ^ 23 * c ≤ m) (high : m < 2 ^ 23 * (c + 1)) (normal : Normal r)
    (entry : r * r * c ≤ 2 ^ e)
    (next : 2 ^ e ≤ (r + 1) * (r + 1) * c) (value : E = r * 2 ^ 14 / 2 ^ j) :
    2 ^ 8 * (E * E * X) ≤ 2 ^ 62 * (2 ^ 8 + 1) ∧
      2 ^ 94 < (2 ^ 16 + 1) ^ 2 * ((E + 1) * (E + 1) * X) := by
  have split : 2 ^ e = 2 ^ 11 * 2 ^ (e - 11) := by rw [← pow_add]; congr 1; omega
  have unit : 0 < 2 ^ (e - 11) := Nat.two_pow_pos _
  constructor
  · have scaled : 2 ^ (e - 11) * (E * E * X) ≤ 2 ^ 28 * (r * r * m) := by
      calc 2 ^ (e - 11) * (E * E * X) = E * 2 ^ j * (E * 2 ^ j) * m := by rw [word, ← scale]; ring
        _ ≤ r * 2 ^ 14 * (r * 2 ^ 14) * m :=
          Nat.mul_le_mul_right m (Nat.mul_self_le_mul_self (scaled_le value))
        _ = 2 ^ 28 * (r * r * m) := by ring
    have leading : 256 * m ≤ 257 * 2 ^ 23 * c := by omega
    have product : 256 * (r * r * m) ≤ 257 * 2 ^ 23 * (r * r * c) := by
      calc 256 * (r * r * m) = r * r * (256 * m) := by ring
        _ ≤ r * r * (257 * 2 ^ 23 * c) := Nat.mul_le_mul_left _ leading
        _ = 257 * 2 ^ 23 * (r * r * c) := by ring
    apply Nat.le_of_mul_le_mul_left _ unit
    calc 2 ^ (e - 11) * (2 ^ 8 * (E * E * X)) = 2 ^ 8 * (2 ^ (e - 11) * (E * E * X)) := by ring
      _ ≤ 2 ^ 8 * (2 ^ 28 * (r * r * m)) := Nat.mul_le_mul_left _ scaled
      _ = 2 ^ 28 * (256 * (r * r * m)) := by ring
      _ ≤ 2 ^ 28 * (257 * 2 ^ 23 * (r * r * c)) := Nat.mul_le_mul_left _ product
      _ ≤ 2 ^ 28 * (257 * 2 ^ 23 * 2 ^ e) := Nat.mul_le_mul_left _ (Nat.mul_le_mul_left _ entry)
      _ = 2 ^ (e - 11) * (2 ^ 62 * (2 ^ 8 + 1)) := by rw [split]; ring
  · have scaled : 2 ^ 28 * (r * r * m) < 2 ^ (e - 11) * ((E + 1) * (E + 1) * X) := by
      calc 2 ^ 28 * (r * r * m) = r * 2 ^ 14 * (r * 2 ^ 14) * m := by ring
        _ < (E + 1) * 2 ^ j * ((E + 1) * 2 ^ j) * m :=
          Nat.mul_lt_mul_of_pos_right (Nat.mul_self_lt_mul_self (lt_scaled_next value)) positive
        _ = 2 ^ (e - 11) * ((E + 1) * (E + 1) * X) := by rw [word, ← scale]; ring
    have larger : (r + 1) * 2 ^ 16 ≤ r * (2 ^ 16 + 1) := by
      have least := normal.1
      omega
    have squares : 2 ^ 32 * ((r + 1) * (r + 1) * c) ≤ (2 ^ 16 + 1) ^ 2 * (r * r * c) := by
      calc 2 ^ 32 * ((r + 1) * (r + 1) * c) = (r + 1) * 2 ^ 16 * ((r + 1) * 2 ^ 16) * c := by ring
        _ ≤ r * (2 ^ 16 + 1) * (r * (2 ^ 16 + 1)) * c :=
          Nat.mul_le_mul_right c (Nat.mul_self_le_mul_self larger)
        _ = (2 ^ 16 + 1) ^ 2 * (r * r * c) := by ring
    apply Nat.lt_of_mul_lt_mul_left (a := 2 ^ (e - 11))
    calc 2 ^ (e - 11) * 2 ^ 94 = 2 ^ 28 * 2 ^ 23 * (2 ^ 32 * 2 ^ e) := by rw [split]; ring
      _ ≤ 2 ^ 28 * 2 ^ 23 * (2 ^ 32 * ((r + 1) * (r + 1) * c)) :=
        Nat.mul_le_mul_left _ (Nat.mul_le_mul_left _ next)
      _ ≤ 2 ^ 28 * 2 ^ 23 * ((2 ^ 16 + 1) ^ 2 * (r * r * c)) := Nat.mul_le_mul_left _ squares
      _ = (2 ^ 16 + 1) ^ 2 * (2 ^ 28 * (r * r * (2 ^ 23 * c))) := by ring
      _ ≤ (2 ^ 16 + 1) ^ 2 * (2 ^ 28 * (r * r * m)) :=
        Nat.mul_le_mul_left _ (Nat.mul_le_mul_left _ (Nat.mul_le_mul_left _ low))
      _ < (2 ^ 16 + 1) ^ 2 * (2 ^ (e - 11) * ((E + 1) * (E + 1) * X)) :=
        Nat.mul_lt_mul_of_pos_left scaled (by decide)
      _ = 2 ^ (e - 11) * ((2 ^ 16 + 1) ^ 2 * ((E + 1) * (E + 1) * X)) := by ring

theorem scaled_antitone {s l : ℕ} (smaller : k = l ∧ s ≤ r ∨ k < l ∧ s ≤ 2 * r) :
    s * 2 ^ 14 / 2 ^ l ≤ r * 2 ^ 14 / 2 ^ k := by
  rcases smaller with ⟨rfl, le⟩ | ⟨lt, le⟩
  · exact Nat.div_le_div_right (Nat.mul_le_mul_right _ le)
  · have half : 2 ^ (k + 1) ≤ 2 ^ l := Nat.pow_le_pow_right (by decide) lt
    calc s * 2 ^ 14 / 2 ^ l ≤ s * 2 ^ 14 / 2 ^ (k + 1) :=
          Nat.div_le_div_left half (Nat.two_pow_pos _)
      _ ≤ r * 2 ^ 14 * 2 / (2 ^ k * 2) := by
        rw [pow_succ]
        apply Nat.div_le_div_right
        calc s * 2 ^ 14 ≤ 2 * r * 2 ^ 14 := Nat.mul_le_mul_right _ le
          _ = r * 2 ^ 14 * 2 := by ring
      _ = r * 2 ^ 14 / 2 ^ k := Nat.mul_div_mul_right _ _ (by decide)

end Bounds

section Instructions

def dividend (v : VectorUnit) (insn : U32) : U16 :=
  v.vpr (Insn.rt insn) (laneAt (insn.extractLsb' 21 4).toNat)

def quotient (v : VectorUnit) (insn : U32) : U16 :=
  v.vpr (Insn.sa insn) (laneAt (Insn.rd insn).toNat)

variable {v : VectorUnit} {insn : U32}

theorem divide_copied (vd : BitVec 5) (st : Lanes) :
    let t := forLanes (fun lane t => t.setAccumulatorLow lane (st lane))
      { unit := v, result := v.vpr vd }
    t.unit.divIn = v.divIn ∧ t.unit.divOut = v.divOut ∧
      t.unit.divHighPending = v.divHighPending :=
  ⟨forLanes_frame (fun t => t.unit.divIn) (fun _ _ => rfl) _,
    forLanes_frame (fun t => t.unit.divOut) (fun _ _ => rfl) _,
    forLanes_frame (fun t => t.unit.divHighPending) (fun _ _ => rfl) _⟩

/-- VRCPH and VRSQH read the last result's high half and take the next word's. -/
theorem execVector_high (h : Insn.fn insn = 0x32 ∨ Insn.fn insn = 0x36) :
    quotient (execVector v insn) insn = (v.divOut >>> 16).setWidth 16 ∧
      (execVector v insn).divIn = (dividend v insn).setWidth 32 <<< 16 ∧
      (execVector v insn).divHighPending = true := by
  obtain ⟨-, out, -⟩ := divide_copied (v := v) (Insn.sa insn) (sourceT v insn)
  rcases h with h | h
  · rw [execVector_step v (by rw [h]; rfl)]
    simp [divide, quotient, dividend, VectorStep.setResult, out]
  · rw [execVector_step v (by rw [h]; rfl)]
    simp [divide, quotient, dividend, VectorStep.setResult, out]

theorem execVector_low {squareRoot : Bool}
    (h : Insn.fn insn = if squareRoot then 0x35 else 0x31) (pending : v.divHighPending = true) :
    quotient (execVector v insn) insn = (execVector v insn).divOut.setWidth 16 ∧
      (execVector v insn).divOut =
        divisionEstimate (v.divIn ||| (dividend v insn).setWidth 32) squareRoot true := by
  obtain ⟨word, -, flag⟩ := divide_copied (v := v) (Insn.sa insn) (sourceT v insn)
  cases squareRoot with
  | false =>
    rw [execVector_step v (by rw [h]; rfl)]
    simp [divide, quotient, dividend, VectorStep.setResult, word, flag, pending]
  | true =>
    rw [execVector_step v (by rw [h]; rfl)]
    simp [divide, quotient, dividend, VectorStep.setResult, word, flag, pending]

/-- A word fed to a reciprocal or an inverse square root: its halves are where
the first two instructions read them, and the third reads the high half back. -/
structure Divides (squareRoot : Bool) (v : VectorUnit) (high low next word : U32) : Prop where
  highFn : Insn.fn high = if squareRoot then 0x36 else 0x32
  lowFn : Insn.fn low = if squareRoot then 0x35 else 0x31
  nextFn : Insn.fn next = if squareRoot then 0x36 else 0x32
  highWord : dividend v high = highHalf word
  lowWord : dividend (execVector v high) low = lowHalf word

/-- The result of the three instructions: the high half from the third and the
low half from the second. -/
def division (v : VectorUnit) (high low next : U32) : U32 :=
  let divided := execVector (execVector v high) low
  quotient (execVector divided next) next ++ quotient divided low

theorem join_halves (x : U32) : highHalf x ++ lowHalf x = x := by
  apply BitVec.eq_of_getLsbD_eq
  intro i hi
  rw [BitVec.getLsbD_append]
  by_cases low : i < 16
  · simp [lowHalf, low]
  · simp [highHalf, low, show i - 16 < 16 by omega, show 16 + (i - 16) = i by omega]

theorem or_halves (x : U32) :
    ((highHalf x).setWidth 32 <<< 16) ||| (lowHalf x).setWidth 32 = x := by
  have joined : (highHalf x ++ lowHalf x).setWidth 32 =
      ((highHalf x).setWidth 32 <<< 16) ||| (lowHalf x).setWidth 32 :=
    BitVec.setWidth_append_eq_shiftLeft_setWidth_or
  rw [← joined, join_halves, BitVec.setWidth_eq]

theorem Divides.division_eq {squareRoot : Bool} {high low next word : U32}
    (h : Divides squareRoot v high low next word) :
    division v high low next = divisionEstimate word squareRoot true := by
  have either (fn : ℕ) (fnIs : fn = if squareRoot then 0x36 else 0x32) :
      fn = 0x32 ∨ fn = 0x36 := by
    cases squareRoot
    · exact Or.inl fnIs
    · exact Or.inr fnIs
  obtain ⟨-, taken, pending⟩ := execVector_high (v := v) (either _ h.highFn)
  obtain ⟨lowResult, out⟩ := execVector_low h.lowFn pending
  obtain ⟨highResult, -, -⟩ :=
    execVector_high (v := execVector (execVector v high) low) (either _ h.nextFn)
  rw [taken, h.highWord, h.lowWord, or_halves] at out
  have halves : quotient (execVector (execVector (execVector v high) low) next) next =
      highHalf (execVector (execVector v high) low).divOut := by
    rw [highResult]
    ext i hi
    simp [highHalf]
  have joined := join_halves (execVector (execVector v high) low).divOut
  rw [← out, ← joined]
  exact congrArg₂ (· ++ ·) halves lowResult

end Instructions

section Accuracy

/-- The bounds on the result for `x`, as fractions. -/
def Accurate (squareRoot : Bool) (x E : ℚ) : Prop :=
  if squareRoot then
    E ^ 2 * x ≤ 2 ^ 62 * (1 + 1 / 2 ^ 9) ^ 2 ∧ 2 ^ 62 * (1 - 1 / 2 ^ 16) ^ 2 < (E + 1) ^ 2 * x
  else E ≤ 2 ^ 31 / x * (1 + 1 / 2 ^ 9) ∧ 2 ^ 31 / x * (1 - 1 / 2 ^ 16) < E + 1

variable {word other : U32}

theorem estimate_reciprocal_accurate (nonzero : word ≠ 0) (positive : 0 ≤ word.toInt) :
    Accurate false word.toNat (divisionEstimate word false true).toNat := by
  obtain ⟨least, below⟩ := mantissa_normal nonzero
  have value := estimate_reciprocal nonzero positive
  obtain ⟨upper, lower⟩ := reciprocal_bounds (X := word.toNat) (m := mantissa word) exponent_le
    rfl (by omega) (by omega) (by omega) (by omega) reciprocal_le (reciprocal_next (by omega)) value
  have x : (0 : ℚ) < word.toNat := by
    have nat : word.toNat ≠ 0 := fun zero => nonzero (BitVec.eq_of_toNat_eq zero)
    exact_mod_cast Nat.pos_of_ne_zero nat
  generalize (divisionEstimate word false true).toNat = E at upper lower ⊢
  have upper : (2 : ℚ) ^ 9 * (E * word.toNat) ≤ 2 ^ 31 * (2 ^ 9 + 1) := by
    exact_mod_cast upper
  have lower : (2 : ℚ) ^ 31 * 65535 < 2 ^ 16 * ((E + 1) * word.toNat) := by
    exact_mod_cast lower
  constructor
  · rw [div_mul_eq_mul_div, le_div_iff₀ x]
    linarith
  · rw [div_mul_eq_mul_div, div_lt_iff₀ x]
    linarith

theorem estimate_root_accurate (nonzero : word ≠ 0) (positive : 0 ≤ word.toInt) :
    Accurate true word.toNat (divisionEstimate word true true).toNat := by
  obtain ⟨least, below⟩ := mantissa_normal nonzero
  have value := estimate_root nonzero positive
  have le : exponent word ≤ 31 := exponent_le
  have scale : 2 ^ (exponent word / 2) * 2 ^ (exponent word / 2) * 2 ^ (31 - exponent word) =
      2 ^ (rootExponent word - 11) := by
    rw [← pow_add, ← pow_add]
    unfold rootExponent
    congr 1
    omega
  have range : 41 ≤ rootExponent word ∧ rootExponent word ≤ 42 := by
    unfold rootExponent
    omega
  obtain ⟨upper, lower⟩ := root_bounds (X := word.toNat) (m := mantissa word) scale range.1 rfl
    (by omega) (by omega) (by omega) (by omega) (root_normal range.1 (by omega) (by omega)) root_le
    (root_next range.2 (by omega)) value
  generalize (divisionEstimate word true true).toNat = E at upper lower ⊢
  have upper : (2 : ℚ) ^ 8 * (E * E * word.toNat) ≤ 2 ^ 62 * (2 ^ 8 + 1) := by
    exact_mod_cast upper
  have lower : (2 : ℚ) ^ 94 < (2 ^ 16 + 1) ^ 2 * ((E + 1) * (E + 1) * word.toNat) := by
    exact_mod_cast lower
  constructor
  · rw [pow_two]
    linarith
  · rw [pow_two (_ + 1)]
    linarith

/-- A larger word has a larger exponent, or the same and no smaller leading bits. -/
theorem exponent_mono (nonzero : word ≠ 0) (le : word.toNat ≤ other.toNat) :
    exponent word < exponent other ∨
      exponent word = exponent other ∧ mantissa word ≤ mantissa other := by
  have present : other ≠ 0 := by
    rintro rfl
    exact nonzero (BitVec.eq_of_toNat_eq (Nat.le_zero.mp le))
  rcases Nat.lt_trichotomy (exponent word) (exponent other) with lt | same | gt
  · exact Or.inl lt
  · refine Or.inr ⟨same, ?_⟩
    unfold mantissa
    rw [same]
    exact Nat.mul_le_mul_right _ le
  · have low := two_pow_exponent_le nonzero
    have high := lt_two_pow_exponent present
    have step : 2 ^ (exponent other + 1) ≤ 2 ^ exponent word :=
      Nat.pow_le_pow_right (by decide) gt
    omega

theorem Normal.double {r s : ℕ} (hr : Normal r) (hs : Normal s) : s ≤ 2 * r := by
  have least := hr.1
  have most := hs.2
  omega

theorem estimate_reciprocal_antitone (nonzero : word ≠ 0) (positive : 0 ≤ other.toInt)
    (wordPositive : 0 ≤ word.toInt) (present : other ≠ 0) (le : word.toNat ≤ other.toNat) :
    (divisionEstimate other false true).toNat ≤ (divisionEstimate word false true).toNat := by
  obtain ⟨least, below⟩ := mantissa_normal nonzero
  obtain ⟨otherLeast, otherBelow⟩ := mantissa_normal present
  rw [estimate_reciprocal nonzero wordPositive, estimate_reciprocal present positive]
  apply scaled_antitone
  rcases exponent_mono nonzero le with lt | ⟨same, mantissas⟩
  · exact Or.inr ⟨lt, (reciprocal_normal (by omega) (by omega)).double
      (reciprocal_normal (by omega) (by omega))⟩
  · exact Or.inl ⟨same, reciprocal_antitone (by omega) (Nat.div_le_div_right mantissas)⟩

theorem estimate_root_antitone (nonzero : word ≠ 0) (positive : 0 ≤ other.toInt)
    (wordPositive : 0 ≤ word.toInt) (present : other ≠ 0) (le : word.toNat ≤ other.toNat) :
    (divisionEstimate other true true).toNat ≤ (divisionEstimate word true true).toNat := by
  obtain ⟨least, below⟩ := mantissa_normal nonzero
  obtain ⟨otherLeast, otherBelow⟩ := mantissa_normal present
  have otherLe : exponent other ≤ 31 := exponent_le
  rw [estimate_root nonzero wordPositive, estimate_root present positive]
  apply scaled_antitone
  rcases exponent_mono nonzero le with lt | ⟨same, mantissas⟩
  · by_cases binade : exponent word / 2 < exponent other / 2
    · exact Or.inr ⟨binade,
        (root_normal (Nat.le_add_right 41 _) (by omega) (by omega)).double
          (root_normal (Nat.le_add_right 41 _) (by omega) (by omega))⟩
    · -- the exponents are an even number and the odd one after it
      have even : rootExponent word = 42 := by
        unfold rootExponent
        omega
      have odd : rootExponent other = 41 := by
        unfold rootExponent
        omega
      rw [even, odd]
      exact Or.inl ⟨by omega, root_exponent (by omega) (by omega) (by omega)⟩
  · have exponents : rootExponent word = rootExponent other := by
      unfold rootExponent
      rw [same]
    rw [exponents, same]
    exact Or.inl ⟨rfl, root_antitone (by omega) (Nat.div_le_div_right mantissas)⟩

/-- The results for positive words are within the bounds, and a larger word
never has the larger result. -/
theorem division_accuracy {squareRoot : Bool} {v : VectorUnit} {high low next word : U32}
    (divides : Divides squareRoot v high low next word) (positive : 0 < word.toNat)
    (below : word.toNat < 2 ^ 31) :
    Accurate squareRoot word.toNat (division v high low next).toNat ∧
      ∀ (v' : VectorUnit) (high' low' next' other : U32),
        Divides squareRoot v' high' low' next' other → word.toNat ≤ other.toNat →
          other.toNat < 2 ^ 31 →
          (division v' high' low' next').toNat ≤ (division v high low next).toNat := by
  have signed (x : U32) (small : x.toNat < 2 ^ 31) : 0 ≤ x.toInt := by
    rw [BitVec.toInt_eq_toNat_of_lt (by omega)]
    exact Int.natCast_nonneg _
  have nonzero (x : U32) (h : 0 < x.toNat) : x ≠ 0 := by
    rintro rfl
    exact absurd h (Nat.lt_irrefl 0)
  constructor
  · rw [divides.division_eq]
    cases squareRoot
    · exact estimate_reciprocal_accurate (nonzero _ positive) (signed _ below)
    · exact estimate_root_accurate (nonzero _ positive) (signed _ below)
  · intro v' high' low' next' other divides' le small
    rw [divides.division_eq, divides'.division_eq]
    have present := nonzero other (by omega)
    cases squareRoot
    · exact estimate_reciprocal_antitone (nonzero _ positive) (signed _ small) (signed _ below)
        present le
    · exact estimate_root_antitone (nonzero _ positive) (signed _ small) (signed _ below) present le

/-- Register 1 holds a word's high half in lane 0 and its low half in lane 1. -/
def halvesUnit (word : U32) : VectorUnit :=
  { vpr := fun r lane =>
      if r = 1 then
        if lane.val = 0 then highHalf word else if lane.val = 1 then lowHalf word else 0
      else 0 }

/-- The reciprocal of three, by VRCPH, VRCPL and VRCPH. -/
theorem division_accuracy_three :
    Accurate false 3 0x2AAAA000 ∧
      (division (halvesUnit 4) 0x4A0100B2 0x4A2108B1 0x4A0110B2).toNat ≤
        (division (halvesUnit 3) 0x4A0100B2 0x4A2108B1 0x4A0110B2).toNat := by
  have divides (word : U32) (small : word = 3 ∨ word = 4) :
      Divides false (halvesUnit word) 0x4A0100B2 0x4A2108B1 0x4A0110B2 word := by
    rcases small with rfl | rfl <;>
      exact ⟨rfl, rfl, rfl, by decide +kernel, by decide +kernel⟩
  have three := division_accuracy (divides 3 (Or.inl rfl)) (by decide) (by decide)
  have value : (division (halvesUnit 3) 0x4A0100B2 0x4A2108B1 0x4A0110B2).toNat = 0x2AAAA000 := by
    decide +kernel
  constructor
  · have accurate := three.1
    rwa [value] at accurate
  · exact three.2 _ _ _ _ 4 (divides 4 (Or.inr rfl)) (by decide) (by decide)

end Accuracy

end N64.RspVector
