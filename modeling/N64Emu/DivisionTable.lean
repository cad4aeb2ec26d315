import N64Emu.DigitRoot
import N64Emu.LowMasks
import N64Emu.VectorDouble

/-!
# The division table

The table entries of the reciprocal and of the inverse square root, with the
integer square root they are computed by.
-/

set_option autoImplicit false

namespace N64.RspVector

open Words Loops

section SquareRoot

/-- The locals with `d` digits to come. -/
def RootLeft (n : ℕ) (d : ℕ) (t : SquareRoot) : Prop :=
  t.bit.toNat = DigitRoot.weight d ∧
    ∃ root, DigitRoot.Partial n d root t.value.toNat t.result.toNat

theorem quarter_toNat {bit : U64} {d : ℕ} (h : bit.toNat = DigitRoot.weight (d + 1)) :
    (bit >>> 2).toNat = DigitRoot.weight d := by
  rw [BitVec.toNat_ushiftRight, Nat.shiftRight_eq_div_pow, h]
  exact DigitRoot.weight_quarter d

theorem RootLeft.step {n d : ℕ} {t : SquareRoot} (below : n < 2 ^ 64) (digits : d + 1 ≤ 32)
    (h : RootLeft n (d + 1) t) : RootLeft n d (squareRootStep t) := by
  obtain ⟨bit, root, part⟩ := h
  have small : t.result.toNat + DigitRoot.weight (d + 1) < 2 ^ 64 := part.bounded below digits
  have sum : (t.result + t.bit).toNat = t.result.toNat + DigitRoot.weight (d + 1) := by
    rw [BitVec.toNat_add, bit, Nat.mod_eq_of_lt small]
  have half : (t.result >>> 1).toNat = t.result.toNat / 2 := by
    rw [BitVec.toNat_ushiftRight, Nat.shiftRight_eq_div_pow, pow_one]
  have digit : t.result + t.bit ≤ t.value ↔
      t.result.toNat + DigitRoot.weight (d + 1) ≤ t.value.toNat := by
    rw [BitVec.le_def, sum]
  unfold squareRootStep
  by_cases fits : t.result + t.bit ≤ t.value
  · have one := part.one (digit.mp fits)
    rw [if_pos fits]
    refine ⟨quarter_toNat bit, root + 2 ^ d, ?_⟩
    have rest : (t.value - (t.result + t.bit)).toNat =
        t.value.toNat - (t.result.toNat + DigitRoot.weight (d + 1)) := by
      rw [BitVec.toNat_sub_of_le fits, sum]
    have scaled : ((t.result >>> 1) + t.bit).toNat =
        t.result.toNat / 2 + DigitRoot.weight (d + 1) := by
      rw [BitVec.toNat_add, half, bit, Nat.mod_eq_of_lt (by omega)]
    rwa [← rest, ← scaled] at one
  · have zero := part.zero (mt digit.mpr fits)
    rw [if_neg fits]
    refine ⟨quarter_toNat bit, root, ?_⟩
    rwa [← half] at zero

theorem RootLeft.digit {n d : ℕ} {t : SquareRoot} (more : (t.bit != 0) = true)
    (h : RootLeft n d t) : ∃ e, d = e + 1 := by
  cases d with
  | zero =>
    have nothing : t.bit = 0 := BitVec.eq_of_toNat_eq h.1
    exact absurd nothing (bne_iff_ne.mp more)
  | succ e => exact ⟨e, rfl⟩

theorem RootLeft.last {n d : ℕ} {t : SquareRoot} (ended : (t.bit != 0) = false)
    (h : RootLeft n d t) : d = 0 := by
  cases d with
  | zero => rfl
  | succ d =>
    have positive := DigitRoot.weight_pos d
    have value := h.1
    rw [(bne_eq_false_iff_eq.mp ended : t.bit = 0)] at value
    exact absurd value (Nat.ne_of_lt positive)

theorem RootLeft.finish {n : ℕ} {t : SquareRoot} (d fuel : ℕ) (below : n < 2 ^ 64)
    (digits : d ≤ 32) (enough : d ≤ fuel) (h : RootLeft n d t) :
    RootLeft n 0 (whileDo (fun t : SquareRoot => t.bit != 0) squareRootStep fuel t) := by
  obtain ⟨ended, e, -, rest, -⟩ := whileDo_ranked _ _ (fun d t => RootLeft n d t ∧ d ≤ 32)
    (fun t ⟨h, _⟩ => by
      by_contra more
      obtain ⟨e, impossible⟩ := h.digit (Bool.eq_true_of_not_eq_false more)
      omega)
    (fun d t _ ⟨h, digits⟩ => ⟨h.step below digits, by omega⟩) enough
    (show RootLeft n d t ∧ d ≤ 32 from ⟨h, digits⟩)
  rwa [rest.last ended] at rest

/-- Nothing found yet, and the root has at most `d` digits. -/
def Unstarted (value : U64) (t : SquareRoot) : Prop :=
  t.value = value ∧ t.result = 0 ∧
    ∃ d ≤ 32, value.toNat < 2 ^ d * 2 ^ d ∧ t.bit.toNat = DigitRoot.weight d

theorem Unstarted.skip {value : U64} {t : SquareRoot} (running : t.value < t.bit)
    (h : Unstarted value t) : Unstarted value { t with bit := t.bit >>> 2 } := by
  obtain ⟨same, zero, d, digits, fits, bit⟩ := h
  rw [BitVec.lt_def, bit, same] at running
  cases d with
  | zero => exact absurd running (Nat.not_lt_zero _)
  | succ d =>
    rw [DigitRoot.weight_succ] at running
    exact ⟨same, zero, d, by omega, running, quarter_toNat bit⟩

theorem Unstarted.rootLeft {value : U64} {t : SquareRoot} (h : Unstarted value t) :
    ∃ d ≤ 32, RootLeft value.toNat d t := by
  obtain ⟨same, zero, d, digits, fits, bit⟩ := h
  refine ⟨d, digits, bit, 0, ?_⟩
  rw [same, zero]
  exact DigitRoot.Partial.start fits

theorem Unstarted.init (value : U64) : Unstarted value { value := value } := by
  have top : (1#64 <<< 62).toNat = DigitRoot.weight 32 := by decide
  exact ⟨rfl, rfl, 32, le_refl 32, value.isLt, top⟩

/-- `integer_square_root` after its first loop. -/
def findTop (value : U64) : SquareRoot :=
  whileDo (fun t : SquareRoot => t.value < t.bit) (fun t => { t with bit := t.bit >>> 2 }) 32
    { value := value }

theorem findTop_unstarted (value : U64) : Unstarted value (findTop value) :=
  whileDo_preserves (Unstarted value) 32 (Unstarted.init value)
    fun _ running h => h.skip (of_decide_eq_true running)

/-- The first loop ends by its condition, at the latest when no bit is left. -/
theorem findTop_ends (value : U64) : ¬ (findTop value).value < (findTop value).bit := by
  have top : (1#64 <<< 62).toNat = DigitRoot.weight 32 := by decide
  have ended := whileDo_ranked (fun t : SquareRoot => decide (t.value < t.bit))
    (fun t => { t with bit := t.bit >>> 2 }) (fun d t => t.bit.toNat = DigitRoot.weight d)
    (fun t nothing => decide_eq_false fun below => by
      rw [BitVec.lt_def, nothing] at below
      exact absurd below (Nat.not_lt_zero _))
    (fun d t _ bit => quarter_toNat bit) (le_refl 32) (s := { value := value }) top
  exact of_decide_eq_false ended.1

theorem integerSquareRoot_toNat (value : U64) :
    (integerSquareRoot value).toNat = Nat.sqrt value.toNat := by
  obtain ⟨d, digits, start⟩ := (findTop_unstarted value).rootLeft
  obtain ⟨-, root, part⟩ := RootLeft.finish d 32 value.isLt digits digits start
  have small : Nat.sqrt value.toNat < 2 ^ 32 :=
    Nat.sqrt_lt.mpr (by rw [← pow_two, ← pow_mul]; exact value.isLt)
  rw [← part.done] at small ⊢
  exact (BitVec.toNat_setWidth _ _).trans (Nat.mod_eq_of_lt small)

/-- The last state of `integer_square_root`. -/
def rootEnd (value : U64) : SquareRoot :=
  whileDo (fun t : SquareRoot => t.bit != 0) squareRootStep 32 (findTop value)

theorem rootEnd_left (value : U64) : RootLeft value.toNat 0 (rootEnd value) := by
  obtain ⟨d, digits, start⟩ := (findTop_unstarted value).rootLeft
  exact RootLeft.finish d 32 value.isLt digits digits start

theorem squareRoot_pass {value : U64} {t : SquareRoot}
    (pass : t ∈ passes (fun t : SquareRoot => t.bit != 0) squareRootStep 32 (findTop value)) :
    t.result.toNat + t.bit.toNat < 2 ^ 64 ∧ (t.result >>> 1).toNat + t.bit.toNat < 2 ^ 64 := by
  obtain ⟨d, digits, start⟩ := (findTop_unstarted value).rootLeft
  obtain ⟨more, d, digits, bit, root, part⟩ := mem_passes
    (fun t => ∃ d ≤ 32, RootLeft value.toNat d t)
    (fun t more ⟨d, digits, h⟩ => by
      obtain ⟨e, rfl⟩ := h.digit more
      exact ⟨e, by omega, h.step value.isLt digits⟩) 32 ⟨d, digits, start⟩ pass
  obtain ⟨e, rfl⟩ := RootLeft.digit more ⟨bit, root, part⟩
  have small : t.result.toNat + DigitRoot.weight (e + 1) < 2 ^ 64 :=
    part.bounded value.isLt digits
  have half : (t.result >>> 1).toNat = t.result.toNat / 2 := by
    rw [BitVec.toNat_ushiftRight, Nat.shiftRight_eq_div_pow, pow_one]
  rw [half, bit]
  omega

end SquareRoot

section Entries

def cut (n : ℕ) : ℕ := min n 0x1FFFF

def reciprocalEntry (b : ℕ) : ℕ := cut (2 ^ 26 / b)

/-- The exponent is 42 for an odd index and 41 for an even one. -/
def rootEntry (exponent c : ℕ) : ℕ := cut (Nat.sqrt (2 ^ exponent / c))

theorem cut_toNat {full : U32} {n : ℕ} (h : full.toNat = n) :
    (if 0x1FFFF < full then 0x1FFFF else full).toNat = cut n := by
  have largest : (0x1FFFF : U32).toNat = 0x1FFFF := rfl
  unfold cut
  by_cases big : 0x1FFFF < full
  · rw [if_pos big, largest]
    rw [BitVec.lt_def, h, largest] at big
    exact (Nat.min_eq_right (Nat.le_of_lt big)).symm
  · rw [if_neg big, h]
    rw [BitVec.lt_def, h, largest] at big
    exact (Nat.min_eq_left (Nat.le_of_not_lt big)).symm

theorem divisionFull_reciprocal {a : ℕ} (inside : a < 512) :
    (divisionFull a).toNat = reciprocalEntry (a + 512) := by
  have small : 2 ^ 26 / (a + 512) < 2 ^ 32 := (Nat.div_le_self _ _).trans_lt (by decide)
  unfold divisionFull
  rw [if_pos inside]
  apply cut_toNat
  rw [BitVec.toNat_ofNat, Nat.mod_eq_of_lt small]

theorem divisionFull_root (f odd : ℕ) (bit : odd < 2) :
    (divisionFull (512 + 2 * f + odd)).toNat = rootEntry (41 + odd) (f + 256) := by
  have index : 512 + 2 * f + odd - 512 = 2 * f + odd := by omega
  have fraction : (2 * f + odd) / 2 = f := by omega
  have parity : (if (2 * f + odd) % 2 ≠ 0 then 42 else 41) = 41 + odd := by
    by_cases even : odd = 0
    · rw [if_neg (by omega), even]
    · rw [if_pos (by omega)]
      omega
  have bound : 2 ^ (41 + odd) ≤ 2 ^ 42 := Nat.pow_le_pow_right (by decide) (by omega)
  have small : 2 ^ (41 + odd) / (f + 256) < 2 ^ 64 := by
    have le := Nat.div_le_self (2 ^ (41 + odd)) (f + 256)
    omega
  unfold divisionFull
  rw [if_neg (show ¬ 512 + 2 * f + odd < 512 by omega)]
  simp only [index, fraction, parity]
  apply cut_toNat
  rw [integerSquareRoot_toNat, BitVec.toNat_ofNat, Nat.mod_eq_of_lt small]

def Normal (r : ℕ) : Prop := 2 ^ 16 ≤ r ∧ r < 2 ^ 17

theorem cut_normal {n : ℕ} (least : 2 ^ 16 ≤ n) : Normal (cut n) := by
  unfold Normal cut
  omega

theorem cut_mono {n m : ℕ} (h : n ≤ m) : cut n ≤ cut m := min_le_min_right _ h

theorem divisionRom_toNat {address r : ℕ} (h : (divisionFull address).toNat = r)
    (normal : Normal r) : (divisionRom address).toNat = r - 2 ^ 16 := by
  obtain ⟨least, below⟩ := normal
  have leading : (0x10000 : U32).toNat = 2 ^ 16 := rfl
  have no_borrow : (0x10000 : U32) ≤ divisionFull address := by
    rw [BitVec.le_def, h, leading]
    exact least
  rw [divisionRom, BitVec.toNat_setWidth, BitVec.toNat_sub_of_le no_borrow, h, leading]
  exact Nat.mod_eq_of_lt (by omega)

section Reciprocal

variable {b c : ℕ}

theorem reciprocal_normal (low : 512 ≤ b) (high : b < 1024) : Normal (reciprocalEntry b) :=
  cut_normal ((Nat.le_div_iff_mul_le (by omega)).mpr (by omega))

theorem reciprocal_le : reciprocalEntry b * b ≤ 2 ^ 26 :=
  (Nat.mul_le_mul_right b (min_le_left _ _)).trans (Nat.div_mul_le_self _ _)

/-- The next entry up would be too large, or just right for the first. -/
theorem reciprocal_next (low : 512 ≤ b) : 2 ^ 26 ≤ (reciprocalEntry b + 1) * b := by
  unfold reciprocalEntry cut
  rcases Nat.le_total (2 ^ 26 / b) 0x1FFFF with fits | large
  · have next := Nat.lt_mul_div_succ (2 ^ 26) (show 0 < b by omega)
    rw [Nat.min_eq_left fits, Nat.mul_comm]
    exact Nat.le_of_lt next
  · rw [Nat.min_eq_right large]
    omega

theorem reciprocal_antitone (positive : 0 < b) (h : b ≤ c) :
    reciprocalEntry c ≤ reciprocalEntry b :=
  cut_mono (Nat.div_le_div_left h positive)

end Reciprocal

section Root

variable {e b c : ℕ}

theorem root_normal (exponent : 41 ≤ e) (low : 256 ≤ c) (high : c < 512) :
    Normal (rootEntry e c) := by
  have least : 2 ^ 41 ≤ 2 ^ e := Nat.pow_le_pow_right (by decide) exponent
  have quotient : 2 ^ 16 * 2 ^ 16 ≤ 2 ^ e / c :=
    (Nat.le_div_iff_mul_le (by omega)).mpr (by omega)
  exact cut_normal (Nat.le_sqrt.mpr quotient)

theorem root_le : rootEntry e c * rootEntry e c * c ≤ 2 ^ e := by
  have below : rootEntry e c ≤ Nat.sqrt (2 ^ e / c) := min_le_left _ _
  calc rootEntry e c * rootEntry e c * c
      ≤ Nat.sqrt (2 ^ e / c) * Nat.sqrt (2 ^ e / c) * c :=
        Nat.mul_le_mul_right c (Nat.mul_self_le_mul_self below)
    _ ≤ 2 ^ e / c * c := Nat.mul_le_mul_right c (Nat.sqrt_le _)
    _ ≤ 2 ^ e := Nat.div_mul_le_self _ _

theorem root_next (exponent : e ≤ 42) (low : 256 ≤ c) :
    2 ^ e ≤ (rootEntry e c + 1) * (rootEntry e c + 1) * c := by
  unfold rootEntry cut
  rcases Nat.le_total (Nat.sqrt (2 ^ e / c)) 0x1FFFF with fits | large
  · rw [Nat.min_eq_left fits]
    have square : 2 ^ e / c + 1 ≤ (Nat.sqrt (2 ^ e / c) + 1) * (Nat.sqrt (2 ^ e / c) + 1) :=
      Nat.lt_succ_sqrt _
    have next := Nat.lt_mul_div_succ (2 ^ e) (show 0 < c by omega)
    calc 2 ^ e ≤ (2 ^ e / c + 1) * c := by rw [Nat.mul_comm]; exact Nat.le_of_lt next
      _ ≤ _ := Nat.mul_le_mul_right c square
  · rw [Nat.min_eq_right large]
    have most : 2 ^ e ≤ 2 ^ 42 := Nat.pow_le_pow_right (by decide) exponent
    omega

theorem root_antitone (positive : 0 < b) (h : b ≤ c) : rootEntry e c ≤ rootEntry e b :=
  cut_mono (Nat.sqrt_le_sqrt (Nat.div_le_div_left h positive))

theorem root_exponent (low : 256 ≤ b) (positive : 0 < c) (high : c ≤ 512) :
    rootEntry 41 b ≤ rootEntry 42 c := by
  have half : 2 ^ 41 / b ≤ 2 ^ 42 / c := by
    calc 2 ^ 41 / b ≤ 2 ^ 41 / 256 := Nat.div_le_div_left low (by decide)
      _ = 2 ^ 42 / 512 := by decide
      _ ≤ 2 ^ 42 / c := Nat.div_le_div_left high positive
  exact cut_mono (Nat.sqrt_le_sqrt half)

end Root

section Table

theorem divisionFull_normal {a : ℕ} (inside : a < 1024) : Normal (divisionFull a).toNat := by
  by_cases reciprocal : a < 512
  · rw [divisionFull_reciprocal reciprocal]
    exact reciprocal_normal (by omega) (by omega)
  · obtain ⟨f, odd, rfl, bit⟩ : ∃ f odd, a = 512 + 2 * f + odd ∧ odd < 2 :=
      ⟨(a - 512) / 2, (a - 512) % 2, by omega, by omega⟩
    rw [divisionFull_root f odd bit]
    exact root_normal (by omega) (by omega) (by omega)

theorem entry_or {rom : U16} {r : ℕ} (h : rom.toNat = r - 2 ^ 16) (normal : Normal r) :
    (0x40000000#32 ||| (rom.setWidth 32 <<< 14)).toNat = r * 2 ^ 14 := by
  obtain ⟨least, below⟩ := normal
  have shifted : (rom.setWidth 32 <<< 14).toNat = (r - 2 ^ 16) * 2 ^ 14 := by
    rw [BitVec.toNat_shiftLeft, BitVec.toNat_setWidth, h, Nat.shiftLeft_eq,
      Nat.mod_eq_of_lt (show r - 2 ^ 16 < 2 ^ 32 by omega)]
    exact Nat.mod_eq_of_lt (by omega)
  have top : (0x40000000#32).toNat = 2 ^ 30 := by decide
  have apart : (rom.setWidth 32 <<< 14).toNat < 2 ^ 30 := by omega
  rw [LowMasks.toNat_or_low (by rw [top, Nat.mod_self]) apart, top, shifted]
  omega

theorem divisionRom_or {a : ℕ} (inside : a < 1024) :
    0x40000000#32 ||| ((divisionRom a).setWidth 32 <<< 14) = divisionFull a <<< 14 := by
  have normal := divisionFull_normal inside
  have below := normal.2
  apply BitVec.eq_of_toNat_eq
  rw [entry_or (divisionRom_toNat rfl normal) normal, BitVec.toNat_shiftLeft, Nat.shiftLeft_eq]
  exact (Nat.mod_eq_of_lt (by omega)).symm

end Table

end Entries

/-- The root loop ends with the exact root of every number, and the table of
1024 entries is normalised. -/
theorem square_root_table :
    (∀ v : U64,
      (¬ (findTop v).value < (findTop v).bit) ∧
      (∀ t ∈ passes (fun t : SquareRoot => t.bit != 0) squareRootStep 32 (findTop v),
        t.result.toNat + t.bit.toNat < 2 ^ 64 ∧ (t.result >>> 1).toNat + t.bit.toNat < 2 ^ 64) ∧
      (rootEnd v).bit = 0 ∧ integerSquareRoot v = (rootEnd v).result.setWidth 32 ∧
      (integerSquareRoot v).toNat * (integerSquareRoot v).toNat ≤ v.toNat ∧
      v.toNat < ((integerSquareRoot v).toNat + 1) * ((integerSquareRoot v).toNat + 1)) ∧
    ∀ a < 1024,
      0x10000 ≤ (divisionFull a).toNat ∧ (divisionFull a).toNat ≤ 0x1FFFF ∧
      (divisionRom a).toNat = (divisionFull a).toNat - 0x10000 ∧
      0x40000000#32 ||| ((divisionRom a).setWidth 32 <<< 14) = divisionFull a <<< 14 := by
  constructor
  · intro v
    have last : (rootEnd v).bit = 0 := BitVec.eq_of_toNat_eq (rootEnd_left v).1
    refine ⟨findTop_ends v, fun t => squareRoot_pass, last, rfl, ?_⟩
    rw [integerSquareRoot_toNat]
    exact ⟨Nat.sqrt_le _, Nat.lt_succ_sqrt _⟩
  · intro a inside
    have normal := divisionFull_normal inside
    have entry := divisionRom_toNat rfl normal
    exact ⟨normal.1, Nat.le_of_lt_succ normal.2, entry, divisionRom_or inside⟩

end N64.RspVector
