import N64Emu.CpuInteger
import N64Emu.LowMasks
import N64Emu.WideProduct

/-!
# Multiplication and division

The products of the multiply unit are exact, by 128-bit integers and by the four
partial products of the portable path alike. Division leaves a quotient and a
remainder with the sign of the dividend.
-/

set_option autoImplicit false

namespace N64.Cpu

open Words Insn WideProduct

section Portable

/-- `mult_u64` without 128-bit integers. -/
def multU64Portable (a b : U64) : U64 × U64 :=
  let aLo := a &&& 0xFFFFFFFF#64
  let aHi := a >>> 32
  let bLo := b &&& 0xFFFFFFFF#64
  let bHi := b >>> 32
  let p0 := aLo * bLo
  let p1 := aLo * bHi
  let p2 := aHi * bLo
  let p3 := aHi * bHi
  let mid := (p0 >>> 32) + (p1 &&& 0xFFFFFFFF#64) + (p2 &&& 0xFFFFFFFF#64)
  (p3 + (p1 >>> 32) + (p2 >>> 32) + (mid >>> 32), (p0 &&& 0xFFFFFFFF#64) ||| (mid <<< 32))

def magnitude (value : U64) : U64 := if value.toInt < 0 then ~~~value + 1 else value

/-- `mult_s64` without 128-bit integers. -/
def multS64Portable (a b : U64) : U64 × U64 :=
  let neg := decide (a.toInt < 0) != decide (b.toInt < 0)
  let (hi, lo) := multU64Portable (magnitude a) (magnitude b)
  if neg then
    let lo := ~~~lo + 1
    (~~~hi + (if lo = 0 then 1 else 0), lo)
  else (hi, lo)

end Portable

section Unsigned

variable (a b : U64)

theorem low_half (v : U64) : (v &&& 0xFFFFFFFF#64).toNat = v.toNat % 2 ^ 32 :=
  LowMasks.toNat_and_low (n := 32) v (by decide)

theorem high_half (v : U64) : (v >>> 32).toNat = v.toNat / 2 ^ 32 := by
  rw [BitVec.toNat_ushiftRight, Nat.shiftRight_eq_div_pow]

theorem half_product {x y : U64} (first : x.toNat < 2 ^ 32) (second : y.toNat < 2 ^ 32) :
    (x * y).toNat = x.toNat * y.toNat := by
  have room : x.toNat * y.toNat < 2 ^ 32 * 2 ^ 32 := Nat.mul_lt_mul'' first second
  rw [BitVec.toNat_mul]
  exact Nat.mod_eq_of_lt room

theorem multU64_toNat :
    (multU64 a b).1.toNat * 2 ^ 64 + (multU64 a b).2.toNat = a.toNat * b.toNat :=
  (halves_toNat (w := 64) (a.setWidth 128 * b.setWidth 128)).trans (unsigned_product a b)

theorem shifted_half (v : U64) : (v <<< 32).toNat = v.toNat % 2 ^ 32 * 2 ^ 32 := by
  rw [BitVec.toNat_shiftLeft, Nat.shiftLeft_eq]
  omega

theorem portable_sum {p0 p1 p2 p3 : U64} {n : ℕ} (small : n < 2 ^ 128)
    (total : p3.toNat * (2 ^ 32 * 2 ^ 32) + (p1.toNat + p2.toNat) * 2 ^ 32 + p0.toNat = n)
    {mid : U64} (sum : mid = (p0 >>> 32) + (p1 &&& 0xFFFFFFFF#64) + (p2 &&& 0xFFFFFFFF#64)) :
    (p3 + (p1 >>> 32) + (p2 >>> 32) + (mid >>> 32)).toNat * 2 ^ 64 +
      ((p0 &&& 0xFFFFFFFF#64) ||| (mid <<< 32)).toNat = n := by
  have count : mid.toNat = middle (2 ^ 32) p0.toNat p1.toNat p2.toNat := by
    have h0 := p0.isLt
    rw [sum, BitVec.toNat_add, BitVec.toNat_add, high_half, low_half, low_half]
    unfold middle
    omega
  have below : (p0 &&& 0xFFFFFFFF#64).toNat < 2 ^ 32 := by
    rw [low_half]
    exact Nat.mod_lt _ (by decide)
  have low := LowMasks.toNat_or_low (n := 32) (x := mid <<< 32)
    (by rw [shifted_half, Nat.mul_mod_left]) below
  rw [BitVec.or_comm, shifted_half, low_half] at low
  have whole := carried (2 ^ 32) p0.toNat p1.toNat p2.toNat p3.toNat
  rw [total, ← count] at whole
  have high : (p3 + (p1 >>> 32) + (p2 >>> 32) + (mid >>> 32)).toNat =
      p3.toNat + p1.toNat / 2 ^ 32 + p2.toNat / 2 ^ 32 + mid.toNat / 2 ^ 32 := by
    rw [BitVec.toNat_add, BitVec.toNat_add, BitVec.toNat_add, high_half, high_half, high_half]
    omega
  rw [high, low]
  exact whole

theorem multU64Portable_toNat : (multU64Portable a b).1.toNat * 2 ^ 64 +
    (multU64Portable a b).2.toNat = a.toNat * b.toNat := by
  have split (v : U64) : v.toNat / 2 ^ 32 * 2 ^ 32 + v.toNat % 2 ^ 32 = v.toNat :=
    Nat.div_add_mod' _ _
  have lowLt (v : U64) : (v &&& 0xFFFFFFFF#64).toNat < 2 ^ 32 := by
    rw [low_half]
    exact Nat.mod_lt _ (by decide)
  have highLt (v : U64) : (v >>> 32).toNat < 2 ^ 32 := by
    have whole := v.isLt
    rw [high_half]
    omega
  have room : a.toNat * b.toNat < 2 ^ 64 * 2 ^ 64 := Nat.mul_lt_mul'' a.isLt b.isLt
  refine portable_sum (by omega) ?_ rfl
  rw [half_product (lowLt a) (lowLt b), half_product (lowLt a) (highLt b),
    half_product (highLt a) (lowLt b), half_product (highLt a) (highLt b), low_half, low_half,
    high_half, high_half, ← partial_products, split, split]

theorem eq_of_words {p q : U64 × U64}
    (same : p.1.toNat * 2 ^ 64 + p.2.toNat = q.1.toNat * 2 ^ 64 + q.2.toNat) : p = q := by
  have first := p.2.isLt
  have second := q.2.isLt
  apply Prod.ext
  · exact BitVec.eq_of_toNat_eq (by omega)
  · exact BitVec.eq_of_toNat_eq (by omega)

theorem multU64Portable_eq : multU64Portable a b = multU64 a b :=
  eq_of_words ((multU64Portable_toNat a b).trans (multU64_toNat a b).symm)

end Unsigned

section Signed

variable (a b : U64)

theorem toNat_negated (v : U64) : (~~~v + 1).toNat = (2 ^ 64 - v.toNat) % 2 ^ 64 := by
  have whole := v.isLt
  have one : (1 : U64).toNat = 1 := rfl
  rw [BitVec.toNat_add, BitVec.toNat_not, one]
  omega

theorem magnitude_toNat : (magnitude a).toNat = a.toInt.natAbs := by
  have whole := a.isLt
  have signed := BitVec.toInt_eq_toNat_cond a
  unfold magnitude
  by_cases negative : a.toInt < 0
  · rw [if_pos negative, toNat_negated]
    split_ifs at signed
    all_goals omega
  · rw [if_neg negative]
    split_ifs at signed
    all_goals omega

/-- The carry into the upper word of a negated pair is that of a lower word zero. -/
theorem negated_words (hi lo : U64) :
    (~~~hi + (if ~~~lo + 1 = 0 then 1 else 0)) ++ (~~~lo + 1) = -(hi ++ lo) := by
  have high := hi.isLt
  have low := lo.isLt
  have below := toNat_negated lo
  apply BitVec.eq_of_toNat_eq
  rw [LowMasks.toNat_append, BitVec.toNat_neg, LowMasks.toNat_append, below]
  by_cases carry : ~~~lo + 1 = 0
  · have clear : lo.toNat = 0 := by
      have zero : (0 : U64).toNat = 0 := rfl
      rw [carry, zero] at below
      omega
    rw [if_pos carry, toNat_negated, clear]
    omega
  · have low : lo.toNat ≠ 0 := by
      intro clear
      rw [clear] at below
      exact carry (BitVec.eq_of_toNat_eq below)
    have kept : ~~~hi + (0 : U64) = ~~~hi := BitVec.add_zero _
    rw [if_neg carry, kept, BitVec.toNat_not]
    omega

theorem signed_magnitudes (x y : ℤ) : x * y =
    if (decide (x < 0) != decide (y < 0)) = true then -((x.natAbs * y.natAbs : ℕ) : ℤ)
    else ((x.natAbs * y.natAbs : ℕ) : ℤ) := by
  have below {z : ℤ} (negative : z < 0) : (z.natAbs : ℤ) = -z :=
    Int.ofNat_natAbs_of_nonpos (Int.le_of_lt negative)
  have above {z : ℤ} (other : ¬z < 0) : (z.natAbs : ℤ) = z :=
    Int.natAbs_of_nonneg (Int.not_lt.mp other)
  rw [Nat.cast_mul]
  by_cases first : x < 0
  · by_cases second : y < 0
    · simp [first, second, below]
    · simp [first, second, below first, above second]
  · by_cases second : y < 0
    · simp [first, second, above first, below second]
    · simp [first, second, above]

theorem multS64_words : (multS64 a b).1 ++ (multS64 a b).2 =
    BitVec.ofInt (64 + 64) (a.toInt * b.toInt) := by
  have first : BitVec.ofInt 128 a.toInt = a.signExtend 128 := rfl
  have second : BitVec.ofInt 128 b.toInt = b.signExtend 128 := rfl
  rw [BitVec.ofInt_mul]
  exact halves_append (w := 64) _

theorem multU64Portable_words : (multU64Portable a b).1 ++ (multU64Portable a b).2 =
    BitVec.ofNat (64 + 64) (a.toNat * b.toNat) := by
  apply BitVec.eq_of_toNat_eq
  have room : a.toNat * b.toNat < 2 ^ 64 * 2 ^ 64 := Nat.mul_lt_mul'' a.isLt b.isLt
  rw [LowMasks.toNat_append, multU64Portable_toNat, BitVec.toNat_ofNat]
  exact (Nat.mod_eq_of_lt room).symm

theorem multS64Portable_words : (multS64Portable a b).1 ++ (multS64Portable a b).2 =
    BitVec.ofInt (64 + 64) (a.toInt * b.toInt) := by
  have plain := multU64Portable_words (magnitude a) (magnitude b)
  rw [magnitude_toNat, magnitude_toNat] at plain
  rw [signed_magnitudes]
  unfold multS64Portable
  dsimp only
  by_cases neg : (decide (a.toInt < 0) != decide (b.toInt < 0)) = true
  · rw [if_pos neg, if_pos neg, BitVec.ofInt_neg, BitVec.ofInt_natCast, ← plain]
    exact negated_words _ _
  · rw [if_neg neg, if_neg neg, BitVec.ofInt_natCast]
    exact plain

theorem multS64Portable_eq : multS64Portable a b = multS64 a b := by
  have same := (multS64Portable_words a b).trans (multS64_words a b).symm
  have numbers := congrArg BitVec.toNat same
  rw [LowMasks.toNat_append, LowMasks.toNat_append] at numbers
  exact eq_of_words numbers

theorem multS64_toInt :
    (multS64 a b).1.toInt * 2 ^ 64 + (multS64 a b).2.toNat = a.toInt * b.toInt := by
  have whole := halves_toInt (w := 64) (a.signExtend 128 * b.signExtend 128) (by decide)
  exact whole.trans (signed_product a b (by decide) (by decide))

end Signed

section Instructions

variable (c : Cpu)

def setHiLo32 (hi lo : U32) : Cpu := c.setHiLo (sext32 hi) (sext32 lo)

theorem mult_exact (s t : U32) : ∃ hi lo : U32,
    hi.toInt * 2 ^ 32 + lo.toNat = s.toInt * t.toInt ∧ c.mult s t = c.setHiLo32 hi lo := by
  have whole := halves_toInt (w := 32) (sext32 s * sext32 t) (by decide)
  exact ⟨_, _, whole.trans (signed_product s t (by decide) (by decide)), rfl⟩

theorem multu_exact (s t : U32) : ∃ hi lo : U32,
    hi.toNat * 2 ^ 32 + lo.toNat = s.toNat * t.toNat ∧ c.multu s t = c.setHiLo32 hi lo := by
  have whole := halves_toNat (w := 32) (s.setWidth 64 * t.setWidth 64)
  exact ⟨_, _, whole.trans (unsigned_product s t), rfl⟩

theorem div_exact (num : U32) {den : U32} (nonzero : den ≠ 0) : ∃ q r : ℤ,
    Divides num.toInt den.toInt q r ∧
    c.div num den = c.setHiLo32 (BitVec.ofInt 32 r) (BitVec.ofInt 32 q) := by
  have divisor : den.toInt ≠ 0 := fun zero => nonzero (BitVec.eq_of_toInt_eq zero)
  refine ⟨_, _, truncated num.toInt divisor, ?_⟩
  rw [div, if_neg nonzero, ← srem_eq, ← sdiv_eq]
  by_cases overflow : num = 0x80000000 ∧ den = 0xFFFFFFFF
  · obtain ⟨rfl, rfl⟩ := overflow
    rfl
  · rw [if_neg overflow]
    rfl

theorem divu_exact (num : U32) {den : U32} (nonzero : den ≠ 0) : ∃ q r : ℤ,
    Divides num.toNat den.toNat q r ∧
    c.divu num den = c.setHiLo32 (BitVec.ofInt 32 r) (BitVec.ofInt 32 q) := by
  have divisor : (den.toNat : ℤ) ≠ 0 := fun zero =>
    nonzero (BitVec.eq_of_toNat_eq (Int.ofNat.inj zero))
  refine ⟨_, _, truncated num.toNat divisor, ?_⟩
  rw [divu, if_neg nonzero, ← umod_eq, ← udiv_eq]
  rfl

theorem ddiv_exact (num : U64) {den : U64} (nonzero : den ≠ 0) : ∃ q r : ℤ,
    Divides num.toInt den.toInt q r ∧
    c.ddiv num den = c.setHiLo (BitVec.ofInt 64 r) (BitVec.ofInt 64 q) := by
  have divisor : den.toInt ≠ 0 := fun zero => nonzero (BitVec.eq_of_toInt_eq zero)
  refine ⟨_, _, truncated num.toInt divisor, ?_⟩
  rw [ddiv, if_neg nonzero, ← srem_eq, ← sdiv_eq]
  by_cases overflow : num = 0x8000000000000000 ∧ den = ~~~0
  · obtain ⟨rfl, rfl⟩ := overflow
    rfl
  · rw [if_neg overflow]

theorem ddivu_exact (num : U64) {den : U64} (nonzero : den ≠ 0) : ∃ q r : ℤ,
    Divides num.toNat den.toNat q r ∧
    c.ddivu num den = c.setHiLo (BitVec.ofInt 64 r) (BitVec.ofInt 64 q) := by
  have divisor : (den.toNat : ℤ) ≠ 0 := fun zero =>
    nonzero (BitVec.eq_of_toNat_eq (Int.ofNat.inj zero))
  refine ⟨_, _, truncated num.toNat divisor, ?_⟩
  rw [ddivu, if_neg nonzero, ← umod_eq, ← udiv_eq]

end Instructions

/-- The multiply unit: exact products by both paths, and truncated division. -/
theorem multiply_divide_exact (c : Cpu) (insn : U32) :
    let rs64 := c.gpr (rs insn)
    let rt64 := c.gpr (rt insn)
    let rs32 : U32 := rs64.setWidth 32
    let rt32 : U32 := rt64.setWidth 32
    (∃ hi lo : U32, hi.toInt * 2 ^ 32 + lo.toNat = rs32.toInt * rt32.toInt ∧
      c.execSpecialFn .MULT insn = c.setHiLo32 hi lo) ∧
    (∃ hi lo : U32, hi.toNat * 2 ^ 32 + lo.toNat = rs32.toNat * rt32.toNat ∧
      c.execSpecialFn .MULTU insn = c.setHiLo32 hi lo) ∧
    (∃ hi lo : U64, hi.toInt * 2 ^ 64 + lo.toNat = rs64.toInt * rt64.toInt ∧
      c.execSpecialFn .DMULT insn = c.setHiLo hi lo) ∧
    (∃ hi lo : U64, hi.toNat * 2 ^ 64 + lo.toNat = rs64.toNat * rt64.toNat ∧
      c.execSpecialFn .DMULTU insn = c.setHiLo hi lo) ∧
    (∀ a b : U64, multS64Portable a b = multS64 a b ∧ multU64Portable a b = multU64 a b) ∧
    (rt32 ≠ 0 → ∃ q r : ℤ, Divides rs32.toInt rt32.toInt q r ∧
      c.execSpecialFn .DIV insn = c.setHiLo32 (BitVec.ofInt 32 r) (BitVec.ofInt 32 q)) ∧
    (rt32 ≠ 0 → ∃ q r : ℤ, Divides rs32.toNat rt32.toNat q r ∧
      c.execSpecialFn .DIVU insn = c.setHiLo32 (BitVec.ofInt 32 r) (BitVec.ofInt 32 q)) ∧
    (rt64 ≠ 0 → ∃ q r : ℤ, Divides rs64.toInt rt64.toInt q r ∧
      c.execSpecialFn .DDIV insn = c.setHiLo (BitVec.ofInt 64 r) (BitVec.ofInt 64 q)) ∧
    (rt64 ≠ 0 → ∃ q r : ℤ, Divides rs64.toNat rt64.toNat q r ∧
      c.execSpecialFn .DDIVU insn = c.setHiLo (BitVec.ofInt 64 r) (BitVec.ofInt 64 q)) := by
  intro rs64 rt64 rs32 rt32
  exact ⟨c.mult_exact rs32 rt32, c.multu_exact rs32 rt32,
    ⟨_, _, multS64_toInt rs64 rt64, rfl⟩, ⟨_, _, multU64_toNat rs64 rt64, rfl⟩,
    fun a b => ⟨multS64Portable_eq a b, multU64Portable_eq a b⟩,
    c.div_exact rs32, c.divu_exact rs32, c.ddiv_exact rs64, c.ddivu_exact rs64⟩

/-- -7 by 2, in 32 and in 64 bits. -/
theorem multiply_divide_exact_negative :
    let c : Cpu := { gpr := fun i => if i = 1 then -7 else if i = 2 then 2 else 0 }
    (∃ q r : ℤ, Divides (-7) 2 q r ∧ c.execSpecialFn .DIV 0x0022001A =
        c.setHiLo32 (BitVec.ofInt 32 r) (BitVec.ofInt 32 q)) ∧
      ∃ q r : ℤ, Divides (-7) 2 q r ∧ c.execSpecialFn .DDIV 0x0022001E =
        c.setHiLo (BitVec.ofInt 64 r) (BitVec.ofInt 64 q) := by
  intro c
  obtain ⟨-, -, -, -, -, word, -, -, -⟩ := multiply_divide_exact c 0x0022001A
  obtain ⟨-, -, -, -, -, -, -, double, -⟩ := multiply_divide_exact c 0x0022001E
  have narrow : ((c.gpr 1).setWidth 32).toInt = -7 ∧ ((c.gpr 2).setWidth 32).toInt = 2 := by decide
  have wide : (c.gpr 1).toInt = -7 ∧ (c.gpr 2).toInt = 2 := by decide
  have quotient := word (by decide)
  have wideQuotient := double (by decide)
  rw [show rs 0x0022001A = 1 by decide, show rt 0x0022001A = 2 by decide, narrow.1, narrow.2]
    at quotient
  rw [show rs 0x0022001E = 1 by decide, show rt 0x0022001E = 2 by decide, wide.1, wide.2]
    at wideQuotient
  exact ⟨quotient, wideQuotient⟩

end N64.Cpu
