import Mathlib.Logic.Function.Basic
import Mathlib.Tactic.Common
import Mathlib.Tactic.IntervalCases
import Mathlib.Tactic.SplitIfs
import Mathlib.Data.Nat.Notation

/-!
# Machine words and big-endian byte memory

The fixed-width aliases of the source are bit vectors. A byte store is a
total function with its size kept beside it, so reading is a plain
application and every bound is written where the source writes it. The host
is little-endian, as the source's `memcpy` and byte swap assume.
-/

set_option autoImplicit false

namespace N64.Words

abbrev U8 := BitVec 8
abbrev U16 := BitVec 16
abbrev U32 := BitVec 32
abbrev U64 := BitVec 64

/-- `Address` and `PhysicalAddress`. -/
abbrev PhysicalAddress := U32
abbrev Cycles := U64

abbrev Bytes := ℕ → U8

def kRdramSize : ℕ := 4 * 1024 * 1024
def kSpDmemSize : ℕ := 4 * 1024
def kSpImemSize : ℕ := 4 * 1024
def kPifRamSize : ℕ := 64
def kCpuClockHz : ℕ := 93750000

def sext32 (v : U32) : U64 := v.signExtend 64
def sext16 (v : U16) : U64 := v.signExtend 64
def sext8 (v : U8) : U64 := v.signExtend 64

def bswap16 (v : U16) : U16 := (v <<< 8) ||| (v >>> 8)

def bswap32 (v : U32) : U32 :=
  (v <<< 24) ||| ((v &&& 0x0000FF00#32) <<< 8) ||| ((v &&& 0x00FF0000#32) >>> 8) ||| (v >>> 24)

def bswap64 (v : U64) : U64 :=
  ((v &&& 0x00000000000000FF#64) <<< 56) |||
  ((v &&& 0x000000000000FF00#64) <<< 40) |||
  ((v &&& 0x0000000000FF0000#64) <<< 24) |||
  ((v &&& 0x00000000FF000000#64) <<< 8) |||
  ((v &&& 0x000000FF00000000#64) >>> 8) |||
  ((v &&& 0x0000FF0000000000#64) >>> 24) |||
  ((v &&& 0x00FF000000000000#64) >>> 40) |||
  ((v &&& 0xFF00000000000000#64) >>> 56)

/-- The shift-and-or assembly of a big-endian halfword. -/
def join16 (b0 b1 : U8) : U16 := (b0.setWidth 16 <<< 8) ||| b1.setWidth 16

def join32 (b0 b1 b2 b3 : U8) : U32 :=
  (b0.setWidth 32 <<< 24) ||| (b1.setWidth 32 <<< 16) ||| (b2.setWidth 32 <<< 8) ||| b3.setWidth 32

def join64 (hi lo : U32) : U64 := (hi.setWidth 64 <<< 32) ||| lo.setWidth 64

/-- `memcpy` of two bytes into a host word. -/
def load16 (m : Bytes) (off : ℕ) : U16 := join16 (m (off+1)) (m off)

def load32 (m : Bytes) (off : ℕ) : U32 :=
  join32 (m (off+3)) (m (off+2)) (m (off+1)) (m off)

def load64 (m : Bytes) (off : ℕ) : U64 := join64 (load32 m (off+4)) (load32 m off)

/-- The bytes a `memcpy` out of a host word stores, lowest address first. -/
def hostBytes16 (v : U16) : List U8 := [v.extractLsb' 0 8, v.extractLsb' 8 8]

def hostBytes32 (v : U32) : List U8 :=
  [v.extractLsb' 0 8, v.extractLsb' 8 8, v.extractLsb' 16 8, v.extractLsb' 24 8]

def hostBytes64 (v : U64) : List U8 :=
  [v.extractLsb' 0 8, v.extractLsb' 8 8, v.extractLsb' 16 8, v.extractLsb' 24 8,
   v.extractLsb' 32 8, v.extractLsb' 40 8, v.extractLsb' 48 8, v.extractLsb' 56 8]

/-- `static_cast<u8>((value >> n) & 0xFF)`. -/
def byteAt (v : U32) (n : ℕ) : U8 := ((v >>> n) &&& 0xFF#32).setWidth 8

/-- `if (value & mask) state = f(state)`. -/
def onBit {σ : Type*} (value mask : U32) (f : σ → σ) (s : σ) : σ :=
  if value &&& mask ≠ 0 then f s else s

theorem onBit_preserves {σ : Type*} {value mask : U32} {f : σ → σ} (P : σ → Prop) {s : σ}
    (base : P s) (step : P s → P (f s)) : P (onBit value mask f s) := by
  unfold onBit
  split
  · exact step base
  · exact base

theorem onBit_rel {σ : Type*} {value mask : U32} {f : σ → σ} (R : σ → σ → Prop) {s : σ}
    (refl : R s s) (step : R s (f s)) : R s (onBit value mask f s) :=
  onBit_preserves (R s) refl fun _ => step

section Masks

variable {w : ℕ} (a : BitVec w) {bits mask : BitVec w}

theorem or_and_of_disjoint (disjoint : bits &&& mask = 0) : (a ||| bits) &&& mask = a &&& mask := by
  rw [BitVec.and_or_distrib_right, disjoint]
  exact BitVec.or_zero

theorem andNot_and_of_disjoint (disjoint : bits &&& mask = 0) :
    (a &&& ~~~bits) &&& mask = a &&& mask := by
  ext i hi
  have bit : (bits &&& mask)[i] = false := by simp [disjoint]
  rw [BitVec.getElem_and] at bit
  cases h : bits[i] <;> simp_all

theorem or_and_of_subset (subset : bits &&& mask = mask) :
    (a ||| bits) &&& mask ≠ 0 ↔ mask ≠ 0 := by
  rw [BitVec.and_or_distrib_right, subset]
  constructor
  · rintro set rfl
    simp at set
  · intro set zero
    exact set (BitVec.or_eq_zero_iff.mp zero).2

theorem andNot_and_of_subset (subset : ~~~bits &&& mask = 0) : (a &&& ~~~bits) &&& mask = 0 := by
  rw [BitVec.and_assoc, subset]
  exact BitVec.and_zero

theorem testBit_or_other (disjoint : bits &&& mask = 0) :
    ((a ||| bits) &&& mask != 0) = (a &&& mask != 0) :=
  congrArg (· != 0) (or_and_of_disjoint a disjoint)

theorem testBit_clear_other (disjoint : bits &&& mask = 0) :
    ((a &&& ~~~bits) &&& mask != 0) = (a &&& mask != 0) :=
  congrArg (· != 0) (andNot_and_of_disjoint a disjoint)

theorem testBit_or_self (subset : bits &&& mask = mask) (nonzero : mask ≠ 0) :
    ((a ||| bits) &&& mask != 0) = true :=
  bne_iff_ne.mpr ((or_and_of_subset a subset).mpr nonzero)

theorem testBit_clear_self (subset : ~~~bits &&& mask = 0) :
    ((a &&& ~~~bits) &&& mask != 0) = false :=
  bne_eq_false_iff_eq.mpr (andNot_and_of_subset a subset)

end Masks

theorem bswap16_join (a b : U8) : bswap16 (join16 a b) = join16 b a := by
  ext i hi
  interval_cases i <;> simp [bswap16, join16]

theorem bswap32_join (a b c d : U8) : bswap32 (join32 a b c d) = join32 d c b a := by
  ext i hi
  interval_cases i <;> simp [bswap32, join32]

theorem bswap64_low (v : U64) :
    (bswap64 v).setWidth 32 = bswap32 ((v >>> 32).setWidth 32) := by
  ext i hi
  interval_cases i <;> simp [bswap64, bswap32]

theorem bswap64_high (v : U64) :
    (bswap64 v >>> 32).setWidth 32 = bswap32 (v.setWidth 32) := by
  ext i hi
  interval_cases i <;> simp [bswap64, bswap32]

theorem join64_halves (v : U64) : join64 ((v >>> 32).setWidth 32) (v.setWidth 32) = v := by
  ext i hi
  by_cases h : i < 32
  · simp [join64, h, hi]
  · simp [join64, h, hi, show i - 32 < 32 by omega, show 32 + (i - 32) = i by omega]

theorem bswap64_join (hi lo : U32) : bswap64 (join64 hi lo) = join64 (bswap32 lo) (bswap32 hi) := by
  have low : (join64 hi lo).setWidth 32 = lo := by
    ext i hi
    simp [join64]
  have high : (join64 hi lo >>> 32).setWidth 32 = hi := by
    ext i h
    simp [join64, show 32 + i < 64 by omega, show i < 64 by omega, BitVec.getLsbD_eq_getElem h]
  rw [← join64_halves (bswap64 (join64 hi lo)), bswap64_low, bswap64_high, low, high]

theorem bswap16_load16 (m : Bytes) (off : ℕ) :
    bswap16 (load16 m off) = join16 (m off) (m (off+1)) :=
  bswap16_join _ _

theorem bswap32_load32 (m : Bytes) (off : ℕ) :
    bswap32 (load32 m off) = join32 (m off) (m (off+1)) (m (off+2)) (m (off+3)) :=
  bswap32_join _ _ _ _

theorem bswap64_load64 (m : Bytes) (off : ℕ) :
    bswap64 (load64 m off) =
      join64 (join32 (m off) (m (off+1)) (m (off+2)) (m (off+3)))
        (join32 (m (off+4)) (m (off+5)) (m (off+6)) (m (off+7))) := by
  rw [load64, bswap64_join, bswap32_load32, bswap32_load32]

theorem hostBytes16_bswap (v : U16) :
    hostBytes16 (bswap16 v) = [v.extractLsb' 8 8, v.extractLsb' 0 8] := by
  simp only [hostBytes16, List.cons.injEq, and_true]
  constructor <;> ext i hi <;> interval_cases i <;> simp [bswap16]

theorem hostBytes32_bswap (v : U32) :
    hostBytes32 (bswap32 v) =
      [v.extractLsb' 24 8, v.extractLsb' 16 8, v.extractLsb' 8 8, v.extractLsb' 0 8] := by
  simp only [hostBytes32, List.cons.injEq, and_true]
  refine ⟨?_, ?_, ?_, ?_⟩ <;> ext i hi <;> interval_cases i <;> simp [bswap32]

theorem extractLsb'_setWidth_low (v : U64) (n : ℕ) (h : n + 8 ≤ 32) :
    (v.setWidth 32).extractLsb' n 8 = v.extractLsb' n 8 := by
  ext i hi
  simp [show n + i < 32 by omega]

theorem extractLsb'_shift_high (v : U64) (n : ℕ) :
    (v >>> 32).extractLsb' n 8 = v.extractLsb' (32 + n) 8 := by
  ext i hi
  simp [Nat.add_assoc]

theorem hostBytes64_halves (v : U64) :
    hostBytes64 v = hostBytes32 (v.setWidth 32) ++ hostBytes32 ((v >>> 32).setWidth 32) := by
  simp [hostBytes64, hostBytes32, extractLsb'_setWidth_low, extractLsb'_shift_high]

theorem hostBytes64_bswap (v : U64) :
    hostBytes64 (bswap64 v) =
      hostBytes32 (bswap32 ((v >>> 32).setWidth 32)) ++ hostBytes32 (bswap32 (v.setWidth 32)) := by
  rw [hostBytes64_halves, bswap64_low, bswap64_high]

theorem join16_eq_append (a b : U8) : join16 a b = a ++ b := by
  have h : (a ++ b).setWidth 16 = join16 a b := BitVec.setWidth_append_eq_shiftLeft_setWidth_or
  rw [← h, BitVec.setWidth_eq]

theorem join32_eq_append (a b c d : U8) : join32 a b c d = a ++ b ++ c ++ d := by
  have h : (a ++ b ++ c ++ d).setWidth 32 = join32 a b c d :=
    BitVec.setWidth_append_append_append_eq_shiftLeft_setWidth_or
  rw [← h, BitVec.setWidth_eq]

theorem join64_eq_append (hi lo : U32) : join64 hi lo = hi ++ lo := by
  have h : (hi ++ lo).setWidth 64 = join64 hi lo := BitVec.setWidth_append_eq_shiftLeft_setWidth_or
  rw [← h, BitVec.setWidth_eq]

theorem toNat_sub_mul (total c : U64) (k : ℕ) (le : k * c.toNat ≤ total.toNat) :
    (total - BitVec.ofNat 64 k * c).toNat = total.toNat - k * c.toNat := by
  have below := total.isLt
  have product : (BitVec.ofNat 64 k * c).toNat = k * c.toNat := by
    rw [BitVec.toNat_mul, BitVec.toNat_ofNat, Nat.mod_mul_mod, Nat.mod_eq_of_lt (by omega)]
  rw [BitVec.toNat_sub_of_le (by rw [BitVec.le_def, product]; exact le), product]

theorem sub_mul_div (total c : U64) :
    total - BitVec.ofNat 64 (total.toNat / c.toNat) * c =
      BitVec.ofNat 64 (total.toNat % c.toNat) := by
  have fits : total.toNat % c.toNat < 2 ^ 64 := (Nat.mod_le _ _).trans_lt total.isLt
  have parts := Nat.div_add_mod' total.toNat c.toNat
  apply BitVec.eq_of_toNat_eq
  rw [toNat_sub_mul _ _ _ (Nat.div_mul_le_self _ _), BitVec.toNat_ofNat, Nat.mod_eq_of_lt fits]
  omega

end N64.Words
