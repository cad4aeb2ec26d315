import N64Emu.CpuExecute
import N64Emu.CheckedSigned

/-!
# Integer arithmetic

The twelve additions and subtractions against the exact results, and the signed
operations the source evaluates for them. DADDIU and the relative branches add in
signed 64-bit arithmetic, which has no room at the ends of its range.
-/

set_option autoImplicit false

namespace N64.Cpu

open Words Insn CheckedSigned

inductive Arith where
  | ADD | ADDI | SUB | DADD | DADDI | DSUB | ADDU | ADDIU | SUBU | DADDU | DADDIU | DSUBU
  deriving DecidableEq, Repr

def arithOfFn : SpecialFn → Option Arith
  | .ADD => some .ADD
  | .ADDU => some .ADDU
  | .SUB => some .SUB
  | .SUBU => some .SUBU
  | .DADD => some .DADD
  | .DADDU => some .DADDU
  | .DSUB => some .DSUB
  | .DSUBU => some .DSUBU
  | _ => none

def arithOfOp (insn : U32) : Op → Option Arith
  | .ADDI => some .ADDI
  | .ADDIU => some .ADDIU
  | .DADDI => some .DADDI
  | .DADDIU => some .DADDIU
  | .SPECIAL => (SpecialFn.ofCode (fn insn)).bind arithOfFn
  | _ => none

def arithOf (insn : U32) : Option Arith := (Op.ofCode (op insn)).bind (arithOfOp insn)

namespace Arith

def width : Arith → ℕ
  | ADD | ADDI | SUB | ADDU | ADDIU | SUBU => 32
  | DADD | DADDI | DSUB | DADDU | DADDIU | DSUBU => 64

def traps : Arith → Bool
  | ADD | ADDI | SUB | DADD | DADDI | DSUB => true
  | ADDU | ADDIU | SUBU | DADDU | DADDIU | DSUBU => false

def immediate : Arith → Bool
  | ADDI | DADDI | ADDIU | DADDIU => true
  | _ => false

def subtracts : Arith → Bool
  | SUB | DSUB | SUBU | DSUBU => true
  | _ => false

def dest (i : Arith) (insn : U32) : BitVec 5 := if i.immediate then rt insn else rd insn

def operand (i : Arith) (v : U64) : ℤ := (v.setWidth i.width).toInt

def result (i : Arith) (c : Cpu) (insn : U32) : ℤ :=
  let left := i.operand (c.gpr (rs insn))
  let right := if i.immediate then (imm insn).toInt else i.operand (c.gpr (rt insn))
  if i.subtracts then left - right else left + right

/-- What the instruction is for: the exact result, reduced only where nothing traps. -/
def outcome (i : Arith) (c : Cpu) (insn : U32) : Cpu :=
  let n := i.result c insn
  if i.traps then
    if Fits i.width n then c.writeGpr (i.dest insn) (BitVec.ofInt 64 n) else c.raise ExcCode.Ov
  else c.writeGpr (i.dest insn) (BitVec.ofInt 64 (n.bmod (2 ^ i.width)))

end Arith

section Evaluated

def addOverflowS32Checked (a b : U32) : Option (Bool × U32) := do
  let wide ← checkedAdd (a.signExtend 64) (b.signExtend 64)
  let result : U32 := wide.setWidth 32
  some (wide ≠ result.signExtend 64, result)

def subOverflowS32Checked (a b : U32) : Option (Bool × U32) := do
  let wide ← checkedSub (a.signExtend 64) (b.signExtend 64)
  let result : U32 := wide.setWidth 32
  some (wide ≠ result.signExtend 64, result)

/-- `std::numeric_limits<s64>::max()` and `min()`. -/
def s64MaxWord : U64 := 0x7FFFFFFFFFFFFFFF
def s64MinWord : U64 := 0x8000000000000000

def addOverflowS64Checked (a b : U64) : Option (Bool × U64) := do
  let beyond ← shortOr
    (shortAnd (some (b.toInt > 0)) ((checkedSub s64MaxWord b).map fun m => a.toInt > m.toInt))
    (shortAnd (some (b.toInt < 0)) ((checkedSub s64MinWord b).map fun m => a.toInt < m.toInt))
  if beyond then some (true, 0)
  else do
    let result ← checkedAdd a b
    some (false, result)

def subOverflowS64Checked (a b : U64) : Option (Bool × U64) := do
  let beyond ← shortOr
    (shortAnd (some (b.toInt > 0)) ((checkedAdd s64MinWord b).map fun m => a.toInt < m.toInt))
    (shortAnd (some (b.toInt < 0)) ((checkedAdd s64MaxWord b).map fun m => a.toInt > m.toInt))
  if beyond then some (true, 0)
  else do
    let result ← checkedSub a b
    some (false, result)

def Arith.evaluate (i : Arith) (c : Cpu) (insn : U32) : Option Cpu :=
  let rs64 := c.gpr (rs insn)
  let rt64 := c.gpr (rt insn)
  let rs32 : U32 := rs64.setWidth 32
  let rt32 : U32 := rt64.setWidth 32
  match i with
  | .ADD => (addOverflowS32Checked rs32 rt32).map (c.writeChecked32 (rd insn))
  | .ADDI => (addOverflowS32Checked rs32 (simm32 insn)).map (c.writeChecked32 (rt insn))
  | .SUB => (subOverflowS32Checked rs32 rt32).map (c.writeChecked32 (rd insn))
  | .DADD => (addOverflowS64Checked rs64 rt64).map (c.writeChecked64 (rd insn))
  | .DADDI => (addOverflowS64Checked rs64 (simm64 insn)).map (c.writeChecked64 (rt insn))
  | .DSUB => (subOverflowS64Checked rs64 rt64).map (c.writeChecked64 (rd insn))
  | .ADDU => some (c.writeGpr (rd insn) (sext32 (rs32 + rt32)))
  | .ADDIU => some (c.writeGpr (rt insn) (sext32 (rs32 + simm32 insn)))
  | .SUBU => some (c.writeGpr (rd insn) (sext32 (rs32 - rt32)))
  | .DADDU => some (c.writeGpr (rd insn) (rs64 + rt64))
  | .DADDIU => (checkedAdd rs64 (simm64 insn)).map (c.writeGpr (rt insn))
  | .DSUBU => some (c.writeGpr (rd insn) (rs64 - rt64))

def branchRelChecked (c : Cpu) (offsetImm : U32) : Option Cpu := do
  let off ← checkedShl (offsetImm.signExtend 64) 2
  let next ← checkedAdd (c.pc + 4) off
  some { c with nextPc := next, branchPending := true }

end Evaluated

section Tests

theorem overflows32_iff {wide : ℤ} :
    decide (wide ≠ (BitVec.ofInt 32 wide).toInt) = true ↔ ¬Fits 32 wide := by
  rw [decide_eq_true_iff, ne_comm, ne_eq, toInt_ofInt_iff (by decide)]

/-- A 64-bit result cut to a word, and whether the word still reads as it. -/
theorem cut_result {wide : U64} {n : ℤ} (total : wide.toInt = n) :
    (decide (wide ≠ (wide.setWidth 32).signExtend 64), wide.setWidth 32) =
      (decide (n ≠ (BitVec.ofInt 32 n).toInt), BitVec.ofInt 32 n) := by
  have cut : wide.setWidth 32 = BitVec.ofInt 32 n := by
    rw [← total]
    exact (BitVec.signExtend_eq_setWidth_of_le wide (show 32 ≤ 64 by decide)).symm
  have read : wide ≠ (wide.setWidth 32).signExtend 64 ↔ n ≠ (BitVec.ofInt 32 n).toInt := by
    rw [ne_eq, ← BitVec.toInt_inj, BitVec.toInt_signExtend_of_le (by decide), cut, total]
  rw [decide_eq_decide.mpr read, cut]

theorem wide_toInt (a : U32) : (a.signExtend 64).toInt = a.toInt :=
  BitVec.toInt_signExtend_of_le (by decide)

theorem addOverflowS32Checked_eq (a b : U32) :
    addOverflowS32Checked a b = some (addOverflowS32 a b) := by
  have room := (fits_wider a b (show 0 < 32 by decide) (show 32 < 64 by decide)).1
  rw [← wide_toInt a, ← wide_toInt b] at room
  have total := toInt_add_of_fits (by decide) room
  rw [wide_toInt, wide_toInt] at total
  unfold addOverflowS32Checked addOverflowS32
  rw [checkedAdd_of_fits room]
  exact congrArg some (cut_result total)

theorem subOverflowS32Checked_eq (a b : U32) :
    subOverflowS32Checked a b = some (subOverflowS32 a b) := by
  have room := (fits_wider a b (show 0 < 32 by decide) (show 32 < 64 by decide)).2
  rw [← wide_toInt a, ← wide_toInt b] at room
  have total := toInt_sub_of_fits (by decide) room
  rw [wide_toInt, wide_toInt] at total
  unfold subOverflowS32Checked subOverflowS32
  rw [checkedSub_of_fits room]
  exact congrArg some (cut_result total)

theorem s64MaxWord_toInt : s64MaxWord.toInt = s64Max := by decide
theorem s64MinWord_toInt : s64MinWord.toInt = s64Min := by decide

theorem fits64_iff (n : ℤ) : Fits 64 n ↔ s64Min ≤ n ∧ n ≤ s64Max := by
  unfold Fits s64Min s64Max
  omega

theorem addOverflowS64_iff (a b : U64) :
    (b.toInt > 0 ∧ a.toInt > s64Max - b.toInt ∨ b.toInt < 0 ∧ a.toInt < s64Min - b.toInt) ↔
      ¬Fits 64 (a.toInt + b.toInt) := by
  have first := (fits64_iff _).mp (fits_toInt a)
  rw [fits64_iff]
  omega

theorem subOverflowS64_iff (a b : U64) :
    (b.toInt > 0 ∧ a.toInt < s64Min + b.toInt ∨ b.toInt < 0 ∧ a.toInt > s64Max + b.toInt) ↔
      ¬Fits 64 (a.toInt - b.toInt) := by
  have first := (fits64_iff _).mp (fits_toInt a)
  rw [fits64_iff]
  omega

/-- The exact result where it is in range, and the flag without a result where it is not. -/
def testedWord (n : ℤ) : Bool × U64 :=
  if Fits 64 n then (false, BitVec.ofInt 64 n) else (true, 0)

theorem addOverflowS64_eq (a b : U64) :
    addOverflowS64 a b = testedWord (a.toInt + b.toInt) := by
  unfold addOverflowS64 testedWord
  rw [if_congr (addOverflowS64_iff a b) rfl rfl, ite_not, add_ofInt]

theorem subOverflowS64_eq (a b : U64) :
    subOverflowS64 a b = testedWord (a.toInt - b.toInt) := by
  unfold subOverflowS64 testedWord
  rw [if_congr (subOverflowS64_iff a b) rfl rfl, ite_not, sub_ofInt]

/-- A test that is the range of the exact result, before a result that is checked. -/
theorem tested_eq {n : ℤ} {beyond : Option Bool} (test : beyond = some (decide ¬Fits 64 n)) :
    (do
      let b ← beyond
      if b then some (true, 0)
      else do
        let result ← checked 64 n
        some (false, result)) = some (testedWord n) := by
  rw [test, testedWord, checked]
  by_cases fits : Fits 64 n
  · rw [if_pos fits, if_pos fits, decide_eq_false (not_not.mpr fits)]
    rfl
  · rw [if_neg fits, if_neg fits, decide_eq_true fits]
    rfl

theorem limit_sub {m b : U64} {p : Prop} [Decidable p] (f : ℤ → Bool)
    (room : p → Fits 64 (m.toInt - b.toInt)) :
    shortAnd (some p) ((checkedSub m b).map fun l => f l.toInt) =
      some (p && f (m.toInt - b.toInt)) := by
  refine shortAnd_of fun side => ?_
  have fits := room (of_decide_eq_true side)
  rw [checkedSub_of_fits fits, Option.map_some, toInt_sub_of_fits (by decide) fits]

theorem limit_add {m b : U64} {p : Prop} [Decidable p] (f : ℤ → Bool)
    (room : p → Fits 64 (m.toInt + b.toInt)) :
    shortAnd (some p) ((checkedAdd m b).map fun l => f l.toInt) =
      some (p && f (m.toInt + b.toInt)) := by
  refine shortAnd_of fun side => ?_
  have fits := room (of_decide_eq_true side)
  rw [checkedAdd_of_fits fits, Option.map_some, toInt_add_of_fits (by decide) fits]

theorem addOverflowS64Checked_eq (a b : U64) :
    addOverflowS64Checked a b = some (addOverflowS64 a b) := by
  have range := (fits64_iff _).mp (fits_toInt b)
  have above : b.toInt > 0 → Fits 64 (s64MaxWord.toInt - b.toInt) := by
    intro sign
    rw [s64MaxWord_toInt, fits64_iff]
    unfold s64Min s64Max at *
    omega
  have below : b.toInt < 0 → Fits 64 (s64MinWord.toInt - b.toInt) := by
    intro sign
    rw [s64MinWord_toInt, fits64_iff]
    unfold s64Min s64Max at *
    omega
  rw [addOverflowS64_eq]
  apply tested_eq
  rw [limit_sub (fun l => a.toInt > l) above, limit_sub (fun l => a.toInt < l) below,
    s64MaxWord_toInt, s64MinWord_toInt, shortOr_some, ← Bool.decide_and, ← Bool.decide_and,
    ← Bool.decide_or, decide_eq_decide.mpr (addOverflowS64_iff a b)]

theorem subOverflowS64Checked_eq (a b : U64) :
    subOverflowS64Checked a b = some (subOverflowS64 a b) := by
  have range := (fits64_iff _).mp (fits_toInt b)
  have above : b.toInt > 0 → Fits 64 (s64MinWord.toInt + b.toInt) := by
    intro sign
    rw [s64MinWord_toInt, fits64_iff]
    unfold s64Min s64Max at *
    omega
  have below : b.toInt < 0 → Fits 64 (s64MaxWord.toInt + b.toInt) := by
    intro sign
    rw [s64MaxWord_toInt, fits64_iff]
    unfold s64Min s64Max at *
    omega
  rw [subOverflowS64_eq]
  apply tested_eq
  rw [limit_add (fun l => a.toInt < l) above, limit_add (fun l => a.toInt > l) below,
    s64MaxWord_toInt, s64MinWord_toInt, shortOr_some, ← Bool.decide_and, ← Bool.decide_and,
    ← Bool.decide_or, decide_eq_decide.mpr (subOverflowS64_iff a b)]

end Tests

section Outcomes

variable (c : Cpu) (idx : BitVec 5)

theorem writeChecked32_wide (n : ℤ) :
    c.writeChecked32 idx (n ≠ (BitVec.ofInt 32 n).toInt, BitVec.ofInt 32 n) =
      if Fits 32 n then c.writeGpr idx (BitVec.ofInt 64 n) else c.raise ExcCode.Ov := by
  unfold writeChecked32
  dsimp only
  rw [if_congr overflows32_iff rfl rfl, ite_not]
  by_cases fits : Fits 32 n
  · rw [if_pos fits, if_pos fits]
    exact congrArg (c.writeGpr idx ∘ BitVec.ofInt 64) (toInt_of_fits (by decide) fits)
  · rw [if_neg fits, if_neg fits]

theorem writeChecked64_tested (n : ℤ) : c.writeChecked64 idx (testedWord n) =
    if Fits 64 n then c.writeGpr idx (BitVec.ofInt 64 n) else c.raise ExcCode.Ov := by
  unfold testedWord
  by_cases fits : Fits 64 n
  · rw [if_pos fits, if_pos fits]
    rfl
  · rw [if_neg fits, if_neg fits]
    rfl

theorem writeChecked64_add (a b : U64) : c.writeChecked64 idx (addOverflowS64 a b) =
    if Fits 64 (a.toInt + b.toInt) then c.writeGpr idx (BitVec.ofInt 64 (a.toInt + b.toInt))
    else c.raise ExcCode.Ov := by
  rw [addOverflowS64_eq, writeChecked64_tested]

theorem writeChecked64_sub (a b : U64) : c.writeChecked64 idx (subOverflowS64 a b) =
    if Fits 64 (a.toInt - b.toInt) then c.writeGpr idx (BitVec.ofInt 64 (a.toInt - b.toInt))
    else c.raise ExcCode.Ov := by
  rw [subOverflowS64_eq, writeChecked64_tested]

theorem ofInt_bmod (n : ℤ) : BitVec.ofInt 64 (n.bmod (2 ^ 64)) = BitVec.ofInt 64 n := by
  apply BitVec.eq_of_toInt_eq
  rw [BitVec.toInt_ofInt, BitVec.toInt_ofInt, Int.bmod_bmod]

theorem sext32_ofInt (n : ℤ) :
    sext32 (BitVec.ofInt 32 n) = BitVec.ofInt 64 (n.bmod (2 ^ 32)) := by
  rw [← BitVec.toInt_ofInt]
  rfl

theorem wrapped32_add (a b : U32) :
    sext32 (a + b) = BitVec.ofInt 64 ((a.toInt + b.toInt).bmod (2 ^ 32)) := by
  rw [add_ofInt, sext32_ofInt]

theorem wrapped32_sub (a b : U32) :
    sext32 (a - b) = BitVec.ofInt 64 ((a.toInt - b.toInt).bmod (2 ^ 32)) := by
  rw [sub_ofInt, sext32_ofInt]

theorem wrapped64_add (a b : U64) :
    a + b = BitVec.ofInt 64 ((a.toInt + b.toInt).bmod (2 ^ 64)) := by
  rw [ofInt_bmod, ← add_ofInt]

theorem wrapped64_sub (a b : U64) :
    a - b = BitVec.ofInt 64 ((a.toInt - b.toInt).bmod (2 ^ 64)) := by
  rw [ofInt_bmod, ← sub_ofInt]

end Outcomes

theorem onCpu_congr {s : Sys} {f g : Cpu → Cpu} (same : f s.cpu = g s.cpu) :
    s.onCpu f = s.onCpu g := congrArg (fun c => s.onCpu fun _ => c) same

namespace Arith

def run (i : Arith) (c : Cpu) (insn : U32) : Cpu :=
  let rs64 := c.gpr (rs insn)
  let rs32 : U32 := rs64.setWidth 32
  match i with
  | .ADD => c.execSpecialFn .ADD insn
  | .ADDI => c.writeChecked32 (rt insn) (addOverflowS32 rs32 (simm32 insn))
  | .SUB => c.execSpecialFn .SUB insn
  | .DADD => c.execSpecialFn .DADD insn
  | .DADDI => c.writeChecked64 (rt insn) (addOverflowS64 rs64 (simm64 insn))
  | .DSUB => c.execSpecialFn .DSUB insn
  | .ADDU => c.execSpecialFn .ADDU insn
  | .ADDIU => c.writeGpr (rt insn) (sext32 (rs32 + simm32 insn))
  | .SUBU => c.execSpecialFn .SUBU insn
  | .DADDU => c.execSpecialFn .DADDU insn
  | .DADDIU => c.writeGpr (rt insn) (rs64 + simm64 insn)
  | .DSUBU => c.execSpecialFn .DSUBU insn

theorem run_execSpecialFn (c : Cpu) (insn : U32) {f : SpecialFn} {i : Arith}
    (decoded : arithOfFn f = some i) : c.execSpecialFn f insn = i.run c insn := by
  cases f
  all_goals
    cases decoded
    try rfl

theorem run_execSpecial (c : Cpu) {insn : U32} {i : Arith}
    (decoded : (SpecialFn.ofCode (fn insn)).bind arithOfFn = some i) :
    c.execSpecial insn = i.run c insn := by
  obtain ⟨f, code, decoded⟩ := Option.bind_eq_some_iff.mp decoded
  unfold execSpecial
  rw [code]
  exact run_execSpecialFn c insn decoded

theorem run_executeOp (fp : HostFpu) (s : Sys) {insn : U32} {o : Op} {i : Arith}
    (decoded : arithOfOp insn o = some i) : executeOp fp s o insn = s.onCpu (i.run · insn) := by
  cases o
  case SPECIAL => exact onCpu_congr (f := (·.execSpecial insn)) (run_execSpecial s.cpu decoded)
  case ADDI =>
    cases decoded
    unfold executeOp
    exact onCpu_congr rfl
  case DADDI =>
    cases decoded
    unfold executeOp
    exact onCpu_congr rfl
  case ADDIU =>
    cases decoded
    exact onCpu_congr rfl
  case DADDIU =>
    cases decoded
    exact onCpu_congr rfl
  all_goals cases decoded

theorem run_execute (fp : HostFpu) (s : Sys) {insn : U32} {i : Arith}
    (decoded : arithOf insn = some i) : execute fp s insn = s.onCpu (i.run · insn) := by
  obtain ⟨o, code, decoded⟩ := Option.bind_eq_some_iff.mp decoded
  exact (execute_of_code fp s o code).trans (run_executeOp fp s decoded)

theorem simm32_toInt (insn : U32) : (simm32 insn).toInt = (imm insn).toInt :=
  BitVec.toInt_signExtend_of_le (by decide)

theorem simm64_toInt (insn : U32) : (simm64 insn).toInt = (imm insn).toInt :=
  BitVec.toInt_signExtend_of_le (by decide)

theorem run_outcome (i : Arith) (c : Cpu) (insn : U32) : i.run c insn = i.outcome c insn := by
  have whole (v : U64) : (v.setWidth 64).toInt = v.toInt := by rw [BitVec.setWidth_eq]
  cases i
  all_goals
    simp only [run, outcome, traps, result, immediate, subtracts, operand, width, dest, whole,
      ← simm32_toInt]
  case ADD => exact writeChecked32_wide c _ _
  case ADDI => exact writeChecked32_wide c _ _
  case SUB => exact writeChecked32_wide c _ _
  case DADD => exact writeChecked64_add c _ _ _
  case DADDI =>
    rw [simm32_toInt, ← simm64_toInt]
    exact writeChecked64_add c _ _ _
  case DSUB => exact writeChecked64_sub c _ _ _
  case ADDU => exact congrArg (c.writeGpr _) (wrapped32_add _ _)
  case ADDIU => exact congrArg (c.writeGpr _) (wrapped32_add _ _)
  case SUBU => exact congrArg (c.writeGpr _) (wrapped32_sub _ _)
  case DADDU => exact congrArg (c.writeGpr _) (wrapped64_add _ _)
  case DADDIU =>
    rw [simm32_toInt, ← simm64_toInt]
    exact congrArg (c.writeGpr _) (wrapped64_add _ _)
  case DSUBU => exact congrArg (c.writeGpr _) (wrapped64_sub _ _)

/-- Only the sum of DADDIU is taken in signed arithmetic without a test first. -/
theorem evaluate_iff (i : Arith) (c : Cpu) (insn : U32) :
    i.evaluate c insn = some (i.run c insn) ↔
      (i = .DADDIU → Fits 64 ((c.gpr (rs insn)).toInt + (imm insn).toInt)) := by
  cases i
  case DADDIU =>
    rw [← simm64_toInt]
    constructor
    · intro evaluated _
      obtain ⟨v, added, _⟩ := Option.map_eq_some_iff.mp evaluated
      exact fits_of_checkedAdd added
    · intro fits
      exact congrArg (Option.map (c.writeGpr (rt insn))) (checkedAdd_of_fits (fits rfl))
  all_goals
    refine iff_of_true ?_ fun other => by cases other
  case ADD => exact congrArg (Option.map _) (addOverflowS32Checked_eq _ _)
  case ADDI => exact congrArg (Option.map _) (addOverflowS32Checked_eq _ _)
  case SUB => exact congrArg (Option.map _) (subOverflowS32Checked_eq _ _)
  case DADD => exact congrArg (Option.map _) (addOverflowS64Checked_eq _ _)
  case DADDI => exact congrArg (Option.map _) (addOverflowS64Checked_eq _ _)
  case DSUB => exact congrArg (Option.map _) (subOverflowS64Checked_eq _ _)
  all_goals rfl

end Arith

/-- The offset has room for its shift; the sum with the pc may have none. -/
theorem branchRelChecked_iff (c : Cpu) (offsetImm : U32) :
    branchRelChecked c offsetImm = some (c.branchRel (offsetImm.signExtend 64)) ↔
      Fits 64 ((c.pc + 4).toInt + offsetImm.toInt * 4) := by
  have wide : (offsetImm.signExtend 64).toInt = offsetImm.toInt :=
    BitVec.toInt_signExtend_of_le (by decide)
  have room : Fits 64 ((offsetImm.signExtend 64).toInt * 2 ^ 2) := by
    have range := fits_toInt offsetImm
    rw [wide]
    unfold Fits at *
    omega
  have scaled : (offsetImm.signExtend 64 <<< 2).toInt = offsetImm.toInt * 4 := by
    rw [toInt_shl_of_fits (by decide) room, wide]
    rfl
  unfold branchRelChecked
  rw [checkedShl_of_fits room, Option.bind_eq_bind, Option.bind_some, ← scaled]
  constructor
  · intro evaluated
    obtain ⟨next, added, _⟩ := Option.bind_eq_some_iff.mp evaluated
    exact fits_of_checkedAdd added
  · intro fits
    rw [checkedAdd_of_fits fits]
    rfl

/-- The instruction leaves what it is for, and each signed operation on the way has room. -/
structure ArithmeticExact (fp : HostFpu) (s : Sys) (insn : U32) (i : Arith) : Prop where
  outcome : execute fp s insn = s.onCpu (i.outcome · insn)
  defined : i.evaluate s.cpu insn = some (execute fp s insn).cpu

/-- Each signed operation of `branch_rel` has room. -/
def BranchDefined (c : Cpu) (offsetImm : U32) : Prop :=
  branchRelChecked c offsetImm = some (c.branchRel (offsetImm.signExtend 64))

theorem arithmeticExact_iff (fp : HostFpu) (s : Sys) {insn : U32} {i : Arith}
    (decoded : arithOf insn = some i) : ArithmeticExact fp s insn i ↔
      (i = .DADDIU → Fits 64 ((s.cpu.gpr (rs insn)).toInt + (imm insn).toInt)) := by
  have executed := i.run_execute fp s decoded
  rw [← i.evaluate_iff s.cpu insn]
  constructor
  · intro exact_
    have evaluated := exact_.defined
    rw [executed] at evaluated
    exact evaluated
  · intro evaluated
    refine ⟨?_, ?_⟩
    · rw [executed]
      exact onCpu_congr (i.run_outcome s.cpu insn)
    · rw [executed]
      exact evaluated

/-- Every result is exact, and the signed sums of DADDIU and of the branches are the
    only ones that can leave their range. -/
theorem integer_arithmetic_iff (fp : HostFpu) (s : Sys) {insn : U32} {i : Arith}
    (decoded : arithOf insn = some i) (c : Cpu) (offsetImm : U32) :
    ArithmeticExact fp s insn i ∧ BranchDefined c offsetImm ↔
      (i = .DADDIU → Fits 64 ((s.cpu.gpr (rs insn)).toInt + (imm insn).toInt)) ∧
      Fits 64 ((c.pc + 4).toInt + offsetImm.toInt * 4) :=
  and_congr (arithmeticExact_iff fp s decoded) (branchRelChecked_iff c offsetImm)

/-- DADDIU r2, r1, 1 and a branch, each one short of its limit. -/
theorem integer_arithmetic_below_limits :
    let s : Sys := { cpu := { gpr := fun i => if i = 1 then 0x7FFFFFFFFFFFFFFE else 0 } }
    ArithmeticExact default s 0x64220001 .DADDIU ∧
      BranchDefined { pc := 0x7FFFFFFFFFFFFFF4 } 1 := by
  intro s
  exact (integer_arithmetic_iff default s (by decide) _ 1).mpr
    ⟨fun _ => by decide, by decide⟩

/-- DADDIU r2, r1, 1 of the greatest register, and a branch at the end of the addresses. -/
theorem integer_arithmetic_limits :
    (∃ s : Sys, arithOf 0x64220001 = some .DADDIU ∧
      ¬ArithmeticExact default s 0x64220001 .DADDIU) ∧
    ∃ c : Cpu, ¬BranchDefined c 1 := by
  refine ⟨⟨{ cpu := { gpr := Function.update (fun _ => 0) 1 0x7FFFFFFFFFFFFFFF } }, by decide, ?_⟩,
    { pc := 0x7FFFFFFFFFFFFFF8 }, ?_⟩
  · intro exact_
    have evaluated := exact_.defined
    cases evaluated
  · intro defined
    cases defined

end N64.Cpu
