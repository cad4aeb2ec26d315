import N64Emu.Exceptions
import N64Emu.StepEffect

/-!
# Floating-point exceptions

A computational instruction first finds its outcome, the flags and what goes
where, from the registers alone, and then commits it. The rules of FCR31 are
those of the commit.
-/

set_option autoImplicit false

namespace N64.Cpu

open Words Insn Fpu

/-- Where the result of an operation goes. -/
inductive Target where
  | word (fd : BitVec 5) (value : U32)
  | double (fd : BitVec 5) (value : U64)
  | condition (result : Bool)

inductive Outcome where
  | unimplemented
  | result (flags : U32) (target : Target)

def Target.write (c : Cpu) : Target → Cpu
  | .word fd value => c.writeFprWord fd value
  | .double fd value => c.setFprDouble fd value
  | .condition result => c.setCondition result

def Outcome.commit (c : Cpu) : Outcome → Cpu
  | .unimplemented => c.raiseFpuUnimplemented
  | .result flags target => c.finishFpuOperation flags (target.write ·)

section Outcomes

variable (fp : HostFpu) (c : Cpu)

def singleOutcome (fd : BitVec 5) (r : U32 × U32) : Outcome :=
  match roundResult single c r.1 r.2 with
  | none => .unimplemented
  | some (raw, flags) => .result flags (.word fd raw)

/-- A double goes to an even register, unless there are 32 of them. -/
def oddPair (fd : BitVec 5) : Bool := !c.fpuFrMode && fd &&& 1 != 0

def doubleOutcome (fd : BitVec 5) (r : U64 × U32) : Outcome :=
  match roundResult double c r.1 r.2 with
  | none => .unimplemented
  | some (raw, flags) => if c.oddPair fd then .unimplemented else .result flags (.double fd raw)

def arithmeticIssue {w : ℕ} (F : FloatFormat w) (function : ℕ) (fsRaw ftRaw : BitVec w) :
    InputIssue :=
  if function ≤ 0x03 then
    combineIssues (classifyComputationalOperand F fsRaw) (classifyComputationalOperand F ftRaw)
  else classifyComputationalOperand F fsRaw

def arithmeticSingleOutcome (function : ℕ) (fs ft fd : BitVec 5) : Outcome :=
  let fsRaw := c.readFprWord fs
  let ftRaw := c.readFprWord ft
  match arithmeticIssue single function fsRaw ftRaw with
  | .Unimplemented => .unimplemented
  | .Invalid => c.singleOutcome fd (single.canonicalNan, kFcr31FlagInvalid)
  | .None =>
    if function = 0x05 then .result 0 (.word fd (fsRaw &&& 0x7FFFFFFF))
    else if function = 0x07 then .result 0 (.word fd (fsRaw ^^^ 0x80000000))
    else
      c.singleOutcome fd (calculateArithmetic single fp.arith32 function fsRaw ftRaw c.roundingMode)

def arithmeticDoubleOutcome (function : ℕ) (fs ft fd : BitVec 5) : Outcome :=
  match c.doubleOperands function fs ft with
  | none => .unimplemented
  | some (fsRaw, ftRaw) =>
    match arithmeticIssue double function fsRaw ftRaw with
    | .Unimplemented => .unimplemented
    | .Invalid => c.doubleOutcome fd (double.canonicalNan, kFcr31FlagInvalid)
    | .None =>
      if function = 0x05 then c.doubleOutcome fd (fsRaw &&& 0x7FFFFFFFFFFFFFFF, 0)
      else if function = 0x07 then c.doubleOutcome fd (fsRaw ^^^ 0x8000000000000000, 0)
      else
        c.doubleOutcome fd
          (calculateArithmetic double fp.arith64 function fsRaw ftRaw c.roundingMode)

def compareOutcome {w : ℕ} (F : FloatFormat w) (conditionCode : ℕ) (fsRaw ftRaw : BitVec w) :
    Outcome :=
  let unordered := isNan F fsRaw || isNan F ftRaw
  let invalid := isSignalingNan F fsRaw || isSignalingNan F ftRaw ||
    (unordered && conditionCode.testBit 3)
  .result (if invalid then kFcr31FlagInvalid else 0) (.condition
    ((unordered && conditionCode.testBit 0) ||
      ((!unordered && orderKey F fsRaw = orderKey F ftRaw) && conditionCode.testBit 1) ||
      ((!unordered && orderKey F fsRaw < orderKey F ftRaw) && conditionCode.testBit 2)))

def compareDoubleOutcome (conditionCode : ℕ) (fs ft : BitVec 5) : Outcome :=
  match c.readFprDouble fs, c.readFprDouble ft with
  | some fsRaw, some ftRaw => compareOutcome double conditionCode fsRaw ftRaw
  | _, _ => .unimplemented

def convertIntegerOutcome {w : ℕ} (F : FloatFormat w) (function : ℕ) (raw : BitVec w)
    (fd : BitVec 5) : Outcome :=
  let issue := classifyComputationalOperand F raw
  let rm : U32 :=
    if 0x08 ≤ function ∧ function ≤ 0x0F then BitVec.ofNat 32 ((function - 0x08) % 4)
    else c.roundingMode
  if issue = .Unimplemented then .unimplemented
  else if (0x0C ≤ function ∧ function ≤ 0x0F) ∨ function = 0x24 then
    let r : U32 × U32 :=
      if issue = .Invalid then (0x80000000, kFcr31FlagInvalid) else convertToInteger F 32 raw rm
    .result r.2 (.word fd r.1)
  else if c.oddPair fd then .unimplemented
  else
    let r : U64 × U32 :=
      if issue = .Invalid then (0x8000000000000000, kFcr31FlagInvalid)
      else convertToInteger F 64 raw rm
    .result r.2 (.double fd r.1)

/-- The outcome from a double source, if its register can be read. -/
def fromDouble (fs : BitVec 5) (outcome : U64 → Outcome) : Outcome :=
  match c.readFprDouble fs with
  | none => .unimplemented
  | some raw => outcome raw

def fromOperand (issue : InputIssue) (invalid outcome : Outcome) : Outcome :=
  match issue with
  | .Unimplemented => .unimplemented
  | .Invalid => invalid
  | .None => outcome

def convertSingleOutcome (format : Fmt) (fs fd : BitVec 5) : Outcome :=
  match format with
  | .Double => c.fromDouble fs fun raw =>
    fromOperand (classifyComputationalOperand double raw)
      (c.singleOutcome fd (single.canonicalNan, kFcr31FlagInvalid))
      (c.singleOutcome fd
        (convertFloating single (isFinite double raw) (fp.f64ToF32 raw c.roundingMode)))
  | .Word =>
    c.singleOutcome fd
      (convertFloating single true (fp.s32ToF32 (c.readFprWord fs) c.roundingMode))
  | .Long => c.fromDouble fs fun raw =>
    c.singleOutcome fd (convertFloating single true (fp.s64ToF32 raw c.roundingMode))
  | .Single => .unimplemented

def convertDoubleOutcome (format : Fmt) (fs fd : BitVec 5) : Outcome :=
  if c.oddPair fd then .unimplemented
  else
    match format with
    | .Single =>
      fromOperand (classifyComputationalOperand single (c.readFprWord fs))
        (c.doubleOutcome fd (double.canonicalNan, kFcr31FlagInvalid))
        (c.doubleOutcome fd
          (convertFloating double (isFinite single (c.readFprWord fs))
            (fp.f32ToF64 (c.readFprWord fs) c.roundingMode)))
    | .Word =>
      c.doubleOutcome fd
        (convertFloating double true (fp.s32ToF64 (c.readFprWord fs) c.roundingMode))
    | .Long => c.fromDouble fs fun raw =>
      c.doubleOutcome fd (convertFloating double true (fp.s64ToF64 raw c.roundingMode))
    | .Double => .unimplemented

def integerConversionOutcome (format : Fmt) (function : ℕ) (fs fd : BitVec 5) : Outcome :=
  match format with
  | .Single => c.convertIntegerOutcome single function (c.readFprWord fs) fd
  | .Double => c.fromDouble fs fun raw => c.convertIntegerOutcome double function raw fd
  | .Word | .Long => .unimplemented

/-- The outcome of an instruction with a format, other than a move. -/
def operation (format : Fmt) (insn : U32) : Outcome :=
  let ft := rt insn
  let fs := rd insn
  let fd := sa insn
  let function := fn insn
  let floating : Bool := format = .Single ∨ format = .Double
  if function ≤ 0x07 ∧ floating then
    if format = .Single then c.arithmeticSingleOutcome fp function fs ft fd
    else c.arithmeticDoubleOutcome fp function fs ft fd
  else if 0x30 ≤ function ∧ floating then
    if format = .Single then
      compareOutcome single (function - 0x30) (c.readFprWord fs) (c.readFprWord ft)
    else c.compareDoubleOutcome (function - 0x30) fs ft
  else if isIntegerConversion function then c.integerConversionOutcome format function fs fd
  else if function = 0x20 then c.convertSingleOutcome fp format fs fd
  else if function = 0x21 then c.convertDoubleOutcome fp format fs fd
  else .unimplemented

end Outcomes

def IsMove (format : Fmt) (insn : U32) : Prop :=
  fn insn = 0x06 ∧ (format = .Single ∨ format = .Double)

section Commit

variable (fp : HostFpu) (c : Cpu)

theorem handleSingleResult_commits (fd : BitVec 5) (r : U32 × U32) :
    c.handleSingleResult fd r = (c.singleOutcome fd r).commit c := by
  rw [handleSingleResult, singleOutcome]
  cases roundResult single c r.1 r.2 with
  | none => rfl
  | some result => rfl

theorem oddPair_iff (fd : BitVec 5) :
    (!c.fpuFrMode ∧ fd &&& 1 ≠ 0) ↔ c.oddPair fd = true := by
  simp [oddPair]

theorem handleDoubleResult_commits (fd : BitVec 5) (r : U64 × U32) :
    c.handleDoubleResult fd r = (c.doubleOutcome fd r).commit c := by
  rw [handleDoubleResult, doubleOutcome]
  cases roundResult double c r.1 r.2 with
  | none => rfl
  | some result =>
    dsimp only
    by_cases odd : c.oddPair fd = true
    · rw [if_pos ((oddPair_iff c fd).mpr odd), if_pos odd]
      rfl
    · rw [if_neg (mt (oddPair_iff c fd).mp odd), if_neg odd]
      rfl

theorem arithmeticSingle_commits {function : ℕ} (other : function ≠ 0x06) (fs ft fd : BitVec 5) :
    arithmeticSingle fp c function fs ft fd =
      (c.arithmeticSingleOutcome fp function fs ft fd).commit c := by
  simp only [arithmeticSingle, arithmeticSingleOutcome, if_neg other, arithmeticIssue]
  generalize (if function ≤ 0x03 then combineIssues _ _ else _) = issue
  cases issue with
  | Unimplemented => rfl
  | Invalid => exact handleSingleResult_commits ..
  | None =>
    dsimp only
    split_ifs
    · rfl
    · rfl
    · exact handleSingleResult_commits ..

theorem arithmeticDouble_commits {function : ℕ} (other : function ≠ 0x06) (fs ft fd : BitVec 5) :
    arithmeticDouble fp c function fs ft fd =
      (c.arithmeticDoubleOutcome fp function fs ft fd).commit c := by
  rw [arithmeticDouble, arithmeticDoubleOutcome]
  cases c.doubleOperands function fs ft with
  | none => rfl
  | some operands =>
    simp only [if_neg other, arithmeticIssue]
    generalize (if function ≤ 0x03 then combineIssues _ _ else _) = issue
    cases issue with
    | Unimplemented => rfl
    | Invalid => exact handleDoubleResult_commits ..
    | None =>
      dsimp only
      split_ifs
      · exact handleDoubleResult_commits ..
      · exact handleDoubleResult_commits ..
      · exact handleDoubleResult_commits ..

theorem compareDouble_commits (conditionCode : ℕ) (fs ft : BitVec 5) :
    c.compareDouble conditionCode fs ft =
      (c.compareDoubleOutcome conditionCode fs ft).commit c := by
  rw [compareDouble, compareDoubleOutcome]
  cases c.readFprDouble fs with
  | none => rfl
  | some fsRaw =>
    cases c.readFprDouble ft with
    | none => rfl
    | some ftRaw => rfl

theorem convertInteger_commits {w : ℕ} (F : FloatFormat w) (function : ℕ) (raw : BitVec w)
    (fd : BitVec 5) :
    c.convertInteger F function raw fd = (c.convertIntegerOutcome F function raw fd).commit c := by
  simp only [convertInteger, convertIntegerOutcome]
  by_cases unimplemented : classifyComputationalOperand F raw = .Unimplemented
  · rw [if_pos unimplemented, if_pos unimplemented]
    rfl
  · rw [if_neg unimplemented, if_neg unimplemented]
    by_cases toWord : (0x0C ≤ function ∧ function ≤ 0x0F) ∨ function = 0x24
    · rw [if_pos toWord, if_pos toWord]
      rfl
    · rw [if_neg toWord, if_neg toWord]
      by_cases odd : c.oddPair fd = true
      · rw [if_pos ((oddPair_iff c fd).mpr odd), if_pos odd]
        rfl
      · rw [if_neg (mt (oddPair_iff c fd).mp odd), if_neg odd]
        rfl

theorem fromDouble_commits (fs : BitVec 5) {run : U64 → Cpu} {outcome : U64 → Outcome}
    (commits : ∀ raw, run raw = (outcome raw).commit c) :
    (match c.readFprDouble fs with
      | none => c.raiseFpuUnimplemented
      | some raw => run raw) = (c.fromDouble fs outcome).commit c := by
  rw [fromDouble]
  cases c.readFprDouble fs with
  | none => rfl
  | some raw => exact commits raw

theorem fromOperand_commits (issue : InputIssue) {invalid none : Cpu} {onInvalid onNone : Outcome}
    (h₁ : invalid = onInvalid.commit c) (h₂ : none = onNone.commit c) :
    (match issue with
      | .Unimplemented => c.raiseFpuUnimplemented
      | .Invalid => invalid
      | .None => none) = (fromOperand issue onInvalid onNone).commit c := by
  cases issue with
  | Unimplemented => rfl
  | Invalid => exact h₁
  | None => exact h₂

theorem integerConversion_commits (format : Fmt) (function : ℕ) (fs fd : BitVec 5) :
    c.integerConversion format function fs fd =
      (c.integerConversionOutcome format function fs fd).commit c := by
  cases format with
  | Single => exact convertInteger_commits ..
  | Double => exact fromDouble_commits c fs fun raw => convertInteger_commits ..
  | Word => rfl
  | Long => rfl

theorem convertSingle_commits (format : Fmt) (fs fd : BitVec 5) :
    convertSingle fp c format fs fd = (c.convertSingleOutcome fp format fs fd).commit c := by
  cases format with
  | Single => rfl
  | Word => exact handleSingleResult_commits ..
  | Long => exact fromDouble_commits c fs fun raw => handleSingleResult_commits ..
  | Double =>
    exact fromDouble_commits c fs fun raw => fromOperand_commits c _
      (handleSingleResult_commits ..) (handleSingleResult_commits ..)

theorem convertDouble_commits (format : Fmt) (fs fd : BitVec 5) :
    convertDouble fp c format fs fd = (c.convertDoubleOutcome fp format fs fd).commit c := by
  rw [convertDouble.eq_def, convertDoubleOutcome.eq_def]
  by_cases odd : c.oddPair fd = true
  · rw [if_pos ((oddPair_iff c fd).mpr odd), if_pos odd]
    rfl
  · rw [if_neg (mt (oddPair_iff c fd).mp odd), if_neg odd]
    cases format with
    | Double => rfl
    | Word => exact handleDoubleResult_commits ..
    | Long => exact fromDouble_commits c fs fun raw => handleDoubleResult_commits ..
    | Single =>
      exact fromOperand_commits c _ (handleDoubleResult_commits ..) (handleDoubleResult_commits ..)

theorem execCop1Format_commits {format : Fmt} {insn : U32} (other : ¬ IsMove format insn) :
    execCop1Format fp c format insn = (c.operation fp format insn).commit c := by
  simp only [execCop1Format, operation]
  by_cases arithmetic : fn insn ≤ 0x07 ∧ decide (format = .Single ∨ format = .Double) = true
  · have noMove : fn insn ≠ 0x06 := fun move => other ⟨move, of_decide_eq_true arithmetic.2⟩
    rw [if_pos arithmetic, if_pos arithmetic]
    split_ifs
    · exact arithmeticSingle_commits fp c noMove ..
    · exact arithmeticDouble_commits fp c noMove ..
  · rw [if_neg arithmetic, if_neg arithmetic]
    split_ifs
    · rfl
    · exact compareDouble_commits ..
    · exact integerConversion_commits ..
    · exact convertSingle_commits ..
    · exact convertDouble_commits ..
    · rfl

end Commit

def PendingFpe (fcr31 : U32) : Prop :=
  fcr31 &&& kFcr31CauseUnimplemented ≠ 0 ∨
    ((fcr31 >>> 10) &&& kFcr31FlagMask) &&& ((fcr31 >>> 5) &&& kFcr31FlagMask) ≠ 0

instance (fcr31 : U32) : Decidable (PendingFpe fcr31) :=
  inferInstanceAs (Decidable (_ ∨ _))

/-- The target is the register of the instruction, and a double fits there. -/
def Target.Aims (c : Cpu) (fd : BitVec 5) : Target → Prop
  | .word target _ => target = fd
  | .double target _ => target = fd ∧ c.oddPair fd = false
  | .condition _ => True

def Outcome.Aims (c : Cpu) (fd : BitVec 5) : Outcome → Prop
  | .unimplemented => True
  | .result _ target => target.Aims c fd

section Fcr31

variable (fcr31 flags : U32)

def withCauses : U32 := (fcr31 &&& ~~~kFcr31CauseMask) ||| ((flags &&& kFcr31FlagMask) <<< 10)

theorem withCauses_unimplemented : withCauses fcr31 flags &&& kFcr31CauseUnimplemented = 0 := by
  ext i hi
  simp only [withCauses, kFcr31CauseMask, kFcr31FlagMask, kFcr31CauseUnimplemented]
  interval_cases i <;> simp

theorem withCauses_causes :
    (withCauses fcr31 flags >>> 10) &&& kFcr31FlagMask = flags &&& kFcr31FlagMask := by
  ext i hi
  simp only [withCauses, kFcr31CauseMask, kFcr31FlagMask]
  interval_cases i <;> simp

theorem withCauses_enables :
    (withCauses fcr31 flags >>> 5) &&& kFcr31FlagMask =
      (withCauses fcr31 flags &&& kFcr31EnableMask) >>> 5 := by
  ext i hi
  simp only [withCauses, kFcr31CauseMask, kFcr31FlagMask, kFcr31EnableMask]
  interval_cases i <;> simp

theorem withCauses_rest :
    withCauses fcr31 flags &&& ~~~kFcr31CauseMask = fcr31 &&& ~~~kFcr31CauseMask := by
  ext i hi
  simp only [withCauses, kFcr31CauseMask, kFcr31FlagMask]
  interval_cases i <;> simp

def withFlags : U32 := withCauses fcr31 flags ||| (flags &&& kFcr31FlagMask)

theorem withFlags_causes :
    withFlags fcr31 flags &&& kFcr31CauseMask = (flags &&& kFcr31FlagMask) <<< 10 := by
  ext i hi
  simp only [withFlags, withCauses, kFcr31CauseMask, kFcr31FlagMask]
  interval_cases i <;> simp

theorem withFlags_sticky : withFlags fcr31 flags &&& kFcr31FlagMask =
    (fcr31 &&& kFcr31FlagMask) ||| (flags &&& kFcr31FlagMask) := by
  ext i hi
  simp only [withFlags, withCauses, kFcr31CauseMask, kFcr31FlagMask]
  interval_cases i <;> simp

theorem withFlags_condition :
    withFlags fcr31 flags &&& kFcr31Condition = fcr31 &&& kFcr31Condition := by
  ext i hi
  simp only [withFlags, withCauses, kFcr31CauseMask, kFcr31FlagMask, kFcr31Condition]
  interval_cases i <;> simp

theorem withFlags_control :
    withFlags fcr31 flags &&& ~~~(kFcr31CauseMask ||| kFcr31FlagMask ||| kFcr31Condition) =
      fcr31 &&& ~~~(kFcr31CauseMask ||| kFcr31FlagMask ||| kFcr31Condition) := by
  ext i hi
  simp only [withFlags, withCauses, kFcr31CauseMask, kFcr31FlagMask, kFcr31Condition]
  interval_cases i <;> simp

def decisive : U32 := kFcr31CauseMask ||| kFcr31EnableMask

theorem pending_decisive : PendingFpe (fcr31 &&& decisive) ↔ PendingFpe fcr31 := by
  have unimplemented : (fcr31 &&& decisive) &&& kFcr31CauseUnimplemented =
      fcr31 &&& kFcr31CauseUnimplemented := by
    rw [BitVec.and_assoc]
    rfl
  have causes : ((fcr31 &&& decisive) >>> 10) &&& kFcr31FlagMask =
      (fcr31 >>> 10) &&& kFcr31FlagMask := by
    rw [BitVec.ushiftRight_and_distrib, BitVec.and_assoc]
    rfl
  have enables : ((fcr31 &&& decisive) >>> 5) &&& kFcr31FlagMask =
      (fcr31 >>> 5) &&& kFcr31FlagMask := by
    rw [BitVec.ushiftRight_and_distrib, BitVec.and_assoc]
    rfl
  rw [PendingFpe, PendingFpe, unimplemented, causes, enables]

theorem withFlags_decisive :
    withFlags fcr31 flags &&& decisive = withCauses fcr31 flags &&& decisive := by
  refine or_and_of_disjoint _ ?_
  rw [BitVec.and_assoc]
  exact BitVec.and_zero

theorem unimplemented_fields (f : U32) :
    ((f &&& ~~~kFcr31CauseMask) ||| kFcr31CauseUnimplemented) &&& kFcr31CauseUnimplemented ≠ 0 ∧
      ((f &&& ~~~kFcr31CauseMask) ||| kFcr31CauseUnimplemented) &&& ~~~kFcr31CauseMask =
        f &&& ~~~kFcr31CauseMask := by
  constructor
  · intro clear
    have bit := congrArg (fun (x : U32) => x[17]) clear
    simp [kFcr31CauseMask, kFcr31CauseUnimplemented] at bit
  · rw [or_and_of_disjoint _ (by decide), BitVec.and_assoc, BitVec.and_self]

end Fcr31

/-- The step is an FPE exception, taken with nothing changed but FCR31. -/
def RaisesFpe (c c' : Cpu) : Prop := c' = { c with fcr31 := c'.fcr31 }.raise ExcCode.FPE

/-- The destination holds the result, and no other floating-point register and
no other condition has changed. -/
def Target.WrittenOnly (c c' : Cpu) : Target → Prop
  | .word fd value =>
    c'.readFprWord fd = value ∧ (∀ i, i ≠ fd → c'.fpr i = c.fpr i) ∧
      c'.fcr31 &&& kFcr31Condition = c.fcr31 &&& kFcr31Condition
  | .double fd value =>
    c'.readFprDouble fd = some value ∧
      (∀ i, i ≠ fd → (c.fpuFrMode = false → i ≠ fd + 1) → c'.fpr i = c.fpr i) ∧
      c'.fcr31 &&& kFcr31Condition = c.fcr31 &&& kFcr31Condition
  | .condition result =>
    c'.fpr = c.fpr ∧ (c'.fcr31 &&& kFcr31Condition ≠ 0 ↔ result = true)

/-- What a committed operation leaves behind when it raises nothing. -/
structure Committed (c c' : Cpu) (flags : U32) (target : Target) : Prop where
  causes : c'.fcr31 &&& kFcr31CauseMask = (flags &&& kFcr31FlagMask) <<< 10
  sticky : c'.fcr31 &&& kFcr31FlagMask = (c.fcr31 &&& kFcr31FlagMask) ||| (flags &&& kFcr31FlagMask)
  target : target.WrittenOnly c c'
  control : c'.fcr31 &&& ~~~(kFcr31CauseMask ||| kFcr31FlagMask ||| kFcr31Condition) =
    c.fcr31 &&& ~~~(kFcr31CauseMask ||| kFcr31FlagMask ||| kFcr31Condition)
  rest : c' = { c with fpr := c'.fpr, fcr31 := c'.fcr31 }

section Law

variable (c : Cpu) (flags : U32)

theorem pending_withCauses (fcr31 : U32) :
    PendingFpe (withCauses fcr31 flags) ↔
      (flags &&& kFcr31FlagMask) &&& ((withCauses fcr31 flags &&& kFcr31EnableMask) >>> 5) ≠ 0 := by
  rw [PendingFpe, withCauses_unimplemented, withCauses_causes, withCauses_enables]
  simp

theorem finishFpuOperation_eq (k : Cpu → Cpu) :
    c.finishFpuOperation flags k =
      if PendingFpe (withCauses c.fcr31 flags) then
        { c with fcr31 := withCauses c.fcr31 flags }.raise ExcCode.FPE
      else
        k { c with fcr31 := withFlags c.fcr31 flags } := by
  have pending := pending_withCauses flags c.fcr31
  rw [withFlags, withCauses] at *
  rw [finishFpuOperation]
  dsimp only
  by_cases enabled : PendingFpe ((c.fcr31 &&& ~~~kFcr31CauseMask) |||
      ((flags &&& kFcr31FlagMask) <<< 10))
  · rw [if_pos (pending.mp enabled), if_pos enabled]
  · rw [if_neg (mt pending.mpr enabled), if_neg enabled]

theorem raise_fcr31 (code : U32) : (c.raise code).fcr31 = c.fcr31 ∧ (c.raise code).fpr = c.fpr := by
  rw [raise, raiseException_with]
  exact ⟨rfl, rfl⟩

theorem raise_exceptionCount (code : U32) :
    (c.raise code).exceptionCount = c.exceptionCount + 1 :=
  raiseException_exceptionCount ..

theorem fpr_writeFprWord (fd i : BitVec 5) (value : U32) :
    (c.writeFprWord fd value).fpr i =
      if i = fd then (c.fpr fd &&& 0xFFFFFFFF00000000) ||| value.setWidth 64 else c.fpr i := by
  simp only [writeFprWord, Function.update_apply]

theorem read_writeFprWord (fd : BitVec 5) (value : U32) :
    (c.writeFprWord fd value).readFprWord fd = value := by
  rw [readFprWord, fpr_writeFprWord, if_pos rfl]
  ext i hi
  interval_cases i <;> simp

theorem read_writeFprWord_other {fd i : BitVec 5} (value : U32) (other : i ≠ fd) :
    (c.writeFprWord fd value).readFprWord i = c.readFprWord i := by
  rw [readFprWord, fpr_writeFprWord, if_neg other, readFprWord]

theorem next_register (fd : BitVec 5) : fd + 1 ≠ fd := by
  simp

theorem setFprDouble_fpr (fd : BitVec 5) (value : U64) :
    c.setFprDouble fd value = { c with fpr := (c.setFprDouble fd value).fpr } := by
  rw [setFprDouble, writeFprDouble]
  split_ifs <;> rfl

theorem setCondition_and {mask : U32} (apart : kFcr31Condition &&& mask = 0) (result : Bool) :
    (c.setCondition result).fcr31 &&& mask = c.fcr31 &&& mask := by
  cases result with
  | true => exact or_and_of_disjoint _ apart
  | false => exact andNot_and_of_disjoint _ apart

theorem setCondition_condition (result : Bool) :
    (c.setCondition result).fcr31 &&& kFcr31Condition ≠ 0 ↔ result = true := by
  cases result with
  | true =>
    have kept : (c.fcr31 ||| kFcr31Condition) &&& kFcr31Condition = kFcr31Condition := by
      ext i hi
      rw [BitVec.getElem_and, BitVec.getElem_or]
      cases kFcr31Condition[i] <;> simp
    have same : (c.setCondition true).fcr31 = c.fcr31 ||| kFcr31Condition := rfl
    rw [same, kept]
    exact iff_of_true (by decide) rfl
  | false =>
    have cleared : (c.fcr31 &&& ~~~kFcr31Condition) &&& kFcr31Condition = 0 := by
      rw [BitVec.and_assoc]
      simp
    have same : (c.setCondition false).fcr31 = c.fcr31 &&& ~~~kFcr31Condition := rfl
    rw [same, cleared]
    exact iff_of_false (by simp) (by simp)

theorem read_setFprDouble {fd : BitVec 5} (value : U64) (fits : c.oddPair fd = false) :
    (c.setFprDouble fd value).readFprDouble fd = some value ∧
      ∀ i, i ≠ fd → (c.fpuFrMode = false → i ≠ fd + 1) →
        (c.setFprDouble fd value).fpr i = c.fpr i := by
  by_cases fr : c.fpuFrMode = true
  · have written : c.setFprDouble fd value = { c with fpr := Function.update c.fpr fd value } := by
      rw [setFprDouble, writeFprDouble, if_pos fr]
      rfl
    have mode : (c.setFprDouble fd value).fpuFrMode = true := by
      rw [written]
      exact fr
    constructor
    · rw [readFprDouble, if_pos mode, written]
      simp
    · intro i other _
      rw [written]
      exact Function.update_of_ne other value c.fpr
  · have even : ¬ fd &&& 1 ≠ 0 := by
      intro odd
      rw [(oddPair_iff c fd).mp ⟨by simpa using fr, odd⟩] at fits
      exact absurd fits (by decide)
    let low := c.writeFprWord fd (value.setWidth 32)
    have written : c.setFprDouble fd value =
        low.writeFprWord (fd + 1) ((value >>> 32).setWidth 32) := by
      rw [setFprDouble, writeFprDouble, if_neg fr, if_neg even]
      rfl
    have mode : ¬ (c.setFprDouble fd value).fpuFrMode = true := by
      rw [written]
      exact fr
    constructor
    · rw [readFprDouble, if_neg mode, if_neg even, written,
        read_writeFprWord_other _ _ (next_register fd).symm, read_writeFprWord, read_writeFprWord,
        BitVec.or_comm]
      exact congrArg some (join64_halves value)
    · intro i other pair
      rw [written, fpr_writeFprWord, if_neg (pair (by simpa using fr)), fpr_writeFprWord,
        if_neg other]

theorem not_raisesFpe {c c' : Cpu} (same : c'.exceptionCount = c.exceptionCount) :
    ¬ RaisesFpe c c' := by
  intro raised
  have count : c'.exceptionCount = c.exceptionCount + 1 := by
    rw [raised]
    exact raise_exceptionCount ..
  rw [same] at count
  exact absurd count.symm (by simp)

end Law

section Aims

variable (fp : HostFpu) (c : Cpu) {fd : BitVec 5}

theorem singleOutcome_aims (r : U32 × U32) : (c.singleOutcome fd r).Aims c fd := by
  rw [singleOutcome]
  cases roundResult single c r.1 r.2 with
  | none => trivial
  | some result => rfl

theorem doubleOutcome_aims (r : U64 × U32) : (c.doubleOutcome fd r).Aims c fd := by
  rw [doubleOutcome]
  cases roundResult double c r.1 r.2 with
  | none => trivial
  | some result =>
    dsimp only
    by_cases odd : c.oddPair fd = true
    · rw [if_pos odd]
      trivial
    · rw [if_neg odd]
      exact ⟨rfl, by simpa using odd⟩

theorem fromDouble_aims (fs : BitVec 5) {outcome : U64 → Outcome}
    (aims : ∀ raw, (outcome raw).Aims c fd) : (c.fromDouble fs outcome).Aims c fd := by
  rw [fromDouble]
  cases c.readFprDouble fs with
  | none => trivial
  | some raw => exact aims raw

theorem fromOperand_aims (issue : InputIssue) {invalid none : Outcome}
    (h₁ : invalid.Aims c fd) (h₂ : none.Aims c fd) :
    (fromOperand issue invalid none).Aims c fd := by
  cases issue with
  | Unimplemented => trivial
  | Invalid => exact h₁
  | None => exact h₂

theorem convertIntegerOutcome_aims {w : ℕ} (F : FloatFormat w) (function : ℕ) (raw : BitVec w) :
    (c.convertIntegerOutcome F function raw fd).Aims c fd := by
  simp only [convertIntegerOutcome]
  by_cases unimplemented : classifyComputationalOperand F raw = .Unimplemented
  · rw [if_pos unimplemented]
    trivial
  · rw [if_neg unimplemented]
    by_cases toWord : (0x0C ≤ function ∧ function ≤ 0x0F) ∨ function = 0x24
    · rw [if_pos toWord]
      rfl
    · rw [if_neg toWord]
      by_cases odd : c.oddPair fd = true
      · rw [if_pos odd]
        trivial
      · rw [if_neg odd]
        exact ⟨rfl, by simpa using odd⟩

theorem arithmeticSingleOutcome_aims (function : ℕ) (fs ft : BitVec 5) :
    (c.arithmeticSingleOutcome fp function fs ft fd).Aims c fd := by
  simp only [arithmeticSingleOutcome]
  cases arithmeticIssue single function (c.readFprWord fs) (c.readFprWord ft) with
  | Unimplemented => trivial
  | Invalid => exact singleOutcome_aims ..
  | None =>
    dsimp only
    split_ifs
    · rfl
    · rfl
    · exact singleOutcome_aims ..

theorem arithmeticDoubleOutcome_aims (function : ℕ) (fs ft : BitVec 5) :
    (c.arithmeticDoubleOutcome fp function fs ft fd).Aims c fd := by
  rw [arithmeticDoubleOutcome]
  cases c.doubleOperands function fs ft with
  | none => trivial
  | some operands =>
    dsimp only
    cases arithmeticIssue double function operands.1 operands.2 with
    | Unimplemented => trivial
    | Invalid => exact doubleOutcome_aims ..
    | None =>
      dsimp only
      split_ifs
      · exact doubleOutcome_aims ..
      · exact doubleOutcome_aims ..
      · exact doubleOutcome_aims ..

theorem compareDoubleOutcome_aims (conditionCode : ℕ) (fs ft : BitVec 5) :
    (c.compareDoubleOutcome conditionCode fs ft).Aims c fd := by
  rw [compareDoubleOutcome]
  cases c.readFprDouble fs with
  | none => trivial
  | some fsRaw =>
    cases c.readFprDouble ft with
    | none => trivial
    | some ftRaw => trivial

theorem integerConversionOutcome_aims (format : Fmt) (function : ℕ) (fs : BitVec 5) :
    (c.integerConversionOutcome format function fs fd).Aims c fd := by
  cases format with
  | Single => exact convertIntegerOutcome_aims ..
  | Double => exact fromDouble_aims c fs fun raw => convertIntegerOutcome_aims ..
  | Word => trivial
  | Long => trivial

theorem convertSingleOutcome_aims (format : Fmt) (fs : BitVec 5) :
    (c.convertSingleOutcome fp format fs fd).Aims c fd := by
  cases format with
  | Single => trivial
  | Word => exact singleOutcome_aims ..
  | Long => exact fromDouble_aims c fs fun raw => singleOutcome_aims ..
  | Double =>
    exact fromDouble_aims c fs fun raw =>
      fromOperand_aims c _ (singleOutcome_aims ..) (singleOutcome_aims ..)

theorem convertDoubleOutcome_aims (format : Fmt) (fs : BitVec 5) :
    (c.convertDoubleOutcome fp format fs fd).Aims c fd := by
  rw [convertDoubleOutcome.eq_def]
  by_cases odd : c.oddPair fd = true
  · rw [if_pos odd]
    trivial
  · rw [if_neg odd]
    cases format with
    | Double => trivial
    | Word => exact doubleOutcome_aims ..
    | Long => exact fromDouble_aims c fs fun raw => doubleOutcome_aims ..
    | Single => exact fromOperand_aims c _ (doubleOutcome_aims ..) (doubleOutcome_aims ..)

theorem operation_aims (format : Fmt) (insn : U32) :
    (c.operation fp format insn).Aims c (sa insn) := by
  simp only [operation]
  split_ifs
  · exact arithmeticSingleOutcome_aims ..
  · exact arithmeticDoubleOutcome_aims ..
  · trivial
  · exact compareDoubleOutcome_aims ..
  · exact integerConversionOutcome_aims ..
  · exact convertSingleOutcome_aims ..
  · exact convertDoubleOutcome_aims ..
  · trivial

end Aims

section Law

variable (fp : HostFpu) (c : Cpu)

theorem committed_write {fd : BitVec 5} (flags : U32) {target : Target} (aims : target.Aims c fd) :
    Committed c (target.write { c with fcr31 := withFlags c.fcr31 flags }) flags target := by
  cases target with
  | word t value =>
    refine ⟨withFlags_causes .., withFlags_sticky .., ⟨?_, ?_, withFlags_condition ..⟩,
      withFlags_control .., rfl⟩
    · exact read_writeFprWord ..
    · intro i other
      exact (fpr_writeFprWord ..).trans (if_neg other)
  | double t value =>
    obtain ⟨rfl, fits⟩ := aims
    let d : Cpu := { c with fcr31 := withFlags c.fcr31 flags }
    have rest : d.setFprDouble t value = { d with fpr := (d.setFprDouble t value).fpr } :=
      setFprDouble_fpr d t value
    have fcr31 : (d.setFprDouble t value).fcr31 = withFlags c.fcr31 flags := by
      rw [rest]
    obtain ⟨reads, others⟩ := read_setFprDouble d value fits
    refine ⟨?_, ?_, ⟨reads, others, ?_⟩, ?_, ?_⟩
    · exact (congrArg (· &&& kFcr31CauseMask) fcr31).trans (withFlags_causes ..)
    · exact (congrArg (· &&& kFcr31FlagMask) fcr31).trans (withFlags_sticky ..)
    · exact (congrArg (· &&& kFcr31Condition) fcr31).trans (withFlags_condition ..)
    · exact (congrArg (· &&& _) fcr31).trans (withFlags_control ..)
    · refine rest.trans ?_
      change _ = { c with
        fpr := (d.setFprDouble t value).fpr
        fcr31 := (d.setFprDouble t value).fcr31 }
      rw [fcr31]
  | condition result =>
    let d : Cpu := { c with fcr31 := withFlags c.fcr31 flags }
    refine ⟨?_, ?_, ⟨rfl, setCondition_condition d result⟩, ?_, rfl⟩
    · exact (setCondition_and d (by decide) result).trans (withFlags_causes ..)
    · exact (setCondition_and d (by decide) result).trans (withFlags_sticky ..)
    · exact (setCondition_and d (by decide) result).trans (withFlags_control ..)

theorem write_exceptionCount (target : Target) :
    (target.write c).exceptionCount = c.exceptionCount := by
  cases target with
  | word fd value => rfl
  | condition result => rfl
  | double fd value =>
    rw [Target.write, setFprDouble_fpr]

theorem write_decisive (target : Target) :
    (target.write c).fcr31 &&& decisive = c.fcr31 &&& decisive := by
  cases target with
  | word fd value => rfl
  | condition result => exact setCondition_and c (by decide) result
  | double fd value => rw [Target.write, setFprDouble_fpr]

theorem commit_law {fd : BitVec 5} {o : Outcome} (aims : o.Aims c fd) :
    (RaisesFpe c (o.commit c) ↔ PendingFpe (o.commit c).fcr31) ∧
      (RaisesFpe c (o.commit c) → (o.commit c).fpr = c.fpr ∧
        (o.commit c).fcr31 &&& ~~~kFcr31CauseMask = c.fcr31 &&& ~~~kFcr31CauseMask) ∧
      (¬ RaisesFpe c (o.commit c) → (o.commit c).exceptionCount = c.exceptionCount ∧
        ∃ flags target, o = .result flags target ∧ Committed c (o.commit c) flags target) := by
  cases o with
  | unimplemented =>
    let f := (c.fcr31 &&& ~~~kFcr31CauseMask) ||| kFcr31CauseUnimplemented
    have fcr31 : (Outcome.commit c .unimplemented).fcr31 = f := (raise_fcr31 ..).1
    have raised : RaisesFpe c (Outcome.commit c .unimplemented) := by
      rw [RaisesFpe, fcr31]
      rfl
    refine ⟨iff_of_true raised (Or.inl ?_), fun _ => ⟨(raise_fcr31 ..).2, ?_⟩,
      fun quiet => absurd raised quiet⟩
    · rw [fcr31]
      exact (unimplemented_fields c.fcr31).1
    · rw [fcr31]
      exact (unimplemented_fields c.fcr31).2
  | result flags target =>
    have committed := finishFpuOperation_eq c flags (target.write ·)
    change Outcome.commit c (.result flags target) = _ at committed
    by_cases pending : PendingFpe (withCauses c.fcr31 flags)
    · rw [if_pos pending] at committed
      have fcr31 : (Outcome.commit c (.result flags target)).fcr31 = withCauses c.fcr31 flags := by
        rw [committed, (raise_fcr31 ..).1]
      have raised : RaisesFpe c (Outcome.commit c (.result flags target)) := by
        rw [RaisesFpe, fcr31, committed]
      refine ⟨iff_of_true raised (by rwa [fcr31]), fun _ => ⟨?_, ?_⟩,
        fun quiet => absurd raised quiet⟩
      · rw [committed, (raise_fcr31 ..).2]
      · rw [fcr31, withCauses_rest]
    · rw [if_neg pending] at committed
      have count : (Outcome.commit c (.result flags target)).exceptionCount = c.exceptionCount := by
        rw [committed, write_exceptionCount]
      have quiet := not_raisesFpe count
      refine ⟨iff_of_false quiet ?_, fun raised => absurd raised quiet,
        fun _ => ⟨count, flags, target, rfl, ?_⟩⟩
      · rwa [← pending_decisive, committed, write_decisive, withFlags_decisive, pending_decisive]
      · rw [committed]
        exact committed_write c flags aims

/-- For any host arithmetic: an FPE is raised exactly when Cause.E or an
enabled cause is left in FCR31, it changes no register, no sticky flag and no
condition, and without it the causes are the flags of the operation, which join
the sticky ones, and only the destination is written. -/
theorem fpu_exception_law (format : Fmt) (insn : U32) (usable : c.coprocessorUsable 1 = true)
    (formatted : Cop1Rs.ofCode (rs insn).toNat = some (.format format))
    (other : ¬ IsMove format insn) :
    let c' := execCop1 fp c insn
    (RaisesFpe c c' ↔ PendingFpe c'.fcr31) ∧
      (RaisesFpe c c' → c'.fpr = c.fpr ∧
        c'.fcr31 &&& ~~~kFcr31CauseMask = c.fcr31 &&& ~~~kFcr31CauseMask) ∧
      (¬ RaisesFpe c c' → c'.exceptionCount = c.exceptionCount ∧
        ∃ flags target, c.operation fp format insn = .result flags target ∧
          target.Aims c (sa insn) ∧ Committed c c' flags target) := by
  intro c'
  have committed : c' = (c.operation fp format insn).commit c := by
    rw [← execCop1Format_commits fp c other]
    simp only [c', execCop1, usable, formatted, Bool.not_true, Bool.false_eq_true, if_false]
  have aims := operation_aims fp c format insn
  obtain ⟨iff, raises, quiet⟩ := commit_law c aims
  rw [← committed] at iff raises quiet
  refine ⟨iff, raises, fun nothing => ?_⟩
  obtain ⟨count, flags, target, result, done⟩ := quiet nothing
  rw [result] at aims
  exact ⟨count, flags, target, result, aims, done⟩

/-- DIV.S of one by zero with the division trap enabled. -/
theorem fpu_exception_law_division :
    let fp : HostFpu := { (default : HostFpu) with
      arith32 := fun _ _ _ _ => (0x7F800000, { divByZero := true }) }
    let c : Cpu := {
      cop0 := Function.update (fun _ => 0) Cop0Reg.Status (1#32 <<< 29)
      fpr := Function.update (fun _ => 0) 1 0x3F800000
      fcr31 := 1#32 <<< 10 }
    RaisesFpe c (execCop1 fp c 0x46020803) ∧ (execCop1 fp c 0x46020803).fpr = c.fpr := by
  intro fp c
  obtain ⟨iff, raises, -⟩ := fpu_exception_law fp c .Single 0x46020803 (by decide) (by decide)
    (fun move => absurd move.1 (by decide))
  have raised := iff.mpr (by decide +kernel)
  exact ⟨raised, (raises raised).1⟩

end Law

end N64.Cpu
