import N64Emu.StandingBlocks

/-!
# Runs with and without the block cache

The run without the cache is a number of steps. The run with it goes through
blocks that stand, and each of their words does what the step in its place
does. So both count alike and end in one state, for the programs that keep the
words of standing blocks what fetches return.
-/

set_option autoImplicit false

namespace N64

open Words BlockCache

namespace Machine

/-- The machine with its block cache switched off. -/
def uncached (m : Machine) : Machine := { m with enabled := false }

end Machine

namespace Cpu

/-- The machine after `n` steps. -/
def stepped (fp : HostFpu) (n : ℕ) (m : Machine) : Machine := (·.perform (step fp))^[n] m

section Plain

variable (fp : HostFpu) {m : Machine}

theorem run_halted (n : ℕ) (halted : m.sys.cpu.halted = true) : run fp n m = (0, m) := by
  rw [run]
  cases n with
  | zero => rfl
  | succ n => rw [runLoop, if_neg (by simp [halted])]

theorem perform_running (running : m.sys.cpu.halted = false) :
    (m.perform (step fp)).sys.cpu.halted = false := by
  obtain ⟨e, moved, retired⟩ := step_clocked (s := { m.sys with log := [] }) fp running
  exact retired.halted.trans (moved.halted.trans running)

theorem stepped_sys (n : ℕ) (m : Machine) : (stepped fp n m).sys = after fp m.sys n := by
  induction n with
  | zero => rfl
  | succ n ih =>
    rw [stepped, Function.iterate_succ_apply', after_succ, ← ih]
    rfl

theorem runLoop_uncached (n fuel taken : ℕ) (enough : n ≤ taken + fuel) (below : taken ≤ n)
    (off : m.enabled = false) (running : m.sys.cpu.halted = false) :
    runLoop fp n fuel taken m = (n, stepped fp (n - taken) m) := by
  induction fuel generalizing taken m with
  | zero =>
    rw [show taken = n by omega, Nat.sub_self]
    rfl
  | succ fuel ih =>
    rw [runLoop]
    by_cases more : taken < n
    · rw [if_pos (by simp [more, running])]
      have pass : runPass fp n taken m = (1, m.perform (step fp)) := by
        rw [runPass, if_neg (by simp [off])]
      rw [pass]
      dsimp only
      rw [ih (m := m.perform (step fp)) (taken + 1) (by omega) (by omega) off
        (perform_running fp running)]
      rw [show n - taken = n - (taken + 1) + 1 by omega]
      rfl
    · rw [if_neg (by simp [more]), show taken = n by omega, Nat.sub_self]
      rfl

end Plain

/-- After `k` steps of the plain run, with a cache that such a run may have left. -/
structure Follows (fp : HostFpu) (s : Sys) (n k : ℕ) (m : Machine) : Prop where
  sys : m.sys = after fp s k
  remembers : Remembers fp s n k m.cache
  running : m.sys.cpu.halted = false
  enabled : m.enabled = true

section Cached

variable {fp : HostFpu} {s : Sys} {n k : ℕ} {m : Machine} {b : BasicBlock}

theorem Follows.step (h : Follows fp s n k m) : Follows fp s n (k + 1) (m.perform (step fp)) := by
  refine ⟨?_, ?_, perform_running fp h.running, h.enabled⟩
  · rw [after_succ, ← h.sys]
    rfl
  · have next := h.remembers.step
    rw [noted, ← h.sys] at next
    exact next

theorem blockInsn_going (fp : HostFpu) (insn : U32) {t : Sys} (running : t.cpu.halted = false) :
    (blockInsn fp t insn).1 = true ↔
      (blockInsn fp t insn).2.cpu.exceptionCount = t.cpu.exceptionCount := by
  have still : (blockInsn fp t insn).2.cpu.halted = false := by
    obtain ⟨e, moved, retired⟩ := blockInsn_clocked fp t insn
    exact retired.halted.trans (moved.halted.trans running)
  by_cases taken : t.cpu.TakesInterrupt
  · rw [blockInsn_taken fp insn taken]
    have counted : (t.cpu.raise ExcCode.Int).retire.exceptionCount =
        t.cpu.exceptionCount + 1 := by simp [raise]
    show false = true ↔ (t.cpu.raise ExcCode.Int).retire.exceptionCount = t.cpu.exceptionCount
    rw [counted]
    simp
  · rw [blockInsn_executes fp insn taken] at still ⊢
    simp only [executeWord] at still ⊢
    rw [still]
    simp

theorem Cacheable.word {j y : ℕ} (cacheable : Cacheable fp s n) (built : Begins fp s n j)
    (begins : Begins fp s n k) (found : Found fp s j k b) (inside : y < b.insns.length)
    (within : k + y < n) (along : ∀ z ≤ y, AtWord fp s k b z) (h : Follows fp s n (k + y) m) :
    m.perform (Cpu.step fp) =
      m.commit (blockInsn fp { m.sys with log := [] } b.insns[y]).2 := by
  apply perform_word h.running
  rw [h.sys]
  exact cacheable.fetches built begins found inside within along

/-- Where the words of a block are executed, the run without the cache goes on
for as many steps. -/
theorem Cacheable.words {j : ℕ} (cacheable : Cacheable fp s n) (built : Begins fp s n j)
    (begins : Begins fp s n k) (found : Found fp s j k b) (fits : k + b.insns.length ≤ n)
    (rest : List U32) {y : ℕ} (here : b.insns.drop y = rest) (le : y ≤ b.insns.length)
    (along : ∀ z < y, AtWord fp s k b z)
    (quiet : (after fp s (k + y)).cpu.exceptionCount = (after fp s k).cpu.exceptionCount)
    (h : Follows fp s n (k + y) m) :
    ∃ i, (blockInsns fp rest (wordPc b y) m).1 = i ∧ y + i ≤ b.insns.length ∧
      Follows fp s n (k + (y + i)) (blockInsns fp rest (wordPc b y) m).2 ∧
      (∀ z < y + i, AtWord fp s k b z) ∧
      (y + i = b.insns.length ∨ ¬ AtWord fp s k b (y + i)) := by
  induction rest generalizing y m with
  | nil =>
    have ends : y = b.insns.length := le_antisymm le (List.drop_eq_nil_iff.mp here)
    exact ⟨0, rfl, le, h, along, Or.inl ends⟩
  | cons insn rest ih =>
    have inside : y < b.insns.length := by
      by_contra past
      rw [List.drop_eq_nil_iff.mpr (Nat.le_of_not_lt past)] at here
      cases here
    rw [List.drop_eq_getElem_cons inside, List.cons.injEq] at here
    obtain ⟨rfl, later⟩ := here
    rw [blockInsns]
    by_cases there : m.sys.cpu.pc = wordPc b y
    · rw [if_neg (by simpa using there)]
      have arrived : AtWord fp s k b y := by
        refine ⟨?_, quiet⟩
        rw [← h.sys, there]
      have whole : ∀ z ≤ y, AtWord fp s k b z := fun z le =>
        (Nat.lt_or_eq_of_le le).elim (along z) fun same => same ▸ arrived
      have word := cacheable.word built begins found inside (by omega) whole h
      have next := h.step
      have moved : (after fp s (k + y + 1)).cpu.exceptionCount =
          (blockInsn fp { m.sys with log := [] } b.insns[y]).2.cpu.exceptionCount := by
        rw [← next.sys, word]
        rfl
      have goes := blockInsn_going fp b.insns[y] (t := { m.sys with log := [] }) h.running
      have before : m.sys.cpu.exceptionCount = (after fp s k).cpu.exceptionCount := by
        rw [h.sys, quiet]
      dsimp only
      rw [← word]
      cases going : (blockInsn fp { m.sys with log := [] } b.insns[y]).1 with
      | true =>
        have same := goes.mp going
        obtain ⟨i, did, most, follows, passed, left⟩ := ih later inside
          (fun z below => whole z (Nat.lt_succ_iff.mp below)) (by
            rw [← Nat.add_assoc, moved, same, ← before]) next
        rw [if_pos rfl, ← wordPc_succ]
        refine ⟨i + 1, by rw [did], by omega, ?_, ?_, ?_⟩
        · rwa [show y + 1 + i = y + (i + 1) by omega] at follows
        · rwa [show y + 1 + i = y + (i + 1) by omega] at passed
        · rwa [show y + 1 + i = y + (i + 1) by omega] at left
      | false =>
        rw [if_neg Bool.false_ne_true]
        refine ⟨1, rfl, inside, next, fun z below => whole z (Nat.lt_succ_iff.mp below), Or.inr ?_⟩
        rintro ⟨-, same⟩
        rw [← Nat.add_assoc, moved, ← before] at same
        rw [goes.mpr same] at going
        cases going
    · rw [if_pos there]
      refine ⟨0, rfl, le, h, along, Or.inr fun at_ => there ?_⟩
      rw [h.sys]
      exact at_.1

/-- What a pass of the run leads to. -/
structure Passed (fp : HostFpu) (s : Sys) (n k : ℕ) (r : ℕ × Machine) : Prop where
  positive : 0 < r.1
  within : k + r.1 ≤ n
  begins : Begins fp s n (k + r.1)
  follows : Follows fp s n (k + r.1) r.2

theorem Follows.single (h : Follows fp s n k m) (more : k < n)
    (begins : Begins fp s n (k + 1)) : Passed fp s n k (1, m.perform (Cpu.step fp)) :=
  ⟨Nat.one_pos, more, begins, h.step⟩

theorem Follows.found {j : ℕ} (h : Follows fp s n k m) (cacheable : Cacheable fp s n)
    (more : k < n) (built : Begins fp s n j)
    (begins : Begins fp s n k) (found : Found fp s j k b) :
    Passed fp s n k
      (if !b.insns.isEmpty ∧ k + b.insns.length ≤ n then
        let (did, m) := executeBlock fp m b
        if did = 0 then (1, m.perform (Cpu.step fp)) else (did, m)
      else (1, m.perform (Cpu.step fp))) := by
  have nonempty : b.insns ≠ [] := by
    obtain ⟨-, -, p, translated, rfl⟩ := blockAt_eq found.built
    exact buildBlock_nonempty translated
  have words : 0 < b.insns.length := List.length_pos_iff.mpr nonempty
  by_cases fits : k + b.insns.length ≤ n
  · rw [if_pos ⟨by simpa using nonempty, fits⟩]
    have first : wordPc b 0 = b.startPc := BitVec.add_zero _
    obtain ⟨i, did, most, follows, along, left⟩ := cacheable.words built begins found fits b.insns
      (y := 0) (m := m) List.drop_zero (Nat.zero_le _)
      (fun z nothing => absurd nothing (Nat.not_lt_zero z)) rfl h
    rw [Nat.zero_add] at most follows along left
    rw [first] at did follows
    have arrived : AtWord fp s k b 0 := ⟨by rw [first]; exact found.start, rfl⟩
    have positive : i ≠ 0 := by
      rintro rfl
      exact left.elim (fun nothing => by omega) fun away => away arrived
    dsimp only
    rw [executeBlock, did, if_neg positive]
    exact ⟨Nat.pos_of_ne_zero positive, by omega,
      .block built begins found fits most along left, follows⟩
  · rw [if_neg (fun both => fits both.2)]
    exact h.single more (.long built begins found (by omega))

theorem Follows.pass (h : Follows fp s n k m) (cacheable : Cacheable fp s n) (more : k < n)
    (begins : Begins fp s n k) :
    Passed fp s n k (runPass fp n k m) := by
  have pc : m.sys.cpu.pc = (after fp s k).cpu.pc := by rw [h.sys]
  have slot : m.sys.cpu.branchPending = (after fp s k).cpu.branchPending := by rw [h.sys]
  rw [runPass]
  by_cases pending : m.sys.cpu.branchPending = true
  · rw [if_neg (by simp [pending])]
    refine h.single more (.step begins ?_)
    rw [blockAt, ← slot, if_pos pending]
  · rw [if_pos (by simp [h.enabled, pending]), findBlock]
    have settled : (after fp s k).cpu.branchPending = false := by
      rw [← slot]
      simpa using pending
    cases hit : m.cache.lookup m.sys.cpu.pc with
    | some b =>
      rw [pc] at hit
      obtain ⟨j, built, found⟩ := h.remembers.lookup hit settled
      exact h.found cacheable more built begins found
    | none =>
      rw [compile]
      cases place : m.sys.cpu.translateAddress m.sys.cpu.pc false with
      | error fault =>
        refine h.single more (.step begins ?_)
        rw [blockAt, if_neg (by rw [settled]; exact Bool.false_ne_true), ← h.sys, place]
      | ok p =>
        have built : blockAt (after fp s k) = some (buildBlock m.sys m.sys.cpu.pc p) := by
          rw [blockAt, if_neg (by rw [settled]; exact Bool.false_ne_true), ← h.sys, place]
        have aligned := cacheable.aligned k more begins _ built
        obtain ⟨found, remembers⟩ := h.remembers.insert begins built aligned
        have nonempty : (buildBlock m.sys m.sys.cpu.pc p).insns.isEmpty = false := by
          simpa using buildBlock_nonempty place
        dsimp only
        rw [nonempty, if_neg Bool.false_ne_true]
        rw [← pc] at remembers
        have held : Follows fp s n k
            { m with cache := m.cache.insert m.sys.cpu.pc (buildBlock m.sys m.sys.cpu.pc p) } :=
          ⟨h.sys, remembers, h.running, h.enabled⟩
        exact held.found cacheable more begins begins found

theorem Follows.loop (cacheable : Cacheable fp s n) (fuel : ℕ) (enough : n ≤ k + fuel)
    (below : k ≤ n) (h : Follows fp s n k m) (begins : Begins fp s n k) :
    (runLoop fp n fuel k m).1 = n ∧ (runLoop fp n fuel k m).2.sys = after fp s n := by
  induction fuel generalizing k m with
  | zero =>
    obtain rfl : k = n := by omega
    exact ⟨rfl, h.sys⟩
  | succ fuel ih =>
    rw [runLoop]
    by_cases more : k < n
    · rw [if_pos (by simp [more, h.running])]
      have pass := h.pass cacheable more begins
      have positive := pass.positive
      have left : n ≤ k + (runPass fp n k m).1 + fuel := by omega
      exact ih left pass.within pass.follows pass.begins
    · rw [if_neg (by simp [more])]
      obtain rfl : k = n := by omega
      exact ⟨rfl, h.sys⟩

end Cached

/-- What `run` with the block cache counts and leaves is what it does without. -/
def Transparent (fp : HostFpu) (n : ℕ) (m : Machine) : Prop :=
  (run fp n m).1 = (run fp n m.uncached).1 ∧
    (run fp n m).2.sys = (run fp n m.uncached).2.sys

/-- From an empty cache, a program that keeps its cached words transparent
runs as it does without the block cache. -/
theorem run_transparent (fp : HostFpu) (n : ℕ) (m : Machine) (consistent : m.cache.Consistent)
    (empty : m.cache.count = 0) (cacheable : Cacheable fp m.sys n) : Transparent fp n m := by
  cases halted : m.sys.cpu.halted with
  | true =>
    have still : m.uncached.sys.cpu.halted = true := halted
    rw [Transparent, run_halted fp n halted, run_halted fp n still]
    exact ⟨rfl, rfl⟩
  | false =>
    have plain : run fp n m.uncached = (n, stepped fp n m.uncached) :=
      runLoop_uncached fp n n 0 (Nat.le_add_left n 0) (Nat.zero_le n) rfl halted
    have same : (stepped fp n m.uncached).sys = after fp m.sys n := stepped_sys fp n m.uncached
    rw [Transparent, plain, same]
    cases enabled : m.enabled with
    | true =>
      have start : Follows fp m.sys n 0 m :=
        ⟨rfl, remembers_empty consistent empty, halted, enabled⟩
      exact Follows.loop cacheable n (Nat.le_add_left n 0) (Nat.zero_le n) start .start
    | false =>
      have off : run fp n m = (n, stepped fp n m) :=
        runLoop_uncached fp n n 0 (Nat.le_add_left n 0) (Nat.zero_le n) enabled halted
      rw [off]
      exact ⟨rfl, stepped_sys fp n m⟩

section Check

variable (fp : HostFpu) (s : Sys) (n : ℕ)

instance (mode : ℕ) (v : U32) : Decidable (Opens mode v) :=
  inferInstanceAs (Decidable (_ ∨ _ ∨ _))

/-- The conditions on the `x`-th word of the block of step `j` at step `k`. -/
def wordSteady (k j : ℕ) (b : BasicBlock) (x : ℕ) : Bool :=
  ((wordPlace (after fp s j) b x).all fun p =>
      Bus.read32Const (after fp s (k + 1)) p = Bus.read32Const (after fp s k) p ||
        (noted fp s k).any fun e => e.drops b) &&
    ((after fp s k).cpu.pc ≠ b.startPc ||
      Opens (after fp s k).cpu.mode ((wordPc b x).setWidth 32) &&
        (n ≤ k + x ||
          constWord (after fp s (k + x)) (wordPc b x) = constWord (after fp s k) (wordPc b x) &&
            (wordPlace (after fp s (k + x)) b x).all fun p => !Bus.isMmioRegion (Bus.physical p)))

/-- The conditions on the program, as far as they can be told step by step. -/
def steady : Bool :=
  (List.range n).all fun k =>
    ((blockAt (after fp s k)).all fun b => b.startPc &&& 3 = 0) &&
      (List.range (k + 1)).all fun j => (blockAt (after fp s j)).all fun b =>
        !decide (Standing fp s j k b) || (List.range b.insns.length).all (wordSteady fp s n k j b)

variable {fp s n}

theorem steady_word (h : steady fp s n = true) {j k x : ℕ} {b : BasicBlock} (within : k < n)
    (le : j ≤ k) (built : blockAt (after fp s j) = some b) (stands : Standing fp s j k b)
    (inside : x < b.insns.length) : wordSteady fp s n k j b x = true := by
  simp only [steady, List.all_eq_true, Bool.and_eq_true, List.mem_range] at h
  have block := (h k within).2 j (Nat.lt_succ_of_le le)
  rw [built, Option.all_some, decide_eq_true stands, Bool.not_true, Bool.false_or,
    List.all_eq_true] at block
  exact block x (List.mem_range.mpr inside)

theorem steady_found (h : steady fp s n = true) {j k x : ℕ} {b : BasicBlock} (within : k < n)
    (found : Found fp s j k b) (inside : x < b.insns.length) :
    Opens (after fp s k).cpu.mode ((wordPc b x).setWidth 32) ∧ (k + x < n →
      constWord (after fp s (k + x)) (wordPc b x) = constWord (after fp s k) (wordPc b x) ∧
      ∀ p ∈ wordPlace (after fp s (k + x)) b x, Bus.isMmioRegion (Bus.physical p) = false) := by
  have word := steady_word h within found.le found.built found.stands inside
  simp only [wordSteady, Bool.and_eq_true, Bool.or_eq_true, decide_eq_true_eq] at word
  obtain ⟨opens, later⟩ := word.2.resolve_left (not_not.mpr found.start)
  refine ⟨opens, fun more => ?_⟩
  obtain ⟨same, apart⟩ := later.resolve_left (Nat.not_le.mpr more)
  refine ⟨same, fun p place => ?_⟩
  rw [Option.mem_def.mp place, Option.all_some, Bool.not_eq_true'] at apart
  exact apart

theorem cacheable_of_steady (h : steady fp s n = true) : Cacheable fp s n where
  aligned := by
    intro k within _ b built
    simp only [steady, List.all_eq_true, Bool.and_eq_true, List.mem_range] at h
    have start := (h k within).1
    rw [Option.mem_def.mp built, Option.all_some] at start
    exact of_decide_eq_true start
  announced := by
    intro k within j le _ b built stands x inside p place changed
    have word := steady_word h within le built stands inside
    simp only [wordSteady, Bool.and_eq_true] at word
    have here := word.1
    rw [Option.mem_def.mp place, Option.all_some] at here
    simpa [changed] using here
  opened := fun k within j _ _ _ b found x inside => (steady_found h within found inside).1
  ahead := fun k within j _ _ _ b found x inside more _ _ =>
    ((steady_found h within found inside).2 more).1
  registers := by
    intro k within j _ _ _ b found x inside more _ _ p place mmio
    rw [((steady_found h within found inside).2 more).2 p place] at mmio
    cases mmio

end Check

/-- A machine with these words in a small RAM, about to execute the one at the
offset `off`. -/
def program (words : List (ℕ × U32)) (off : ℕ) : Machine :=
  { sys :=
      { cpu :=
          { pc := 0xFFFFFFFF80000000 + BitVec.ofNat 64 off
            gpr := fun i => if i = 1 then 0x0C else if i = 2 then 0xFFFFFFFF80000000 else 0 }
        bus.rdramSize := 64
        bus.rdram := fun i => match words.lookup (i / 4) with
          | some word => (word >>> ((3 - i % 4) * 8)).setWidth 8
          | none => 0 } }

/-- A jump from address 0 to code that stores SYSCALL over the jump and jumps
back. -/
def overwritesItself : Machine := program [(0, 0x08000008), (8, 0xAC410000), (9, 0x08000000)] 0

/-- The store makes the cache give up the block of the jump, and the SYSCALL
is executed in its place. -/
theorem run_transparent_overwritten : Transparent default 6 overwritesItself ∧
    (run default 6 overwritesItself).2.sys.cpu.cop0 Cop0Reg.Cause = 0x20 :=
  ⟨run_transparent default 6 overwritesItself consistent_fresh rfl
    (cacheable_of_steady (by decide +kernel)), by decide +kernel⟩

/-- At an address that is no word's, a step raises AdEL and the block its
SYSCALL. A block whose first word stores SYSCALL over its second executes the
BREAK that stood there. -/
theorem cached_runs_differ : ¬ Transparent default 1 (program [(1, 0x0C000000)] 1) ∧
    ¬ Transparent default 2 (program [(0, 0xAC410004), (1, 0x0000000D)] 0) := by
  constructor
  · intro same
    have cause := congrArg (fun s : Sys => s.cpu.cop0 Cop0Reg.Cause) same.2
    revert cause
    decide +kernel
  · intro same
    have cause := congrArg (fun s : Sys => s.cpu.cop0 Cop0Reg.Cause) same.2
    revert cause
    decide +kernel

end Cpu

end N64
