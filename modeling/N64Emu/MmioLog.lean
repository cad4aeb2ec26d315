import N64Emu.DebugTools
import N64Emu.LowMasks

/-!
# The log of unknown accesses

One record a physical address and direction, which counts the accesses and
keeps the last value, beside the order in which the records were made.
-/

set_option autoImplicit false

namespace N64.DebugState

open Words

structure UnknownAccess where
  paddr : U32
  isWrite : Bool
  value : U32

def UnknownAccess.key (a : UnknownAccess) : U32 := mmioKey a.paddr a.isWrite

def logAccess (a : UnknownAccess) (d : DebugState) : DebugState :=
  d.logUnknownMmio a.paddr a.isWrite a.value

def summary (as : List UnknownAccess) (key : U32) : Option MmioHit :=
  ((as.filter fun a => a.key = key).getLast?).map fun a =>
    { paddr := phys29 a.paddr
      isWrite := a.isWrite
      value := a.value
      count := BitVec.ofNat 64 (as.countP fun a => a.key = key) }

section Keys

theorem phys29_lt (a : U32) : (phys29 a).toNat < 2 ^ 29 := by
  change (Bus.physical a).toNat < _
  rw [Bus.physical_toNat]
  exact Nat.mod_lt _ (by decide)

theorem mmioKey_toNat (paddr : U32) (isWrite : Bool) :
    (mmioKey paddr isWrite).toNat = (phys29 paddr).toNat + if isWrite then 2 ^ 31 else 0 := by
  have low := phys29_lt paddr
  have top : (0x80000000#32).toNat = 2 ^ 31 := rfl
  cases isWrite with
  | false => exact congrArg BitVec.toNat BitVec.or_zero
  | true =>
    change (phys29 paddr ||| 0x80000000#32).toNat = (phys29 paddr).toNat + 2 ^ 31
    have aligned : (0x80000000#32).toNat % 2 ^ 31 = 0 := rfl
    rw [BitVec.or_comm, LowMasks.toNat_or_low aligned (by omega), top, Nat.add_comm]

theorem mmioKey_inj {p q : U32} {v w : Bool} (same : mmioKey p v = mmioKey q w) :
    phys29 p = phys29 q ∧ v = w := by
  have first := phys29_lt p
  have second := phys29_lt q
  have values := congrArg BitVec.toNat same
  rw [mmioKey_toNat, mmioKey_toNat] at values
  have direction : v = w := by
    cases v <;> cases w <;> simp at values ⊢ <;> omega
  subst direction
  exact ⟨BitVec.eq_of_toNat_eq (by omega), rfl⟩

end Keys

/-- The log holds the summary of the accesses. -/
structure Summarises (as : List UnknownAccess) (d : DebugState) : Prop where
  hits : ∀ key, d.unknownMmio.lookup key = summary as key
  order : d.unknownMmioOrder = (as.map (·.key)).eraseDups
  count : d.unknownMmioCount = d.unknownMmioOrder.length

section Steps

variable {as : List UnknownAccess} {d : DebugState} {a : UnknownAccess}

theorem summary_none {key : U32} (fresh : summary as key = none) : key ∉ as.map (·.key) := by
  intro mem
  obtain ⟨a, member, rfl⟩ := List.mem_map.mp mem
  have found : as.filter (fun b => b.key = a.key) ≠ [] :=
    List.ne_nil_of_mem (List.mem_filter.mpr ⟨member, decide_eq_true rfl⟩)
  rw [summary, Option.map_eq_none_iff, List.getLast?_eq_none_iff] at fresh
  exact found fresh

theorem summary_concat_other {key : U32} (other : a.key ≠ key) :
    summary (as ++ [a]) key = summary as key := by
  have skip : decide (a.key = key) = false := decide_eq_false other
  simp [summary, List.filter_append, List.countP_append, skip]

theorem summary_concat_self : summary (as ++ [a]) a.key = some
    { paddr := phys29 a.paddr, isWrite := a.isWrite, value := a.value
      count := BitVec.ofNat 64 (as.countP (fun b => b.key = a.key)) + 1 } := by
  simp [summary, List.filter_append, List.countP_append, BitVec.ofNat_add]

/-- The record of an access already met is the summary of an equal key. -/
theorem summary_record {h : MmioHit} (met : summary as a.key = some h) :
    h.paddr = phys29 a.paddr ∧ h.isWrite = a.isWrite ∧
      h.count = BitVec.ofNat 64 (as.countP fun b => b.key = a.key) := by
  obtain ⟨b, last, rfl⟩ := Option.map_eq_some_iff.mp met
  have same := (List.mem_filter.mp (List.mem_of_getLast? last)).2
  obtain ⟨address, direction⟩ := mmioKey_inj (of_decide_eq_true same)
  exact ⟨address, direction, rfl⟩

theorem eraseDups_concat (keys : List U32) (key : U32) :
    (keys ++ [key]).eraseDups =
      if key ∈ keys then keys.eraseDups else keys.eraseDups ++ [key] := by
  rw [List.eraseDups_append]
  split_ifs with met
  · simp [List.removeAll, met]
  · simp [List.removeAll, met, List.eraseDups_cons]

variable (d) in
theorem logUnknownMmio_new {key : U32} {paddr : U32} {isWrite : Bool} (value : U32)
    (named : mmioKey paddr isWrite = key) (fresh : d.unknownMmio.lookup key = none) :
    d.logUnknownMmio paddr isWrite value =
      { d with
          unknownMmio := d.unknownMmio.insert key
            { paddr := phys29 paddr, isWrite := isWrite, value := value, count := 1 }
          unknownMmioOrder := d.unknownMmioOrder ++ [key] } := by
  subst named
  simp only [logUnknownMmio, fresh]

variable (d) in
theorem logUnknownMmio_known {key : U32} {paddr : U32} {isWrite : Bool} {h : MmioHit} (value : U32)
    (named : mmioKey paddr isWrite = key) (met : d.unknownMmio.lookup key = some h) :
    d.logUnknownMmio paddr isWrite value =
      { d with unknownMmio :=
          d.unknownMmio.insert key ({ h with count := h.count + 1, value := value }) } := by
  subst named
  simp only [logUnknownMmio, met]

theorem Summarises.log (h : Summarises as d) : Summarises (as ++ [a]) (d.logAccess a) := by
  obtain ⟨hits, order, count⟩ := h
  have found := hits a.key
  have keys : (as ++ [a]).map (·.key) = as.map (·.key) ++ [a.key] := List.map_append
  cases record : d.unknownMmio.lookup a.key with
  | none =>
    rw [record] at found
    have fresh := summary_none found.symm
    have absent : a.key ∉ d.unknownMmio := AList.lookup_eq_none.mp record
    have none_yet : as.countP (fun b => b.key = a.key) = 0 := by
      refine List.countP_eq_zero.mpr fun b mem same => fresh ?_
      exact List.mem_map.mpr ⟨b, mem, of_decide_eq_true same⟩
    have named : mmioKey a.paddr a.isWrite = a.key := rfl
    rw [logAccess, logUnknownMmio_new d a.value named record]
    constructor
    · intro key
      by_cases here : a.key = key
      · subst here
        rw [summary_concat_self, none_yet]
        exact AList.lookup_insert _
      · rw [summary_concat_other here, ← hits key]
        exact AList.lookup_insert_ne (Ne.symm here)
    · rw [keys, eraseDups_concat, if_neg fresh, ← order]
    · change (d.unknownMmio.insert a.key _).entries.length =
        (d.unknownMmioOrder ++ [a.key]).length
      rw [AList.entries_insert_of_notMem absent, List.length_cons, List.length_append, ← count]
      rfl
  | some h =>
    rw [record] at found
    obtain ⟨address, direction, counted⟩ := summary_record found.symm
    have met : a.key ∈ as.map (·.key) := by
      by_contra fresh
      have first : as.filter (fun b => b.key = a.key) = [] := by
        refine List.filter_eq_nil_iff.mpr fun b mem same => fresh ?_
        exact List.mem_map.mpr ⟨b, mem, of_decide_eq_true same⟩
      rw [summary, first] at found
      cases found
    have present : a.key ∈ d.unknownMmio := AList.lookup_isSome.mp (by rw [record]; rfl)
    have named : mmioKey a.paddr a.isWrite = a.key := rfl
    rw [logAccess, logUnknownMmio_known d a.value named record]
    constructor
    · intro key
      by_cases here : a.key = key
      · subst here
        rw [summary_concat_self, ← counted, ← address, ← direction]
        exact AList.lookup_insert _
      · rw [summary_concat_other here, ← hits key]
        exact AList.lookup_insert_ne (Ne.symm here)
    · rw [keys, eraseDups_concat, if_pos met, ← order]
    · have size :
          (d.unknownMmio.insert a.key { h with count := h.count + 1, value := a.value }).keys =
            a.key :: d.unknownMmio.keys.erase a.key := AList.keys_insert _
      have same := congrArg List.length size
      rw [List.length_cons, List.length_erase_of_mem present] at same
      have some_ : 0 < d.unknownMmio.keys.length := List.length_pos_of_mem present
      simp only [AList.keys, List.keys, List.length_map] at same some_
      change (d.unknownMmio.insert a.key _).entries.length = d.unknownMmioOrder.length
      rw [same, ← count]
      unfold unknownMmioCount
      omega

end Steps

/-- The log has one record for each address and direction, in the order they
first came, with the number of accesses and the value of the last. -/
theorem unknown_mmio_summarised (as : List UnknownAccess) (d : DebugState) :
    let e := Runs.run logAccess as d.reset
    (∀ key, e.unknownMmio.lookup key = summary as key) ∧
      e.unknownMmioOrder = (as.map (·.key)).eraseDups ∧
      e.unknownMmioCount = e.unknownMmioOrder.length := by
  intro e
  have start : Summarises [] d.reset := ⟨fun _ => rfl, rfl, rfl⟩
  have all : Summarises as e :=
    Runs.run_history (P := Summarises) start (fun _ _ h => h.log) as
  exact ⟨all.hits, all.order, all.count⟩

end N64.DebugState
