import N64Emu.Exceptions
import N64Emu.LowMasks

/-!
# The TLB as interval arithmetic

With legal page masks a translation is arithmetic on numbers: the segment of
an address, the interval of a pair of pages, the half of it, and the offset in
the page. TLBP looks for the same entry.
-/

set_option autoImplicit false

namespace N64

open Words LowMasks

/-- The mask of pages of `4096 * 4 ^ k` bytes. -/
def pageMaskOf (k : ℕ) : U32 := BitVec.ofNat 32 ((4 ^ k - 1) * 2 ^ 13)

def Cpu.LegalPages (c : Cpu) : Prop :=
  ∀ i, ∃ k, k ≤ 6 ∧ (c.tlb i).pageMask &&& TLB_PAGE_MASK = pageMaskOf k

namespace TlbEntry

def pageBytes (e : TlbEntry) : ℕ := ((e.pageMask &&& TLB_PAGE_MASK).toNat / 2 ^ 13 + 1) * 4096

def pairBase (e : TlbEntry) : ℕ := e.entryHi.toNat / (2 * e.pageBytes) * (2 * e.pageBytes)

/-- The entry covers the address and is global in both halves or of the address space. -/
def Maps (e : TlbEntry) (v asid : ℕ) : Prop :=
  (e.pairBase ≤ v ∧ v < e.pairBase + 2 * e.pageBytes) ∧
    (e.entryLo0.toNat % 2 = 1 ∧ e.entryLo1.toNat % 2 = 1 ∨ e.entryHi.toNat % 256 = asid)

instance (e : TlbEntry) (v asid : ℕ) : Decidable (e.Maps v asid) :=
  inferInstanceAs (Decidable ((_ ∧ _) ∧ (_ ∧ _ ∨ _)))

/-- What the half of the pair that `v` is in makes of it. -/
def verdict (e : TlbEntry) (v : ℕ) (isStore : Bool) : Except TranslationFault ℕ :=
  let lo := (if v < e.pairBase + e.pageBytes then e.entryLo0 else e.entryLo1).toNat
  let pfn := lo / 2 ^ 6 % 2 ^ 24
  if lo / 2 % 2 = 0 then .error .TlbInvalid
  else if isStore ∧ lo / 4 % 2 = 0 then .error .TlbModified
  else .ok ((pfn * 4096 / e.pageBytes * e.pageBytes + v % e.pageBytes) % 2 ^ 29)

end TlbEntry

inductive Segment where
  | kuseg | kseg0 | kseg1 | ksseg | kseg3
  deriving DecidableEq

def segmentOf (v : ℕ) : Segment :=
  if v < 0x80000000 then .kuseg
  else if v < 0xA0000000 then .kseg0
  else if v < 0xC0000000 then .kseg1
  else if v < 0xE0000000 then .ksseg
  else .kseg3

inductive Privilege where
  | kernel | supervisor | user
  deriving DecidableEq

/-- The mode of a Status register: in an exception it is the kernel's. -/
def privilegeOf (status : ℕ) : Privilege :=
  if status / 2 % 4 ≠ 0 then .kernel
  else match status / 8 % 4 with
    | 0 => .kernel
    | 1 => .supervisor
    | _ => .user

def Privilege.mayUse : Privilege → Segment → Bool
  | .kernel, _ => true
  | .supervisor, .kuseg => true
  | .supervisor, .ksseg => true
  | .supervisor, _ => false
  | .user, .kuseg => true
  | .user, _ => false

def Segment.mapped : Segment → Bool
  | .kseg0 => false
  | .kseg1 => false
  | _ => true

namespace Cpu

def privilege (c : Cpu) : Privilege := privilegeOf c.status.toNat

def asid (c : Cpu) : ℕ := (c.cop0 Cop0Reg.EntryHi).toNat % 256

def mapsAt (c : Cpu) (v : ℕ) : Option ℕ := c.tlbEntries.findIdx? fun e => e.Maps v c.asid

def translateNumber (c : Cpu) (v : ℕ) (isStore : Bool) : Except TranslationFault ℕ :=
  if !c.privilege.mayUse (segmentOf v) then .error .AddressError
  else if !(segmentOf v).mapped then .ok (v % 2 ^ 29)
  else
    match c.mapsAt v with
    | some i => (c.tlb (BitVec.ofNat 5 i)).verdict v isStore
    | none => .error .TlbMiss

end Cpu

namespace TlbEntry

theorem half_even {S q v : ℕ} (positive : 0 < S) (above : q * (2 * S) ≤ v)
    (below : v < q * (2 * S) + S) : v / S = 2 * q := by
  rw [Nat.div_eq_iff positive]
  have twice : 2 * q * S = q * (2 * S) := by ring
  omega

theorem half_odd {S q v : ℕ} (positive : 0 < S) (above : q * (2 * S) + S ≤ v)
    (below : v < q * (2 * S) + 2 * S) : v / S = 2 * q + 1 := by
  rw [Nat.div_eq_iff positive]
  have twice : (2 * q + 1) * S = q * (2 * S) + S := by ring
  omega

theorem frame_eq (lo : U32) : (((lo &&& 0x3FFFFFC0).setWidth 64 <<< 6 : U64)).toNat =
    lo.toNat / 2 ^ 6 % 2 ^ 24 * 4096 := by
  have mask : (0x3FFFFFC0 : U32) = low 32 30 &&& ~~~low 32 6 := rfl
  rw [mask, BitVec.toNat_shiftLeft, BitVec.toNat_setWidth, toNat_and_field lo (by omega),
    Nat.shiftLeft_eq]
  omega

section Pages

variable {e : TlbEntry} {k : ℕ} (small : k ≤ 6)
  (legal : e.pageMask &&& TLB_PAGE_MASK = pageMaskOf k)
include small legal

theorem pairMask_eq : e.pairMask = low 32 (13 + 2 * k) := by
  rw [pairMask, legal]
  interval_cases k <;> rfl

theorem pageBytes_eq : e.pageBytes = 2 ^ (12 + 2 * k) := by
  rw [pageBytes, legal]
  interval_cases k <;> rfl

theorem pageSize_eq : e.pageSize = BitVec.ofNat 32 (2 ^ (12 + 2 * k)) := by
  rw [pageSize, pairMask_eq small legal]
  interval_cases k <;> rfl

theorem pageOffset_eq : e.pageSize - 1 = low 32 (12 + 2 * k) := by
  rw [pageSize_eq small legal]
  interval_cases k <;> rfl

theorem pair_eq : 2 * e.pageBytes = 2 ^ (13 + 2 * k) := by
  rw [pageBytes_eq small legal]
  interval_cases k <;> rfl

theorem interval_iff (v : ℕ) : e.pairBase ≤ v ∧ v < e.pairBase + 2 * e.pageBytes ↔
    v / 2 ^ (13 + 2 * k) = e.entryHi.toNat / 2 ^ (13 + 2 * k) := by
  have positive : 0 < 2 ^ (13 + 2 * k) := Nat.two_pow_pos _
  rw [pairBase, pair_eq small legal, Nat.div_eq_iff positive]
  omega

theorem covers_iff (v : U32) : v &&& ~~~e.pairMask = e.entryHi &&& ~~~e.pairMask ↔
    e.pairBase ≤ v.toNat ∧ v.toNat < e.pairBase + 2 * e.pageBytes := by
  rw [pairMask_eq small legal, andNot_low_eq_iff, interval_iff small legal]

theorem maps_pair {v w : ℕ} (pair : v / 2 ^ 13 = w / 2 ^ 13) (asid : ℕ) :
    e.Maps v asid ↔ e.Maps w asid := by
  have quotient : v / 2 ^ (13 + 2 * k) = w / 2 ^ (13 + 2 * k) := by
    rw [pow_add, ← Nat.div_div_eq_div_mul, ← Nat.div_div_eq_div_mul, pair]
  rw [Maps, Maps, interval_iff small legal, interval_iff small legal, quotient]

theorem lo_eq {v : U32} (above : e.pairBase ≤ v.toNat)
    (below : v.toNat < e.pairBase + 2 * e.pageBytes) :
    e.lo v = if v.toNat < e.pairBase + e.pageBytes then e.entryLo0 else e.entryLo1 := by
  have inside : 12 + 2 * k < 32 := by omega
  have bytes := pageBytes_eq small legal
  have odd : v &&& e.pageSize ≠ 0 ↔ v.toNat / e.pageBytes % 2 = 1 := by
    rw [pageSize_eq small legal, bit_ne_zero_iff v inside, bytes]
  have positive : 0 < e.pageBytes := bytes ▸ Nat.two_pow_pos _
  rw [lo]
  by_cases first : v.toNat < e.pairBase + e.pageBytes
  · rw [if_pos first, if_neg]
    rw [odd, half_even positive above first]
    omega
  · rw [if_neg first, if_pos]
    rw [odd, half_odd positive (Nat.le_of_not_lt first) below]
    omega

theorem paddr_eq (v : U32) : (e.paddr v).toNat =
    ((e.lo v).toNat / 2 ^ 6 % 2 ^ 24 * 4096 / e.pageBytes * e.pageBytes +
      v.toNat % e.pageBytes) % 2 ^ 29 := by
  have offset : (v &&& (e.pageSize - 1)).toNat = v.toNat % e.pageBytes := by
    rw [pageOffset_eq small legal, toNat_and_low v (by omega), pageBytes_eq small legal]
  have base : (((e.lo v &&& 0x3FFFFFC0).setWidth 64 <<< 6) &&&
      ~~~((e.pageSize - 1).setWidth 64) : U64).toNat =
      (e.lo v).toNat / 2 ^ 6 % 2 ^ 24 * 4096 / e.pageBytes * e.pageBytes := by
    have mask : ((e.pageSize - 1).setWidth 64 : U64) = low 64 (12 + 2 * k) := by
      rw [pageOffset_eq small legal]
      interval_cases k <;> rfl
    rw [mask, toNat_andNot_low, frame_eq, pageBytes_eq small legal]
  have below : ((v &&& (e.pageSize - 1)).setWidth 64 : U64).toNat < 2 ^ (12 + 2 * k) := by
    rw [BitVec.toNat_setWidth, offset, pageBytes_eq small legal]
    exact (Nat.mod_le _ _).trans_lt (Nat.mod_lt _ (Nat.two_pow_pos _))
  have aligned : (e.lo v).toNat / 2 ^ 6 % 2 ^ 24 * 4096 / e.pageBytes * e.pageBytes %
      2 ^ (12 + 2 * k) = 0 := by
    rw [pageBytes_eq small legal]
    exact Nat.mul_mod_left _ _
  rw [← base] at aligned
  have narrow : ((v &&& (e.pageSize - 1)).setWidth 64 : U64).toNat = v.toNat % e.pageBytes := by
    have word := (v &&& (e.pageSize - 1)).isLt
    rw [BitVec.toNat_setWidth, Nat.mod_eq_of_lt (word.trans (by decide)), offset]
  have window : (0x1FFFFFFF : U32) = low 32 29 := rfl
  rw [paddr, window, toNat_and_low _ (by omega), BitVec.toNat_setWidth,
    toNat_or_low aligned below, base, narrow]
  exact Nat.mod_mod_of_dvd _ (by decide)

theorem translateEntry_eq {v : U32} (above : e.pairBase ≤ v.toNat)
    (below : v.toNat < e.pairBase + 2 * e.pageBytes) (isStore : Bool) :
    (Cpu.translateEntry e v isStore).map BitVec.toNat = e.verdict v.toNat isStore := by
  have valid : e.lo v &&& TLB_ENTRY_LO_VALID = 0 ↔ (e.lo v).toNat / 2 % 2 = 0 :=
    bit_eq_zero_iff (n := 1) (e.lo v) (by decide)
  have dirty : e.lo v &&& TLB_ENTRY_LO_DIRTY = 0 ↔ (e.lo v).toNat / 4 % 2 = 0 :=
    bit_eq_zero_iff (n := 2) (e.lo v) (by decide)
  simp only [Cpu.translateEntry, verdict, ← lo_eq small legal above below, valid, dirty]
  split_ifs
  · rfl
  · rfl
  · exact congrArg Except.ok (paddr_eq small legal v)

theorem hit_iff (v asid : U32) : e.hit v (asid &&& 0xFF) ↔ e.Maps v.toNat (asid.toNat % 256) := by
  have byte (x : U32) : (x &&& 0xFF).toNat = x.toNat % 256 :=
    toNat_and_low (n := 8) x (by decide)
  have bit (x : U32) : x &&& TLB_ENTRY_LO_GLOBAL ≠ 0 ↔ x.toNat % 2 = 1 := by
    rw [TLB_ENTRY_LO_GLOBAL, ← Nat.div_one x.toNat]
    exact bit_ne_zero_iff (n := 0) x (by decide)
  have space : e.entryHi &&& 0xFF = asid &&& 0xFF ↔ e.entryHi.toNat % 256 = asid.toNat % 256 := by
    rw [← BitVec.toNat_inj, byte, byte]
  rw [hit, global, Bool.and_eq_true, Bool.or_eq_true, Bool.and_eq_true, decide_eq_true_iff,
    decide_eq_true_iff, decide_eq_true_iff, decide_eq_true_iff, covers_iff small legal, bit, bit,
    space]
  rfl

end Pages

end TlbEntry

theorem findIdx?_agree {α : Type} {p q : α → Bool} {l : List α} (agree : ∀ x ∈ l, p x = q x) :
    l.findIdx? p = l.findIdx? q := by
  induction l with
  | nil => rfl
  | cons x l ih =>
    have tail := ih fun y member => agree y (List.mem_cons_of_mem x member)
    rw [List.findIdx?_cons, List.findIdx?_cons, agree x List.mem_cons_self, tail]

namespace Cpu

variable {c : Cpu}

theorem LegalPages.findIdx? (legal : c.LegalPages) (v asid : U32) :
    (c.tlbEntries.findIdx? fun e => e.hit v (asid &&& 0xFF)) =
      c.tlbEntries.findIdx? fun e => e.Maps v.toNat (asid.toNat % 256) := by
  apply findIdx?_agree
  intro e member
  obtain ⟨i, rfl⟩ := mem_tlbEntries member
  obtain ⟨k, small, mask⟩ := legal i
  have same := TlbEntry.hit_iff small mask v asid
  rw [Bool.eq_iff_iff, same, decide_eq_true_iff]

theorem mapsAt_eq_some_iff {v i : ℕ} : c.mapsAt v = some i ↔
    i < 32 ∧ (c.tlb (BitVec.ofNat 5 i)).Maps v c.asid ∧
      ∀ j < i, ¬(c.tlb (BitVec.ofNat 5 j)).Maps v c.asid := by
  rw [mapsAt, List.findIdx?_eq_some_iff_getElem]
  simp only [tlbEntries, List.length_map, List.length_range, List.getElem_map, List.getElem_range,
    decide_eq_true_iff, exists_prop]

theorem LegalPages.find? (legal : c.LegalPages) (v : U32) :
    (c.tlbEntries.find? fun e => e.hit v (c.cop0 Cop0Reg.EntryHi &&& 0xFF)) =
      (c.mapsAt v.toNat).map fun i => c.tlb (BitVec.ofNat 5 i) := by
  rw [List.find?_eq_bind_findIdx?_getElem?, legal.findIdx?]
  change (c.mapsAt v.toNat).bind _ = _
  cases found : c.mapsAt v.toNat with
  | none => rfl
  | some i =>
    have inside := (mapsAt_eq_some_iff.mp found).1
    simp [tlbEntries, inside]

theorem mode_eq : c.mode =
    if c.status.toNat / 2 % 4 ≠ 0 then 0 else c.status.toNat / 8 % 4 := by
  have level : (SR_EXL ||| SR_ERL : U32) = low 32 3 &&& ~~~low 32 1 := rfl
  have ksu : SR_KSU = low 32 5 &&& ~~~low 32 3 := rfl
  have zero : c.status &&& (SR_EXL ||| SR_ERL) = 0 ↔ c.status.toNat / 2 % 4 = 0 := by
    rw [← BitVec.toNat_inj, level, toNat_and_field _ (by decide)]
    change _ = 0 ↔ _
    omega
  have value : ((c.status &&& SR_KSU) >>> 3).toNat = c.status.toNat / 8 % 4 := by
    rw [BitVec.toNat_ushiftRight, ksu, toNat_and_field _ (by decide), Nat.shiftRight_eq_div_pow]
    omega
  rw [mode, value]
  simp only [Ne, zero]

theorem privilege_eq : c.privilege =
    if c.mode = 0 then .kernel else if c.mode = 1 then .supervisor else .user := by
  rw [mode_eq, privilege, privilegeOf]
  by_cases level : c.status.toNat / 2 % 4 ≠ 0
  · rw [if_pos level, if_pos level, if_pos rfl]
  · rw [if_neg level, if_neg level]
    have bits := Nat.mod_lt (c.status.toNat / 8) (show 4 > 0 by decide)
    generalize c.status.toNat / 8 % 4 = ksu at bits
    interval_cases ksu <;> rfl

theorem LegalPages.mapped (legal : c.LegalPages) (v : U32) (isStore : Bool) :
    Except.map BitVec.toNat
      (match c.tlbEntries.find? fun e => e.hit v (c.cop0 Cop0Reg.EntryHi &&& 0xFF) with
      | some e => translateEntry e v isStore
      | none => .error .TlbMiss) =
    match c.mapsAt v.toNat with
    | some i => (c.tlb (BitVec.ofNat 5 i)).verdict v.toNat isStore
    | none => .error .TlbMiss := by
  rw [legal.find?]
  cases found : c.mapsAt v.toNat with
  | none => rfl
  | some i =>
    obtain ⟨k, small, mask⟩ := legal (BitVec.ofNat 5 i)
    have maps := (mapsAt_eq_some_iff.mp found).2.1
    exact TlbEntry.translateEntry_eq small mask maps.1.1 maps.1.2 isStore

theorem toNat_and_bus (v : U32) : (v &&& 0x1FFFFFFF).toNat = v.toNat % 2 ^ 29 :=
  toNat_and_low (n := 29) v (by decide)

theorem mayUse_iff (s : Segment) : c.privilege.mayUse s ↔
    c.mode = 0 ∨ s = .kuseg ∨ c.mode = 1 ∧ s = .ksseg := by
  rw [privilege_eq]
  by_cases kernel : c.mode = 0
  · rw [if_pos kernel]
    simp [Privilege.mayUse, kernel]
  · by_cases supervisor : c.mode = 1
    · rw [if_neg kernel, if_pos supervisor]
      cases s <;> simp [Privilege.mayUse, supervisor]
    · rw [if_neg kernel, if_neg supervisor]
      cases s <;> simp [Privilege.mayUse, kernel, supervisor]

theorem refused_iff (v : ℕ) : c.privilege.mayUse (segmentOf v) = false ↔
    (c.mode ≥ 2 ∧ v ≥ 0x80000000) ∨ (c.mode = 1 ∧ v ≥ 0xE0000000) ∨
      c.mode ≠ 0 ∧ 0x80000000 ≤ v ∧ v ≤ 0xBFFFFFFF := by
  rw [← Bool.not_eq_true, mayUse_iff, segmentOf]
  split_ifs
  all_goals
    simp
    omega

theorem mapped_iff (v : ℕ) : (segmentOf v).mapped = false ↔ 0x80000000 ≤ v ∧ v ≤ 0xBFFFFFFF := by
  rw [segmentOf]
  split_ifs
  all_goals
    simp only [Segment.mapped, reduceCtorEq, true_iff, false_iff]
    omega

theorem translateAddress_eq (legal : c.LegalPages) (vaddr : U64) (isStore : Bool) :
    (c.translateAddress vaddr isStore).map BitVec.toNat =
      c.translateNumber (vaddr.toNat % 2 ^ 32) isStore := by
  rw [← BitVec.toNat_setWidth]
  unfold translateAddress translateNumber
  generalize vaddr.setWidth 32 = v
  have refused := refused_iff (c := c) v.toNat
  have unmapped := mapped_iff v.toNat
  simp only [Bool.not_eq_true', refused, unmapped, ← legal.mapped v isStore]
  by_cases mode : (c.mode ≥ 2 ∧ v.toNat ≥ 0x80000000) ∨ (c.mode = 1 ∧ v.toNat ≥ 0xE0000000)
  · rw [if_pos mode, if_pos (by omega)]
    rfl
  · rw [if_neg mode]
    by_cases direct : 0x80000000 ≤ v.toNat ∧ v.toNat ≤ 0xBFFFFFFF
    · by_cases kernel : c.mode ≠ 0
      · rw [if_pos (Or.inr (Or.inr ⟨kernel, direct⟩)), if_pos kernel]
        by_cases cached : v.toNat ≤ 0x9FFFFFFF
        · rw [if_pos ⟨direct.1, cached⟩]
          rfl
        · rw [if_neg (by omega), if_pos (by omega)]
          rfl
      · have allowed : ¬((c.mode ≥ 2 ∧ v.toNat ≥ 0x80000000) ∨
            (c.mode = 1 ∧ v.toNat ≥ 0xE0000000) ∨
            c.mode ≠ 0 ∧ 0x80000000 ≤ v.toNat ∧ v.toNat ≤ 0xBFFFFFFF) := by omega
        rw [if_neg allowed, if_pos direct, if_neg kernel]
        have bus := congrArg (Except.ok (ε := TranslationFault)) (toNat_and_bus v)
        by_cases cached : v.toNat ≤ 0x9FFFFFFF
        · rw [if_pos ⟨direct.1, cached⟩]
          exact bus
        · rw [if_neg fun h => cached h.2, if_pos (by omega)]
          exact bus
    · rw [if_neg (by omega), if_neg (by omega), if_neg (by omega)]
      exact (if_neg direct).symm

theorem LegalPages.mapsAt_pair (legal : c.LegalPages) {v w : ℕ} (pair : v / 2 ^ 13 = w / 2 ^ 13) :
    c.mapsAt v = c.mapsAt w := by
  apply findIdx?_agree
  intro e member
  obtain ⟨i, rfl⟩ := mem_tlbEntries member
  obtain ⟨k, small, mask⟩ := legal i
  exact decide_eq_decide.mpr (TlbEntry.maps_pair small mask pair c.asid)

def probeIndex (found : Option ℕ) : U32 :=
  match found with
  | some i => BitVec.ofNat 32 i
  | none => TLB_PROBE_FAIL

theorem tlbProbe_eq (legal : c.LegalPages) {v : ℕ}
    (pair : v / 2 ^ 13 = (c.cop0 Cop0Reg.EntryHi).toNat / 2 ^ 13) :
    c.tlbProbe = c.setCop0Reg Cop0Reg.Index (probeIndex (c.mapsAt v)) := by
  rw [legal.mapsAt_pair pair, tlbProbe]
  simp only [legal.findIdx?]
  change (match c.mapsAt (c.cop0 Cop0Reg.EntryHi).toNat with
    | some i => _
    | none => _) = _
  cases c.mapsAt (c.cop0 Cop0Reg.EntryHi).toNat <;> rfl

theorem probeIndex_fail {v : ℕ} : probeIndex (c.mapsAt v) = TLB_PROBE_FAIL ↔ c.mapsAt v = none := by
  cases found : c.mapsAt v with
  | none => simp [probeIndex]
  | some i =>
    have inside := (mapsAt_eq_some_iff.mp found).1
    simp only [probeIndex, reduceCtorEq, iff_false]
    intro same
    have value := congrArg BitVec.toNat same
    rw [BitVec.toNat_ofNat, Nat.mod_eq_of_lt (by omega)] at value
    change i = 2 ^ 31 at value
    omega

theorem verdict_ne_miss (e : TlbEntry) (v : ℕ) (isStore : Bool) :
    e.verdict v isStore ≠ .error .TlbMiss := by
  unfold TlbEntry.verdict
  simp only
  split_ifs <;> simp

theorem miss_iff (legal : c.LegalPages) {vaddr : U64} (isStore : Bool)
    (mayUse : c.privilege.mayUse (segmentOf (vaddr.toNat % 2 ^ 32)))
    (mapped : (segmentOf (vaddr.toNat % 2 ^ 32)).mapped) :
    c.translateAddress vaddr isStore = .error .TlbMiss ↔
      c.mapsAt (vaddr.toNat % 2 ^ 32) = none := by
  have same := translateAddress_eq legal vaddr isStore
  have mapError : c.translateAddress vaddr isStore = .error .TlbMiss ↔
      (c.translateAddress vaddr isStore).map BitVec.toNat = .error .TlbMiss := by
    cases c.translateAddress vaddr isStore <;> simp [Except.map]
  rw [mapError, same, translateNumber, mayUse, mapped]
  cases c.mapsAt (vaddr.toNat % 2 ^ 32) with
  | none => simp
  | some i => simp [verdict_ne_miss]

/-- Translation and TLBP, as arithmetic on intervals. -/
theorem tlb_interval_arithmetic (c : Cpu) (legal : c.LegalPages) (vaddr : U64) (isStore : Bool) :
    (c.translateAddress vaddr isStore).map BitVec.toNat =
        c.translateNumber (vaddr.toNat % 2 ^ 32) isStore ∧
      (vaddr.toNat % 2 ^ 32 / 2 ^ 13 = (c.cop0 Cop0Reg.EntryHi).toNat / 2 ^ 13 →
        c.tlbProbe = c.setCop0Reg Cop0Reg.Index (probeIndex (c.mapsAt (vaddr.toNat % 2 ^ 32))) ∧
        (c.privilege.mayUse (segmentOf (vaddr.toNat % 2 ^ 32)) →
          (segmentOf (vaddr.toNat % 2 ^ 32)).mapped →
          (c.tlbProbe.cop0 Cop0Reg.Index = TLB_PROBE_FAIL ↔
            c.translateAddress vaddr isStore = .error .TlbMiss))) := by
  refine ⟨translateAddress_eq legal vaddr isStore, ?_⟩
  intro pair
  have probe := tlbProbe_eq legal pair
  refine ⟨probe, ?_⟩
  intro mayUse mapped
  rw [probe, cop0_setCop0Reg, if_pos rfl, probeIndex_fail, miss_iff legal isStore mayUse mapped]

/-- A pair of 64 KiB pages, the second of them read only. -/
def largePages : TlbEntry :=
  { pageMask := 0x1E000, entryHi := 0x400007, entryLo0 := 0xC006, entryLo1 := 0xC402 }

def mapsLargePages : Cpu :=
  { tlb := fun i => if i = 5 then largePages else {}
    cop0 := fun i => if i = Cop0Reg.EntryHi then 0x412007 else 0 }

theorem mapsLargePages_legal : mapsLargePages.LegalPages := by
  intro i
  by_cases fifth : i = 5
  · subst fifth
    exact ⟨2, by decide, by decide⟩
  · have other : mapsLargePages.tlb i = {} := if_neg fifth
    exact ⟨0, by decide, by rw [other]; rfl⟩

/-- In the second page of the pair. -/
theorem tlb_interval_arithmetic_large :
    mapsLargePages.tlbProbe = mapsLargePages.setCop0Reg Cop0Reg.Index 5 ∧
      mapsLargePages.translateAddress 0x412345 false ≠ .error .TlbMiss ∧
      (mapsLargePages.translateAddress 0x412345 false).map BitVec.toNat = .ok 0x312345 ∧
      (mapsLargePages.translateAddress 0x412345 true).map BitVec.toNat = .error .TlbModified := by
  have load := tlb_interval_arithmetic mapsLargePages mapsLargePages_legal 0x412345 false
  have store := tlb_interval_arithmetic mapsLargePages mapsLargePages_legal 0x412345 true
  have probe := load.2 (by decide)
  refine ⟨probe.1.trans (by rw [show probeIndex _ = 5 by decide]), ?_, load.1.trans (by decide),
    store.1.trans (by decide)⟩
  exact mt (probe.2 (by decide) (by decide)).mpr (by decide)

theorem legalPages_smallest (small : ∀ i, (c.tlb i).pageMask = 0) : c.LegalPages := by
  intro i
  refine ⟨0, by decide, ?_⟩
  rw [small i]
  rfl

/-- User mode that may use COP0, and EntryHi in the kernel's mapped segment. -/
def outsider : Cpu :=
  (({} : Cpu).setCop0Reg Cop0Reg.Status 0x10000010).setCop0Reg Cop0Reg.EntryHi 0xE0000000

/-- The probe fails, but the translation is an address error before it looks. -/
theorem outsider_probe : outsider.LegalPages ∧ (segmentOf 0xE0000000).mapped ∧
    outsider.coprocessorUsable 0 ∧ outsider.cop0 Cop0Reg.EntryHi = 0xE0000000 ∧
    outsider.tlbProbe.cop0 Cop0Reg.Index = TLB_PROBE_FAIL ∧
    outsider.translateAddress 0xE0000000 false = .error .AddressError := by
  refine ⟨legalPages_smallest fun _ => rfl, by decide, by decide, by decide, by decide, by decide⟩

end Cpu

end N64
