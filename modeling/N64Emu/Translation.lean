import N64Emu.CpuControl

/-!
# Address translation

A translation looks at the low 32 bits of an address and, below the page size,
not at all: the unaligned accesses fault for the address of their word exactly
when the address itself does.
-/

set_option autoImplicit false

namespace N64

open Words

section Alignment

variable {w : ℕ} {m : BitVec w}

theorem andNot_and_eq {k : BitVec w} (h : k &&& m = 0) (v : BitVec w) :
    (v &&& ~~~m) &&& k = v &&& k := by
  have apart : ~~~m &&& k = k := by
    refine BitVec.eq_of_getElem_eq fun i hi => ?_
    have bit := congrArg (fun x => x[i]) h
    simp only [BitVec.getElem_and, BitVec.ofNat_eq_ofNat, BitVec.getElem_zero] at bit
    simp only [BitVec.getElem_and, BitVec.getElem_not]
    cases hm : m[i] <;> cases hk : k[i] <;> simp_all
  rw [BitVec.and_assoc, apart]

theorem align_div (low : m.toNat < 8) (v : BitVec w) : (v &&& ~~~m).toNat / 8 = v.toNat / 8 := by
  apply Nat.eq_of_testBit_eq
  intro i
  have high : m.getLsbD (i + 3) = false :=
    Nat.testBit_lt_two_pow
      (lt_of_lt_of_le (show m.toNat < 2 ^ 3 from low) (Nat.pow_le_pow_right (by omega) (by omega)))
  have bit : (v &&& ~~~m).getLsbD (i + 3) = v.getLsbD (i + 3) := by
    rw [BitVec.getLsbD_and, BitVec.getLsbD_not, high]
    by_cases inside : i + 3 < w
    · simp [inside]
    · simp [BitVec.getLsbD_of_ge v _ (Nat.le_of_not_lt inside)]
  rw [show 8 = 2 ^ 3 from rfl, Nat.testBit_div_two_pow, Nat.testBit_div_two_pow]
  exact bit

end Alignment

namespace TlbEntry

theorem pairMask_and (e : TlbEntry) : e.pairMask &&& 0x1FFF = 0x1FFF := by
  unfold pairMask
  rw [BitVec.and_or_distrib_right, BitVec.and_self]
  refine BitVec.eq_of_getLsbD_eq fun i hi => ?_
  simp only [BitVec.getLsbD_or, BitVec.getLsbD_and]
  cases (0x1FFF : U32).getLsbD i <;> simp

theorem pairMask_low (e : TlbEntry) : e.pairMask.toNat % 0x2000 = 0x1FFF := by
  have low := congrArg BitVec.toNat e.pairMask_and
  rw [BitVec.toNat_and] at low
  exact (Nat.and_two_pow_sub_one_eq_mod e.pairMask.toNat 13).symm.trans low

theorem not_pairMask_and (e : TlbEntry) {m : U32} (low : m.toNat < 8) :
    ~~~e.pairMask &&& m = 0 := by
  have within : m &&& 0x1FFF = m := by
    apply BitVec.eq_of_toNat_eq
    rw [BitVec.toNat_and]
    exact (Nat.and_two_pow_sub_one_eq_mod m.toNat 13).trans (Nat.mod_eq_of_lt (by omega))
  rw [← within, ← e.pairMask_and, BitVec.and_comm m, ← BitVec.and_assoc, ← BitVec.and_assoc,
    BitVec.and_comm (~~~e.pairMask), BitVec.and_not_self]
  simp

theorem pageSize_and (e : TlbEntry) {m : U32} (low : m.toNat < 8) : e.pageSize &&& m = 0 := by
  have mask := e.pairMask_low
  have lt := e.pairMask.isLt
  have size : e.pageSize.toNat % 8 = 0 := by
    simp only [pageSize, BitVec.toNat_ushiftRight, BitVec.toNat_add, Nat.shiftRight_eq_div_pow]
    simp
    omega
  apply BitVec.eq_of_toNat_eq
  rw [BitVec.toNat_and]
  have split : m.toNat = m.toNat &&& 7 :=
    ((Nat.and_two_pow_sub_one_eq_mod m.toNat 3).trans (Nat.mod_eq_of_lt low)).symm
  have zero : e.pageSize.toNat &&& 7 = 0 :=
    (Nat.and_two_pow_sub_one_eq_mod e.pageSize.toNat 3).trans size
  rw [split, Nat.and_comm m.toNat, ← Nat.and_assoc, zero]
  simp

theorem pageSize_pos (e : TlbEntry) : e.pageSize.toNat % 4096 = 0 ∧ 0 < e.pageSize.toNat := by
  have mask := e.pairMask_low
  have bound : e.pairMask.toNat ≤ 0x1FFFFFF := by
    have within : e.pairMask = e.pairMask &&& 0x1FFFFFF := by
      unfold pairMask
      rw [BitVec.and_or_distrib_right, BitVec.and_assoc]
      rfl
    rw [within, BitVec.toNat_and]
    exact Nat.and_le_right
  have size : e.pageSize.toNat = (e.pairMask.toNat + 1) / 2 := by
    simp only [pageSize, BitVec.toNat_ushiftRight, BitVec.toNat_add, Nat.shiftRight_eq_div_pow]
    simp
    omega
  omega

theorem pageOffset_bit (e : TlbEntry) {i : ℕ} (low : i < 12) :
    (e.pageSize - 1).getLsbD i = true := by
  have size := e.pageSize_pos
  have value : (e.pageSize - 1).toNat = e.pageSize.toNat - 1 := by
    rw [BitVec.toNat_sub_of_le]
    · rfl
    · exact BitVec.le_def.mpr size.2
  have ones : (e.pageSize - 1).toNat % 2 ^ 12 = 2 ^ 12 - 1 := by omega
  have bit := congrArg (fun x => Nat.testBit x i) ones
  simp only [Nat.testBit_mod_two_pow, Nat.testBit_two_pow_sub_one, low, decide_true,
    Bool.true_and] at bit
  exact bit

theorem hit_align (e : TlbEntry) {m : U32} (low : m.toNat < 8) (v asid : U32) :
    e.hit (v &&& ~~~m) asid = e.hit v asid := by
  simp only [hit, andNot_and_eq (e.not_pairMask_and low)]

theorem lo_align (e : TlbEntry) {m : U32} (low : m.toNat < 8) (v : U32) :
    e.lo (v &&& ~~~m) = e.lo v := by
  simp only [lo, andNot_and_eq (e.pageSize_and low)]

theorem getLsbD_paddr (e : TlbEntry) (v : U32) (i : ℕ) : (e.paddr v).getLsbD i =
    ((((e.lo v &&& 0x3FFFFFC0).setWidth 64 <<< 6 : U64).getLsbD i && !(e.pageSize - 1).getLsbD i ||
      v.getLsbD i && (e.pageSize - 1).getLsbD i) && (0x1FFFFFFF : U32).getLsbD i) := by
  by_cases inside : i < 32
  · have wide : i < 64 := by omega
    simp only [paddr, BitVec.getLsbD_and, BitVec.getLsbD_setWidth, BitVec.getLsbD_or,
      BitVec.getLsbD_not, inside, wide, decide_true, Bool.true_and]
  · rw [BitVec.getLsbD_of_ge _ _ (Nat.le_of_not_lt inside),
      BitVec.getLsbD_of_ge (0x1FFFFFFF : U32) _ (Nat.le_of_not_lt inside), Bool.and_false]

end TlbEntry

namespace Cpu

theorem mem_tlbEntries {c : Cpu} {e : TlbEntry} (member : e ∈ c.tlbEntries) :
    ∃ i, e = c.tlb i := by
  obtain ⟨i, -, rfl⟩ := List.mem_map.mp member
  exact ⟨_, rfl⟩

theorem translateAddress_align (c : Cpu) {m : U64} (low : m.toNat < 8) (vaddr : U64)
    (isStore : Bool) (fault : TranslationFault) :
    c.translateAddress (vaddr &&& ~~~m) isStore = .error fault ↔
      c.translateAddress vaddr isStore = .error fault := by
  have narrow : (vaddr &&& ~~~m).setWidth 32 = vaddr.setWidth 32 &&& ~~~(m.setWidth 32 : U32) := by
    rw [BitVec.setWidth_and, BitVec.setWidth_not (by omega)]
  have low32 : (m.setWidth 32 : U32).toNat < 8 := by
    rw [BitVec.toNat_setWidth]
    omega
  have block := align_div low32 (vaddr.setWidth 32)
  have above : ∀ k : ℕ, k % 8 = 0 → ((vaddr.setWidth 32 &&& ~~~(m.setWidth 32 : U32)).toNat ≥ k ↔
      (vaddr.setWidth 32 : U32).toNat ≥ k) := fun k _ => by omega
  have below : ∀ k : ℕ, k % 8 = 7 → ((vaddr.setWidth 32 &&& ~~~(m.setWidth 32 : U32)).toNat ≤ k ↔
      (vaddr.setWidth 32 : U32).toNat ≤ k) := fun k _ => by omega
  simp only [translateAddress, narrow, TlbEntry.hit_align _ low32]
  simp only [ge_iff_le] at above
  simp only [ge_iff_le, above 0x80000000 rfl, above 0xE0000000 rfl, above 0xA0000000 rfl,
    below 0x9FFFFFFF rfl, below 0xBFFFFFFF rfl]
  split_ifs
  · rfl
  · rfl
  · simp
  · rfl
  · simp
  · split
    · simp only [translateEntry, TlbEntry.lo_align _ low32]
      split_ifs <;> simp
    · rfl

end Cpu

theorem or_offset {k m : U32} (within : m &&& k = m) (v : U32) :
    v &&& k = ((v &&& ~~~m) &&& k) ||| (v &&& m) := by
  ext i inside
  have bit := congrArg (fun x => x[i]) within
  simp only [BitVec.getElem_and] at bit
  simp only [BitVec.getElem_and, BitVec.getElem_or, BitVec.getElem_not]
  cases hm : m[i] <;> cases hk : k[i] <;> simp_all

theorem getLsbD_of_low {m : U32} (low : m.toNat < 8) {i : ℕ} (high : 3 ≤ i) :
    m.getLsbD i = false :=
  Nat.testBit_lt_two_pow
    (lt_of_lt_of_le (show m.toNat < 2 ^ 3 from low) (Nat.pow_le_pow_right (by omega) high))

theorem bus_offset {m : U32} (low : m.toNat < 8) : m &&& 0x1FFFFFFF = m := by
  apply BitVec.eq_of_toNat_eq
  rw [BitVec.toNat_and]
  exact (Nat.and_two_pow_sub_one_eq_mod m.toNat 29).trans (Nat.mod_eq_of_lt (by omega))

theorem TlbEntry.paddr_offset (e : TlbEntry) {m : U32} (low : m.toNat < 8) (v : U32) :
    e.paddr v = e.paddr (v &&& ~~~m) ||| (v &&& m) := by
  apply BitVec.eq_of_getLsbD_eq
  intro i inside
  rw [BitVec.getLsbD_or, getLsbD_paddr, getLsbD_paddr, e.lo_align low, BitVec.getLsbD_and,
    BitVec.getLsbD_and, BitVec.getLsbD_not]
  by_cases high : 3 ≤ i
  · rw [getLsbD_of_low low high]
    simp [inside]
  · have offset := e.pageOffset_bit (show i < 12 by omega)
    have bus : (0x1FFFFFFF : U32).getLsbD i = true := by interval_cases i <;> rfl
    rw [offset, bus]
    cases v.getLsbD i <;> simp [inside]

theorem TlbEntry.paddr_page (e : TlbEntry) (v : U32) :
    (e.paddr v).toNat % 4096 = v.toNat % 4096 := by
  apply Nat.eq_of_testBit_eq
  intro i
  rw [show 4096 = 2 ^ 12 from rfl, Nat.testBit_mod_two_pow, Nat.testBit_mod_two_pow]
  by_cases low : i < 12
  · have offset := e.pageOffset_bit low
    have bus : (0x1FFFFFFF : U32).getLsbD i = true := by interval_cases i <;> rfl
    rw [BitVec.testBit_toNat, BitVec.testBit_toNat, getLsbD_paddr, offset, bus]
    simp
  · simp [low]

namespace Cpu

theorem translateAddress_offset (c : Cpu) {m : U64} (low : m.toNat < 8) (vaddr : U64)
    (isStore : Bool) {p : PhysicalAddress}
    (word : c.translateAddress (vaddr &&& ~~~m) isStore = .ok p) :
    c.translateAddress vaddr isStore = .ok (p ||| (vaddr &&& m).setWidth 32) := by
  have narrow : (vaddr &&& ~~~m).setWidth 32 = vaddr.setWidth 32 &&& ~~~(m.setWidth 32 : U32) := by
    rw [BitVec.setWidth_and, BitVec.setWidth_not (by omega)]
  have low32 : (m.setWidth 32 : U32).toNat < 8 := by
    rw [BitVec.toNat_setWidth]
    omega
  have block := align_div low32 (vaddr.setWidth 32)
  have direct := or_offset (bus_offset low32) (vaddr.setWidth 32)
  have above : ∀ k : ℕ, k % 8 = 0 → (k ≤ (vaddr.setWidth 32 &&& ~~~(m.setWidth 32 : U32)).toNat ↔
      k ≤ (vaddr.setWidth 32 : U32).toNat) := fun k _ => by omega
  have below : ∀ k : ℕ, k % 8 = 7 → ((vaddr.setWidth 32 &&& ~~~(m.setWidth 32 : U32)).toNat ≤ k ↔
      (vaddr.setWidth 32 : U32).toNat ≤ k) := fun k _ => by omega
  rw [BitVec.setWidth_and]
  simp only [translateAddress, narrow, TlbEntry.hit_align _ low32, ge_iff_le,
    above 0x80000000 rfl, above 0xE0000000 rfl, above 0xA0000000 rfl, below 0x9FFFFFFF rfl,
    below 0xBFFFFFFF rfl] at word ⊢
  split_ifs at word ⊢
  · cases word
    rw [direct]
  · cases word
    rw [direct]
  · split at word
    · simp only [translateEntry, TlbEntry.lo_align _ low32] at word ⊢
      split_ifs at word ⊢
      cases word
      rw [TlbEntry.paddr_offset _ low32]
    · cases word

theorem translateAddress_page (c : Cpu) {vaddr : U64} {isStore : Bool} {p : PhysicalAddress}
    (word : c.translateAddress vaddr isStore = .ok p) : p.toNat % 4096 = vaddr.toNat % 4096 := by
  have narrow : (vaddr.setWidth 32 : U32).toNat % 4096 = vaddr.toNat % 4096 := by
    rw [BitVec.toNat_setWidth]
    omega
  have direct : (vaddr.setWidth 32 &&& (0x1FFFFFFF : U32)).toNat % 4096 = vaddr.toNat % 4096 := by
    rw [BitVec.toNat_and, ← narrow]
    have mask := Nat.and_two_pow_sub_one_eq_mod (vaddr.setWidth 32 : U32).toNat 29
    change ((vaddr.setWidth 32 : U32).toNat &&& (2 ^ 29 - 1)) % 4096 = _
    omega
  unfold translateAddress at word
  simp only at word
  split_ifs at word
  · cases word
    exact direct
  · cases word
    exact direct
  · split at word
    · unfold translateEntry at word
      split_ifs at word
      cases word
      rw [TlbEntry.paddr_page, narrow]
    · cases word

end Cpu

end N64
