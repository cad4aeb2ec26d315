import N64Emu.VectorMemory

/-!
# The transposing loads and stores

STV writes a diagonal of eight registers as a row of DMEM, LTV reads a row into
a diagonal. Eight of each, the loads with the elements of the stores in the
other order, transpose the eight registers.
-/

set_option autoImplicit false

namespace N64.Rsp

open Words Loops Insn RspVector Fills

section Halfwords

variable (s : Sys) (a : U32) (v : U16)

def halfByte (v : U16) (odd : ℕ) : U8 := if odd = 0 then (v >>> 8).setWidth 8 else v.setWidth 8

theorem dmemOff_next (a : U32) : ((a &&& 0xFFF) + 1 &&& 0xFFF).toNat = (dmemOff a + 1) % 4096 := by
  have next := dmemOff_add (a &&& 0xFFF) 1
  have low : (a &&& 0xFFF).toNat = dmemOff a := rfl
  rwa [low] at next

theorem dmemOff_lt (a : U32) : dmemOff a < 4096 := by
  rw [dmemOff_mod]
  exact Nat.mod_lt _ (by decide)

def halfStored (m : Bytes) (a : U32) (v : U16) : Bytes :=
  Function.update (Function.update m (dmemOff a) (halfByte v 0)) ((dmemOff a + 1) % 4096)
    (halfByte v 1)

theorem storeHalf_rsp :
    (storeHalf s a v).rsp = { s.rsp with dmem := halfStored s.rsp.dmem a v } := by
  unfold halfStored
  rw [← dmemOff_next]
  rfl

theorem storeHalf_spDmem : (storeHalf s a v).bus.spDmem = halfStored s.bus.spDmem a v := by
  have below := dmemOff_lt a
  have apart : dmemOff a ≠ (dmemOff a + 1) % 4096 := by omega
  have mirrored : (storeHalf s a v).bus.spDmem =
      Function.update (Function.update s.bus.spDmem (dmemOff a)
        (halfStored s.rsp.dmem a v (dmemOff a))) ((dmemOff a + 1) % 4096)
        (halfStored s.rsp.dmem a v ((dmemOff a + 1) % 4096)) := by
    unfold halfStored
    rw [← dmemOff_next]
    rfl
  rw [mirrored]
  unfold halfStored
  rw [Function.update_self, Function.update_of_ne apart, Function.update_self]

theorem halfStored_at (m : Bytes) {odd : ℕ} (bit : odd < 2) :
    halfStored m a v ((dmemOff a + odd) % 4096) = halfByte v odd := by
  have below := dmemOff_lt a
  unfold halfStored
  rcases (show odd = 0 ∨ odd = 1 by omega) with rfl | rfl
  · have first : (dmemOff a + 0) % 4096 = dmemOff a := by omega
    rw [first, Function.update_of_ne (by omega), Function.update_self]
  · rw [Function.update_self]

theorem halfStored_other (m : Bytes) {k : ℕ} (apart : k ≠ dmemOff a)
    (next : k ≠ (dmemOff a + 1) % 4096) : halfStored m a v k = m k := by
  unfold halfStored
  rw [Function.update_of_ne next, Function.update_of_ne apart]

theorem join16_halfByte : join16 (halfByte v 0) (halfByte v 1) = v := by
  show join16 ((v >>> 8).setWidth 8) (v.setWidth 8) = v
  ext i hi
  by_cases low : i < 8
  · simp [join16, low, hi]
  · simp [join16, low, hi, show i - 8 < 8 by omega, show 8 + (i - 8) = i by omega]

end Halfwords

section Passes

variable (s : Sys) (vt : BitVec 5) (element lane : ℕ) (address : U32)

def bank (vt : BitVec 5) (i : ℕ) : BitVec 5 := vt + BitVec.ofNat 5 i

theorem bank_inj {i j : ℕ} (hi : i < 8) (hj : j < 8) (same : bank vt i = bank vt j) : i = j := by
  have sum := congrArg BitVec.toNat same
  unfold bank at sum
  rw [BitVec.toNat_add, BitVec.toNat_add, BitVec.toNat_ofNat, BitVec.toNat_ofNat] at sum
  have below := vt.isLt
  omega

theorem transferTransposed_store :
    transferTransposed true vt element address lane s =
      storeHalf s (address + BitVec.ofNat 32 (lane * 2))
        (s.rsp.vector.vpr (bank vt ((element / 2 + lane) % 8)) (laneAt lane)) := rfl

theorem transferTransposed_load :
    transferTransposed false vt element address lane s =
      setVector s (setVectorLane s.rsp.vector (bank vt lane) (laneAt (lane + 8 - element / 2))
        (join16 (s.rsp.dmem (dmemOff (address + BitVec.ofNat 32 (lane * 2))))
          (s.rsp.dmem ((dmemOff (address + BitVec.ofNat 32 (lane * 2)) + 1) % 4096)))) := by
  rw [← dmemOff_next]
  have narrow (x : U16) : (x.setWidth 32).setWidth 16 = x := by
    rw [BitVec.setWidth_setWidth_of_le _ (by decide), BitVec.setWidth_eq]
  unfold transferTransposed loadHalf
  simp only [Bool.false_eq_true, if_false, narrow]
  rfl

end Passes

section Rows

variable {s : Sys} {vt : BitVec 5} {base : ℤ} {row : ℕ → U32}

/-- Eight words of one operation for eight rows of sixteen bytes from `base`
on, with an element for each. -/
structure TransposeRows (s : Sys) (operation : ℕ) (vt : BitVec 5) (base : ℤ) (elements : ℕ → ℕ)
    (row : ℕ → U32) : Prop where
  operation : ∀ e < 8, op (row e) = operation
  format : ∀ e < 8, rd (row e) = 11
  register : ∀ e < 8, rt (row e) = vt
  element : ∀ e < 8, element (row e) = elements e
  address : ∀ e < 8, wrapped (quadAddress s (row e)) = wrapped (base + (16 * e : ℕ))

def runRows (row : ℕ → U32) (s : Sys) : Sys := upTo (fun e t => execute t (row e)) 8 s

def rowAddress (base : ℤ) (e : ℕ) : U32 := BitVec.ofNat 32 (wrapped (base + (16 * e : ℕ)))

theorem rowAddress_toNat (base : ℤ) (e : ℕ) :
    (rowAddress base e).toNat = wrapped (base + (16 * e : ℕ)) := by
  have below := wrapped_lt (base + (16 * e : ℕ))
  rw [rowAddress, BitVec.toNat_ofNat, Nat.mod_eq_of_lt (by omega)]

theorem execVectorMemory_transposed (insn : U32) (store : Bool) (format : rd insn = 11) (t : Sys) :
    execVectorMemory t insn store =
      upTo (transferTransposed store (rt insn) (element insn) (vectorAddress t.rsp insn 4)) 8
        t := by
  unfold execVectorMemory
  rw [format]
  rfl

theorem gpr_transferTransposed (store : Bool) (element lane : ℕ) (address : U32) (t : Sys) :
    (transferTransposed store vt element address lane t).rsp.gpr = t.rsp.gpr := by
  cases store with
  | false => rw [transferTransposed_load]; rfl
  | true => rw [transferTransposed_store, storeHalf_rsp]

theorem TransposeRows.run_eq {operation : ℕ} {elements : ℕ → ℕ} {store : Bool}
    (h : TransposeRows s operation vt base elements row)
    (execs : ∀ e < 8, ∀ t, execute t (row e) = execVectorMemory t (row e) store) :
    runRows row s = grid (fun e =>
        transferTransposed store vt (elements e) (rowAddress base e)) 8 8 s ∧
      (runRows row s).rsp.gpr = s.rsp.gpr := by
  refine upTo_sim (fun t u : Sys => t = u ∧ t.rsp.gpr = s.rsp.gpr) 8 ⟨rfl, rfl⟩ ?_
  rintro e lt t _ ⟨rfl, same⟩
  have address : vectorAddress t.rsp (row e) 4 = rowAddress base e := by
    apply BitVec.eq_of_toNat_eq
    rw [vectorAddress_congr same, vectorAddress_toNat, rowAddress_toNat, ← h.address e lt]
    rfl
  rw [execs e lt, execVectorMemory_transposed _ _ (h.format e lt), h.register e lt,
    h.element e lt, address]
  refine ⟨rfl, upTo_preserves (fun t : Sys => t.rsp.gpr = s.rsp.gpr) 8 same
    fun lane _ t kept => ?_⟩
  rw [gpr_transferTransposed, kept]

theorem TransposeRows.congr {t : Sys} {operation : ℕ} {elements : ℕ → ℕ}
    (h : TransposeRows s operation vt base elements row) (same : t.rsp.gpr = s.rsp.gpr) :
    TransposeRows t operation vt base elements row :=
  { h with
    address := fun e lt => by
      rw [← h.address e lt, quadAddress, same]
      rfl }

theorem rowAddress_off (base : ℤ) (e lane : ℕ) :
    dmemOff (rowAddress base e + BitVec.ofNat 32 (lane * 2)) =
      wrapped (base + (16 * e + 2 * lane : ℕ)) := by
  rw [dmemOff_add, rowAddress_toNat]
  unfold wrapped
  push_cast
  omega

theorem wrapped_next (base : ℤ) (k odd : ℕ) :
    (wrapped (base + k) + odd) % 4096 = wrapped (base + (k + odd : ℕ)) := by
  unfold wrapped
  omega

def storeRows (vt : BitVec 5) (base : ℤ) (s : Sys) : Sys :=
  grid (fun e => transferTransposed true vt (2 * e) (rowAddress base e)) 8 8 s

def loadElement (e : ℕ) : ℕ := (16 - 2 * e) % 16

def loadRows (vt : BitVec 5) (base : ℤ) (s : Sys) : Sys :=
  grid (fun e => transferTransposed false vt (loadElement e) (rowAddress base e)) 8 8 s

theorem stored_cell (vt : BitVec 5) (base : ℤ) (s : Sys) (copy : Sys → Bytes)
    (half : ∀ t a v, copy (storeHalf t a v) = halfStored (copy t) a v) {e lane odd : ℕ}
    (below : e < 8) (inside : lane < 8) (bit : odd < 2) :
    copy (storeRows vt base s) (wrapped (base + (16 * e + 2 * lane + odd : ℕ))) =
      halfByte (s.rsp.vector.vpr (bank vt ((e + lane) % 8)) (laneAt lane)) odd := by
  apply grid_written (fun t : Sys => t.rsp.vector = s.rsp.vector)
    (fun t => copy t (wrapped (base + (16 * e + 2 * lane + odd : ℕ)))) below inside rfl
  · intro r _ c _ t kept
    rw [transferTransposed_store, storeHalf_rsp]
    exact kept
  · intro t kept
    rw [transferTransposed_store, half, kept, ← wrapped_next, ← rowAddress_off,
      halfStored_at _ _ _ bit, Nat.mul_div_cancel_left _ Nat.two_pos]
  · intro r hr c hc apart t _
    rw [transferTransposed_store, half]
    apply halfStored_other
    · rw [rowAddress_off]
      intro same
      have := wrapped_inj base (by omega) (by omega) same
      omega
    · rw [rowAddress_off, wrapped_next]
      intro same
      have := wrapped_inj base (by omega) (by omega) same
      omega

theorem stored_outside (copy : Sys → Bytes)
    (half : ∀ t a v, copy (storeHalf t a v) = halfStored (copy t) a v) {k : ℕ}
    (apart : ∀ j : ℕ, j < 128 → wrapped (base + j) ≠ k) :
    copy (storeRows vt base s) k = copy s k := by
  apply grid_untouched (fun _ => True) (fun t => copy t k) trivial (fun _ _ _ _ _ _ => trivial)
  intro r hr c hc t _
  rw [transferTransposed_store, half]
  apply halfStored_other
  · rw [rowAddress_off]
    exact (apart _ (by omega)).symm
  · rw [rowAddress_off, wrapped_next]
    exact (apart _ (by omega)).symm

theorem stored_vector : (storeRows vt base s).rsp.vector = s.rsp.vector := by
  apply grid_preserves (fun t : Sys => t.rsp.vector = s.rsp.vector) rfl
  intro r _ c _ t kept
  rw [transferTransposed_store, storeHalf_rsp]
  exact kept

/-- The eight loads fill a lane of a register of the bank from one halfword. -/
theorem loaded_cell {i j : ℕ} (hi : i < 8) (hj : j < 8) :
    (loadRows vt base s).rsp.vector.vpr (bank vt i) (laneAt j) =
      join16 (s.rsp.dmem (wrapped (base + (16 * ((j + 8 - i) % 8) + 2 * i + 0 : ℕ))))
        (s.rsp.dmem (wrapped (base + (16 * ((j + 8 - i) % 8) + 2 * i + 1 : ℕ)))) := by
  apply grid_written (fun t : Sys => t.rsp.dmem = s.rsp.dmem)
    (fun t => t.rsp.vector.vpr (bank vt i) (laneAt j)) (show (j + 8 - i) % 8 < 8 by omega) hi rfl
  · intro r _ c _ t kept
    rw [transferTransposed_load]
    exact kept
  · intro t kept
    have lane : laneAt j = laneAt (i + 8 - loadElement ((j + 8 - i) % 8) / 2) := by
      rw [laneAt_eq_iff, loadElement]
      omega
    rw [transferTransposed_load, rowAddress_off, wrapped_next, kept]
    exact (vpr_setVectorLane _ _ _ _ _ _).trans (if_pos ⟨rfl, lane⟩)
  · intro r hr c hc apart t _
    rw [transferTransposed_load]
    refine (vpr_setVectorLane _ _ _ _ _ _).trans (if_neg ?_)
    rintro ⟨reg, lane⟩
    have column := bank_inj vt hi hc reg
    rw [laneAt_eq_iff, loadElement] at lane
    omega

theorem loaded_other {q : BitVec 5} (apart : ∀ i < 8, q ≠ bank vt i) :
    (loadRows vt base s).rsp.vector.vpr q = s.rsp.vector.vpr q := by
  apply grid_untouched (fun _ => True) (fun t : Sys => t.rsp.vector.vpr q) trivial
    (fun _ _ _ _ _ _ => trivial)
  intro r _ c hc t _
  rw [transferTransposed_load]
  exact Function.update_of_ne (apart c hc) _ _

theorem loaded_memory (vt : BitVec 5) (base : ℤ) (s : Sys) :
    (loadRows vt base s).rsp.dmem = s.rsp.dmem ∧
      (loadRows vt base s).bus.spDmem = s.bus.spDmem :=
  grid_preserves (fun t : Sys => t.rsp.dmem = s.rsp.dmem ∧ t.bus.spDmem = s.bus.spDmem) ⟨rfl, rfl⟩
    fun r _ c _ t kept => by
      rw [transferTransposed_load]
      exact kept

/-- Eight STV and eight LTV transpose the bank, and change no other register
and no byte outside the 128 from `base` on. -/
theorem vector_transpose (vt : BitVec 5) (base : ℤ) (st lt : ℕ → U32) (s : Sys)
    (stores : TransposeRows s 0x3A vt base (fun e => 2 * e) st)
    (loads : TransposeRows s 0x32 vt base loadElement lt) :
    let t := runRows lt (runRows st s)
    (∀ i j : ℕ, i < 8 → j < 8 → t.rsp.vector.vpr (bank vt i) (laneAt j) =
      s.rsp.vector.vpr (bank vt j) (laneAt i)) ∧
    (∀ q, (∀ i < 8, q ≠ bank vt i) → t.rsp.vector.vpr q = s.rsp.vector.vpr q) ∧
    ∀ k, (∀ j : ℕ, j < 128 → wrapped (base + j) ≠ k) →
      t.rsp.dmem k = s.rsp.dmem k ∧ t.bus.spDmem k = s.bus.spDmem k := by
  intro t
  obtain ⟨storeRun, gpr⟩ := stores.run_eq fun e lt t => (execute_vector t).2 (stores.operation e lt)
  obtain ⟨loadRun, -⟩ := (loads.congr gpr).run_eq
    fun e lt t => (execute_vector t).1 (loads.operation e lt)
  have run : t = loadRows vt base (storeRows vt base s) := by
    rw [storeRun] at loadRun
    show runRows lt (runRows st s) = _
    rw [storeRun]
    exact loadRun
  obtain ⟨dmem, bus⟩ := loaded_memory vt base (storeRows vt base s)
  rw [run]
  refine ⟨?_, ?_, ?_⟩
  · intro i j hi hj
    have row : (j + 8 - i) % 8 < 8 := Nat.mod_lt _ (by decide)
    have diagonal : ((j + 8 - i) % 8 + i) % 8 = j := by omega
    have high := stored_cell vt base s (fun t => t.rsp.dmem)
      (fun t a v => congrArg Rsp.dmem (storeHalf_rsp t a v)) row hi (show 0 < 2 by decide)
    have low := stored_cell vt base s (fun t => t.rsp.dmem)
      (fun t a v => congrArg Rsp.dmem (storeHalf_rsp t a v)) row hi (show 1 < 2 by decide)
    rw [loaded_cell hi hj, high, low, join16_halfByte, diagonal]
  · intro q apart
    rw [loaded_other apart, stored_vector]
  · intro k apart
    rw [dmem, bus]
    exact ⟨stored_outside (fun t => t.rsp.dmem)
        (fun t a v => congrArg Rsp.dmem (storeHalf_rsp t a v)) apart,
      stored_outside (fun t => t.bus.spDmem) storeHalf_spDmem apart⟩

/-- STV and LTV of the bank from register 8 on, row after row from offset zero. -/
def storeWord8 (e : ℕ) : U32 := BitVec.ofNat 32 (0xE8085800 + e * 0x101)

def loadWord8 (e : ℕ) : U32 := BitVec.ofNat 32 (0xC8085800 + loadElement e * 0x80 + e)

def numberedLanes : Sys :=
  { rsp.vector.vpr := fun r lane => BitVec.ofNat 16 (8 * r.toNat + lane.val) }

theorem vector_transpose_numbered :
    (runRows loadWord8 (runRows storeWord8 numberedLanes)).rsp.vector.vpr 9 2 = 81 :=
  (vector_transpose 8 0 storeWord8 loadWord8 numberedLanes
    ⟨by decide, by decide, by decide, by decide, by decide⟩
    ⟨by decide, by decide, by decide, by decide, by decide⟩).1 1 2 (by decide) (by decide)

end Rows

end N64.Rsp
