import N64Emu.Coherence
import N64Emu.Fills
import N64Emu.LowMasks
import N64Emu.Rsp

/-!
# Vector loads and stores

A vector load puts bytes of DMEM in cells of a register, a store of the same
format takes them from the same cells. A cell filled once is read back, so the
store after the load stores what is there.
-/

set_option autoImplicit false

namespace N64.Rsp

open Words Loops Insn RspVector Fills

section Loops

variable (s : Sys) (addr : ℕ → U32) (n : ℕ)

theorem storeByte_rsp (a : U32) (v : U8) :
    (storeByte s a v).rsp = { s.rsp with dmem := Function.update s.rsp.dmem (dmemOff a) v } := rfl

theorem storeByte_spDmem (a : U32) (v : U8) :
    (storeByte s a v).bus.spDmem = Function.update s.bus.spDmem (dmemOff a) v := by
  show Function.update s.bus.spDmem (dmemOff a)
    (Function.update s.rsp.dmem (dmemOff a) v (dmemOff a)) = _
  rw [Function.update_self]

def storeLoop (value : ℕ → VectorUnit → U8) : Sys :=
  upTo (fun i t => storeByte t (addr i) (value i t.rsp.vector)) n s

def setVector (s : Sys) (v : VectorUnit) : Sys := { s with rsp.vector := v }

def loadLoop (put : ℕ → U8 → VectorUnit → VectorUnit) : Sys :=
  upTo (fun i t => setVector t (put i (t.rsp.dmem (dmemOff (addr i))) t.rsp.vector)) n s

def stored (value : ℕ → VectorUnit → U8) (m : Bytes) : Bytes :=
  fill (fun i => dmemOff (addr i)) (fun i => value i s.rsp.vector) n m

theorem storeLoop_succ (value : ℕ → VectorUnit → U8) :
    storeLoop s addr (n + 1) value =
      storeByte (storeLoop s addr n value) (addr n)
        (value n (storeLoop s addr n value).rsp.vector) := rfl

theorem storeLoop_eq (value : ℕ → VectorUnit → U8) :
    (storeLoop s addr n value).rsp = { s.rsp with dmem := stored s addr n value s.rsp.dmem } ∧
      (storeLoop s addr n value).bus.spDmem = stored s addr n value s.bus.spDmem := by
  induction n with
  | zero => exact ⟨rfl, rfl⟩
  | succ n ih =>
    obtain ⟨rsp, bus⟩ := ih
    have vector : (storeLoop s addr n value).rsp.vector = s.rsp.vector := by rw [rsp]
    rw [storeLoop_succ, vector, storeByte_rsp, storeByte_spDmem, rsp, bus]
    exact ⟨rfl, rfl⟩

theorem loadLoop_eq (put : ℕ → U8 → VectorUnit → VectorUnit) :
    loadLoop s addr n put =
      setVector s (upTo (fun i => put i (s.rsp.dmem (dmemOff (addr i)))) n s.rsp.vector) := by
  induction n with
  | zero => rfl
  | succ n ih =>
    have next : loadLoop s addr (n + 1) put = setVector (loadLoop s addr n put)
        (put n ((loadLoop s addr n put).rsp.dmem (dmemOff (addr n)))
          (loadLoop s addr n put).rsp.vector) := rfl
    rw [next, ih]
    rfl

end Loops

section Cells

/-- Cells of a register that each hold a byte and are filled one by one. -/
structure Cells (n : ℕ) (put : ℕ → U8 → VectorUnit → VectorUnit) (value : ℕ → VectorUnit → U8) :
    Prop where
  own : ∀ i < n, ∀ x v, value i (put i x v) = x
  other : ∀ i < n, ∀ j < n, j ≠ i → ∀ x v, value i (put j x v) = value i v

variable {s : Sys} {addr : ℕ → U32} {n : ℕ} {put : ℕ → U8 → VectorUnit → VectorUnit}
  {value : ℕ → VectorUnit → U8}

theorem Cells.loaded (h : Cells n put value) {i : ℕ} (inside : i < n) :
    value i (loadLoop s addr n put).rsp.vector = s.rsp.dmem (dmemOff (addr i)) := by
  rw [loadLoop_eq]
  exact upTo_written (value i) inside _ (fun v => h.own i inside _ v)
    fun j lt apart v => h.other i inside j lt apart _ v

theorem Cells.load_store (h : Cells n put value) (agree : DmemAgree s) :
    (storeLoop (loadLoop s addr n put) addr n value).rsp.dmem = s.rsp.dmem ∧
      (storeLoop (loadLoop s addr n put) addr n value).bus.spDmem = s.bus.spDmem := by
  obtain ⟨rsp, bus⟩ := storeLoop_eq (loadLoop s addr n put) addr n value
  have dmem : (loadLoop s addr n put).rsp.dmem = s.rsp.dmem := by
    rw [loadLoop_eq]
    rfl
  have busDmem : (loadLoop s addr n put).bus.spDmem = s.rsp.dmem := by
    rw [loadLoop_eq]
    exact agree
  have same : stored (loadLoop s addr n put) addr n value s.rsp.dmem = s.rsp.dmem :=
    fill_same fun i lt => (h.loaded lt).symm
  constructor
  · rw [rsp, dmem]
    exact same
  · rw [bus, busDmem, same, agree]

end Cells

section Bytes

variable (v : VectorUnit) (r q : BitVec 5)

theorem vpr_setVectorLane (lane l : Fin 8) (x : U16) :
    (setVectorLane v r lane x).vpr q l = if q = r ∧ l = lane then x else v.vpr q l := by
  unfold setVectorLane
  by_cases reg : q = r
  · subst reg
    by_cases here : l = lane
    · simp [here]
    · simp [here]
  · simp [reg]

theorem laneAt_eq_iff {i j : ℕ} : laneAt i = laneAt j ↔ i % 8 = j % 8 := Fin.ext_iff

theorem lane_bytes (lane : U16) (x : U8) :
    (((lane &&& 0x00FF) ||| (x.setWidth 16 <<< 8)) >>> 8).setWidth 8 = x ∧
      ((lane &&& 0x00FF) ||| (x.setWidth 16 <<< 8)).setWidth 8 = lane.setWidth 8 ∧
      (((lane &&& 0xFF00) ||| x.setWidth 16) >>> 8).setWidth 8 = (lane >>> 8).setWidth 8 ∧
      ((lane &&& 0xFF00) ||| x.setWidth 16).setWidth 8 = x := by
  refine ⟨?_, ?_, ?_, ?_⟩ <;> ext i hi <;> interval_cases i <;> simp

theorem vectorByte_setVectorByte (i j : ℕ) (x : U8) :
    vectorByte (setVectorByte v r j x) q i =
      if q = r ∧ i % 16 = j % 16 then x else vectorByte v q i := by
  obtain ⟨highHigh, highLow, lowHigh, lowLow⟩ := lane_bytes (v.vpr r (laneAt (j / 2))) x
  unfold vectorByte setVectorByte
  simp only [vpr_setVectorLane, laneAt_eq_iff]
  by_cases here : q = r ∧ i / 2 % 8 = j / 2 % 8
  · obtain ⟨rfl, lane⟩ := here
    have byte : i % 16 = j % 16 ↔ i % 2 = j % 2 := by omega
    rw [laneAt_eq_iff.mpr lane]
    rcases Nat.mod_two_eq_zero_or_one i with hi | hi <;>
      rcases Nat.mod_two_eq_zero_or_one j with hj | hj
    · simp only [hi, hj, byte, lane, and_self, if_true, highHigh]
    · simp only [hi, hj, byte, lane, and_self, and_false, if_true, if_false, one_ne_zero,
        zero_ne_one, lowHigh]
    · simp only [hi, hj, byte, lane, and_self, and_false, if_true, if_false, one_ne_zero, highLow]
    · simp only [hi, hj, byte, lane, and_self, if_true, if_false, one_ne_zero, lowLow]
  · have apart : ¬(q = r ∧ i % 16 = j % 16) := by
      rintro ⟨reg, byte⟩
      exact here ⟨reg, by omega⟩
    rw [if_neg here, if_neg apart]

theorem byteCells {n : ℕ} (byte : ℕ → ℕ)
    (distinct : ∀ i < n, ∀ j < n, byte i % 16 = byte j % 16 → i = j) :
    Cells n (fun i x v => setVectorByte v r (byte i) x) (fun i v => vectorByte v r (byte i)) where
  own i _ x v := by rw [vectorByte_setVectorByte, if_pos ⟨rfl, rfl⟩]
  other i hi j hj apart x v := by
    rw [vectorByte_setVectorByte, if_neg]
    rintro ⟨-, same⟩
    exact apart (distinct i hi j hj same).symm

theorem shifted_byte {shift : ℕ} (small : shift ≤ 8) (x : U8) :
    (((x.setWidth 32 <<< shift).setWidth 16) >>> shift).setWidth 8 = x := by
  ext i hi
  simp [show shift + i < 16 by omega, show i < 16 by omega, BitVec.getLsbD_eq_getElem hi]

theorem laneCells {n shift : ℕ} (small : shift ≤ 8) (lane : ℕ → Fin 8)
    (distinct : ∀ i < n, ∀ j < n, lane i = lane j → i = j) :
    Cells n (fun i x v => setVectorLane v r (lane i) ((x.setWidth 32 <<< shift).setWidth 16))
      (fun i v => (v.vpr r (lane i) >>> shift).setWidth 8) where
  own i _ x v := by
    rw [vpr_setVectorLane, if_pos ⟨rfl, rfl⟩]
    exact shifted_byte small x
  other i hi j hj apart x v := by
    rw [vpr_setVectorLane, if_neg]
    rintro ⟨-, same⟩
    exact apart (distinct i hi j hj same).symm

end Bytes

section Formats

variable (s : Sys) (insn : U32) (store : Bool)

/-- The DMEM address of a transfer whose offset is scaled by `2 ^ scale`. -/
def vectorAddress (r : Rsp) (insn : U32) (scale : ℕ) : U32 :=
  BitVec.ofInt 32 ((r.gpr (rs insn)).toNat + signExtend7 insn * 2 ^ scale) &&& 0xFFF

def element (insn : U32) : ℕ := (insn.extractLsb' 7 4).toNat

def transferBytes (store : Bool) (vt : BitVec 5) (addr : ℕ → U32) (byte : ℕ → ℕ) (n : ℕ)
    (s : Sys) : Sys :=
  upTo (fun i => transferByte store vt (addr i) (byte i)) n s

/-- Lanes of a register to or from bytes of DMEM, one by one. -/
def transferLanes (store : Bool) (vt : BitVec 5) (addr : ℕ → U32) (lane : ℕ → Fin 8)
    (shift n : ℕ) (s : Sys) : Sys :=
  upTo (fun i => transferShifted store vt (addr i) (lane i) shift) n s

theorem execVectorMemory_scalar (format : (rd insn).toNat ≤ 3) :
    execVectorMemory s insn store =
      transferBytes store (rt insn)
        (fun i => vectorAddress s.rsp insn (rd insn).toNat + BitVec.ofNat 32 i)
        (fun i => element insn + i) (min (2 ^ (rd insn).toNat) (16 - element insn)) s := by
  have guard (e n : ℕ) (body : ℕ → Sys → Sys) :
      upTo (fun i t => if e + i < 16 then body i t else t) n s = upTo body (min n (16 - e)) s := by
    rw [← upTo_guard]
    exact upTo_congr s fun i _ t => if_congr (by omega) rfl rfl
  unfold transferBytes
  rw [← guard]
  unfold execVectorMemory
  generalize (rd insn).toNat = subop at format
  interval_cases subop <;> rfl

theorem execVectorMemory_quad (format : rd insn = 4) :
    execVectorMemory s insn store =
      transferBytes store (rt insn) (fun i => vectorAddress s.rsp insn 4 + BitVec.ofNat 32 i)
        (fun i => element insn + i)
        (min (16 - (vectorAddress s.rsp insn 4 &&& 15).toNat) (16 - element insn)) s := by
  unfold execVectorMemory
  rw [format]
  rfl

theorem execVectorMemory_rest (format : rd insn = 5) :
    execVectorMemory s insn store =
      transferBytes store (rt insn)
        (fun i => (vectorAddress s.rsp insn 4 &&& ~~~15) + BitVec.ofNat 32 i)
        (fun i => (element insn + (16 - (vectorAddress s.rsp insn 4 &&& 15).toNat) + i) % 16)
        (vectorAddress s.rsp insn 4 &&& 15).toNat s := by
  unfold execVectorMemory
  rw [format]
  rfl

/-- A format of a byte in each lane: its scale, the distance of two bytes and
the shift of a byte in its lane. -/
structure PackedFormat where
  subop : ℕ
  scale : ℕ
  stride : ℕ
  shift : ℕ

def packedFormats : List PackedFormat := [⟨6, 3, 1, 8⟩, ⟨7, 3, 1, 7⟩, ⟨8, 4, 2, 7⟩]

theorem execVectorMemory_packed {p : PackedFormat} (known : p ∈ packedFormats)
    (format : (rd insn).toNat = p.subop) :
    execVectorMemory s insn store =
      if element insn ≠ 0 then s
      else transferLanes store (rt insn)
        (fun lane => vectorAddress s.rsp insn p.scale + BitVec.ofNat 32 (lane * p.stride)) laneAt
        p.shift 8 s := by
  unfold execVectorMemory
  simp only [packedFormats, List.mem_cons, List.not_mem_nil, or_false] at known
  rcases known with rfl | rfl | rfl <;> rw [format] <;> simp only [Nat.mul_one] <;> rfl

theorem execVectorMemory_fourth (format : rd insn = 9) :
    execVectorMemory s insn store =
      transferLanes store (rt insn) (fun i => vectorAddress s.rsp insn 4 + BitVec.ofNat 32 (i * 4))
        (fun i => laneAt (element insn / 2 % 8 + i)) 7 (min 4 (8 - element insn / 2 % 8)) s := by
  unfold execVectorMemory
  rw [format]
  rfl

end Formats

section LoadStore

variable {s : Sys} {vt : BitVec 5} {addr : ℕ → U32} {n : ℕ}

theorem transferByte_load (a : U32) (byte : ℕ) (s : Sys) :
    transferByte false vt a byte s =
      setVector s (setVectorByte s.rsp.vector vt byte (s.rsp.dmem (dmemOff a))) := by
  have value : (loadByte s.rsp a).setWidth 8 = s.rsp.dmem (dmemOff a) := by
    unfold loadByte
    rw [BitVec.setWidth_setWidth_of_le _ (by decide), BitVec.setWidth_eq]
  show setVector s (setVectorByte s.rsp.vector vt byte ((loadByte s.rsp a).setWidth 8)) = _
  rw [value]

theorem transferBytes_load (byte : ℕ → ℕ) :
    transferBytes false vt addr byte n s =
      loadLoop s addr n (fun i x v => setVectorByte v vt (byte i) x) :=
  upTo_congr s fun _ _ _ => transferByte_load _ _ _

theorem transferLanes_load (lane : ℕ → Fin 8) (shift : ℕ) :
    transferLanes false vt addr lane shift n s = loadLoop s addr n fun i x v =>
      setVectorLane v vt (lane i) ((x.setWidth 32 <<< shift).setWidth 16) := rfl

theorem transferBytes_load_store (agree : DmemAgree s) (byte : ℕ → ℕ)
    (distinct : ∀ i < n, ∀ j < n, byte i % 16 = byte j % 16 → i = j) :
    let t := transferBytes true vt addr byte n (transferBytes false vt addr byte n s)
    t.rsp.dmem = s.rsp.dmem ∧ t.bus.spDmem = s.bus.spDmem := by
  rw [transferBytes_load]
  exact (byteCells vt byte distinct).load_store agree

theorem transferLanes_load_store (agree : DmemAgree s) {shift : ℕ} (small : shift ≤ 8)
    (lane : ℕ → Fin 8) (distinct : ∀ i < n, ∀ j < n, lane i = lane j → i = j) :
    let t := transferLanes true vt addr lane shift n (transferLanes false vt addr lane shift n s)
    t.rsp.dmem = s.rsp.dmem ∧ t.bus.spDmem = s.bus.spDmem :=
  (laneCells vt small lane distinct).load_store agree

theorem gpr_transferBytes (byte : ℕ → ℕ) :
    (transferBytes false vt addr byte n s).rsp.gpr = s.rsp.gpr := by
  rw [transferBytes_load, loadLoop_eq]
  rfl

theorem gpr_transferLanes (lane : ℕ → Fin 8) (shift : ℕ) :
    (transferLanes false vt addr lane shift n s).rsp.gpr = s.rsp.gpr := by
  rw [transferLanes_load, loadLoop_eq]
  rfl

theorem vectorAddress_congr {r r' : Rsp} (same : r'.gpr = r.gpr) (insn : U32) (scale : ℕ) :
    vectorAddress r' insn scale = vectorAddress r insn scale := by
  unfold vectorAddress
  rw [same]

theorem laneAt_inj {i j : ℕ} (hi : i < 8) (hj : j < 8) (same : laneAt i = laneAt j) : i = j := by
  have lanes := laneAt_eq_iff.mp same
  omega

theorem execVectorMemory_load_store (agree : DmemAgree s) {insn : U32}
    (format : (rd insn).toNat ≤ 9) :
    let t := execVectorMemory (execVectorMemory s insn false) insn true
    t.rsp.dmem = s.rsp.dmem ∧ t.bus.spDmem = s.bus.spDmem := by
  have inside : element insn < 16 := (insn.extractLsb' 7 4).isLt
  have cases : (rd insn).toNat ≤ 3 ∨ rd insn = 4 ∨ rd insn = 5 ∨
      (∃ p ∈ packedFormats, (rd insn).toNat = p.subop ∧ p.shift ≤ 8) ∨ rd insn = 9 := by
    generalize rd insn = subop at format
    revert subop
    decide
  rcases cases with scalar | quad | rest | ⟨p, known, packed, small⟩ | fourth
  · rw [execVectorMemory_scalar s insn false scalar, execVectorMemory_scalar _ insn true scalar,
      vectorAddress_congr (gpr_transferBytes _)]
    exact transferBytes_load_store agree _ fun i hi j hj same => by omega
  · rw [execVectorMemory_quad s insn false quad, execVectorMemory_quad _ insn true quad,
      vectorAddress_congr (gpr_transferBytes _)]
    exact transferBytes_load_store agree _ fun i hi j hj same => by omega
  · have below : (vectorAddress s.rsp insn 4 &&& 15).toNat < 16 := by
      rw [show (15 : U32) = LowMasks.low 32 4 from rfl, LowMasks.toNat_and_low _ (by decide)]
      exact Nat.mod_lt _ (by decide)
    rw [execVectorMemory_rest s insn false rest, execVectorMemory_rest _ insn true rest,
      vectorAddress_congr (gpr_transferBytes _)]
    exact transferBytes_load_store agree _ fun i hi j hj same => by omega
  · rw [execVectorMemory_packed s insn false known packed]
    by_cases zero : element insn ≠ 0
    · rw [if_pos zero, execVectorMemory_packed s insn true known packed, if_pos zero]
      exact ⟨rfl, rfl⟩
    · rw [if_neg zero, execVectorMemory_packed _ insn true known packed, if_neg zero,
        vectorAddress_congr (gpr_transferLanes _ _)]
      exact transferLanes_load_store agree small _ fun i hi j hj => laneAt_inj hi hj
  · rw [execVectorMemory_fourth s insn false fourth, execVectorMemory_fourth _ insn true fourth,
      vectorAddress_congr (gpr_transferLanes _ _)]
    refine transferLanes_load_store agree (by decide) _ fun i hi j hj same => ?_
    have lanes := laneAt_inj (by omega) (by omega) same
    omega

theorem field_congr {load store : U32} (same : load.setWidth 26 = store.setWidth 26) (k w : ℕ)
    (inside : k + w ≤ 26) : load.extractLsb' k w = store.extractLsb' k w := by
  have narrow (x : U32) : x.extractLsb' k w = (x.setWidth 26).extractLsb' k w := by
    ext i hi
    simp [show k + i < 26 by omega]
  rw [narrow load, narrow store, same]

theorem execVectorMemory_congr {load store : U32} (same : load.setWidth 26 = store.setWidth 26)
    (s : Sys) (b : Bool) : execVectorMemory s load b = execVectorMemory s store b := by
  have low := field_congr same
  unfold execVectorMemory signExtend7 rs rt rd
  rw [low 21 5 (by decide), low 16 5 (by decide), low 11 5 (by decide), low 7 4 (by decide),
    low 0 7 (by decide)]

/-- A load of the formats B, S, L, D, Q, R, P, U, H and F, in this order from
zero, and the store of the same format, element, register and address. -/
theorem vector_load_store (load store : U32) (loads : op load = 0x32) (stores : op store = 0x3A)
    (same : load.setWidth 26 = store.setWidth 26) (format : (rd load).toNat ≤ 9)
    (agree : DmemAgree s) :
    let t := execute (execute s load) store
    t.rsp.dmem = s.rsp.dmem ∧ t.bus.spDmem = s.bus.spDmem := by
  have loaded : execute s load = execVectorMemory s load false := by
    unfold execute
    rw [loads]
    rfl
  have stored (t : Sys) : execute t store = execVectorMemory t load true := by
    rw [execVectorMemory_congr same]
    unfold execute
    rw [stores]
    rfl
  rw [loaded, stored]
  exact execVectorMemory_load_store agree format

/-- LQV and SQV of two bytes into a register, over memory that counts up. -/
def countingDmem : Sys :=
  { rsp.dmem := fun i => BitVec.ofNat 8 i, bus.spDmem := fun i => BitVec.ofNat 8 i }

theorem vector_load_store_quad :
    (execute (execute countingDmem 0xC8012103) 0xE8012103).rsp.dmem = countingDmem.rsp.dmem :=
  (vector_load_store (s := countingDmem) 0xC8012103 0xE8012103 rfl rfl rfl (by decide) rfl).1

end LoadStore

section Quad

def wrapped (a : ℤ) : ℕ := (a % 4096).toNat

theorem wrapped_lt (a : ℤ) : wrapped a < 4096 := by
  unfold wrapped
  omega

theorem vectorAddress_toNat (r : Rsp) (insn : U32) (scale : ℕ) :
    (vectorAddress r insn scale).toNat =
      wrapped ((r.gpr (rs insn)).toNat + signExtend7 insn * 2 ^ scale) := by
  have mask : (0xFFF : U32) = LowMasks.low 32 12 := rfl
  rw [vectorAddress, mask, LowMasks.toNat_and_low _ (by decide), BitVec.toNat_ofInt]
  unfold wrapped
  omega

theorem dmemOff_mod (a : U32) : dmemOff a = a.toNat % 4096 :=
  LowMasks.toNat_and_low (n := 12) a (by decide)

theorem dmemOff_add (a : U32) (i : ℕ) :
    dmemOff (a + BitVec.ofNat 32 i) = (a.toNat + i) % 4096 := by
  rw [dmemOff_mod, BitVec.toNat_add, BitVec.toNat_ofNat]
  omega

theorem transferByte_congr (store : Bool) (vt : BitVec 5) {a b : U32}
    (same : dmemOff a = dmemOff b) (byte : ℕ) (s : Sys) :
    transferByte store vt a byte s = transferByte store vt b byte s := by
  have masked : a &&& 0xFFF = b &&& 0xFFF := BitVec.eq_of_toNat_eq same
  unfold transferByte storeByte loadByte
  rw [masked, same]

/-- LQV and LRV, or SQV and SRV, for the sixteen bytes from an address on. -/
structure QuadPair (quad rest : U32) : Prop where
  quadFormat : rd quad = 4
  restFormat : rd rest = 5
  quadElement : element quad = 0
  restElement : element rest = 0
  base : rs rest = rs quad
  register : rt rest = rt quad
  offset : signExtend7 rest = signExtend7 quad + 1

variable {quad rest : U32} {s : Sys}

theorem gpr_transfer (store : Bool) (vt : BitVec 5) (addr : ℕ → U32) (byte : ℕ → ℕ) (n : ℕ) :
    (transferBytes store vt addr byte n s).rsp.gpr = s.rsp.gpr := by
  cases store with
  | false => exact gpr_transferBytes byte
  | true =>
    show (storeLoop s addr n fun i v => vectorByte v vt (byte i)).rsp.gpr = _
    rw [(storeLoop_eq s addr n _).1]

theorem QuadPair.next (p : QuadPair quad rest) (r : Rsp) :
    (vectorAddress r rest 4).toNat = ((vectorAddress r quad 4).toNat + 16) % 4096 := by
  rw [vectorAddress_toNat, vectorAddress_toNat, p.base, p.offset]
  unfold wrapped
  omega

theorem QuadPair.transfer (p : QuadPair quad rest) (s : Sys) (store : Bool) :
    execVectorMemory (execVectorMemory s quad store) rest store =
      transferBytes store (rt quad) (fun j => vectorAddress s.rsp quad 4 + BitVec.ofNat 32 j) id 16
        s := by
  have next := p.next s.rsp
  have low (x : U32) : (x &&& 15).toNat = x.toNat % 16 :=
    LowMasks.toNat_and_low (n := 4) x (by decide)
  have high (x : U32) : (x &&& ~~~15).toNat = x.toNat / 16 * 16 :=
    LowMasks.toNat_andNot_low (n := 4) x
  have first := execVectorMemory_quad s quad store p.quadFormat
  rw [low, p.quadElement, Nat.min_eq_left (by omega)] at first
  have second := execVectorMemory_rest (execVectorMemory s quad store) rest store p.restFormat
  rw [first] at second ⊢
  rw [vectorAddress_congr (gpr_transfer _ _ _ _ _), low, p.restElement, p.register] at second
  rw [second]
  generalize vectorAddress s.rsp quad 4 = a at next ⊢
  generalize vectorAddress s.rsp rest 4 = b at next ⊢
  have counts : 16 = (16 - a.toNat % 16) + b.toNat % 16 := by omega
  unfold transferBytes
  conv_rhs => rw [counts, upTo_add]
  have firstBytes : upTo (fun i => transferByte store (rt quad) (a + BitVec.ofNat 32 i) (0 + i))
      (16 - a.toNat % 16) s = upTo (fun i => transferByte store (rt quad) (a + BitVec.ofNat 32 i)
        (id i)) (16 - a.toNat % 16) s :=
    upTo_congr s fun i _ t => by rw [Nat.zero_add, id]
  rw [firstBytes]
  apply upTo_congr
  intro i lt t
  have byte : (0 + (16 - b.toNat % 16) + i) % 16 = id (16 - a.toNat % 16 + i) := by
    rw [id]
    omega
  beta_reduce
  rw [byte]
  apply transferByte_congr
  rw [dmemOff_add, dmemOff_add, high]
  omega

theorem vpr_eq_of_bytes {v w : VectorUnit} {q r : BitVec 5}
    (same : ∀ j < 16, vectorByte v q j = vectorByte w r j) : v.vpr q = w.vpr r := by
  have bytes (x y : U16) (high : (x >>> 8).setWidth 8 = (y >>> 8).setWidth 8)
      (low : x.setWidth 8 = y.setWidth 8) : x = y := by
    ext i hi
    by_cases inLow : i < 8
    · have bit := congrArg (fun b : U8 => b.getLsbD i) low
      simpa [inLow, BitVec.getLsbD_eq_getElem hi] using bit
    · have bit := congrArg (fun b : U8 => b.getLsbD (i - 8)) high
      simpa [show i - 8 < 8 by omega, show 8 + (i - 8) = i by omega,
        BitVec.getLsbD_eq_getElem hi] using bit
  funext lane
  have inside := lane.isLt
  have at_ : laneAt lane.val = lane := Fin.ext (Nat.mod_eq_of_lt inside)
  apply bytes
  · have high := same (2 * lane.val) (by omega)
    simpa only [vectorByte, Nat.mul_div_cancel_left _ Nat.two_pos, Nat.mul_mod_right, if_true,
      at_] using high
  · have low := same (2 * lane.val + 1) (by omega)
    have half : (2 * lane.val + 1) / 2 = lane.val := by omega
    have odd : ¬ (2 * lane.val + 1) % 2 = 0 := by omega
    simpa only [vectorByte, half, if_neg odd, at_] using low

theorem wrapped_add (r : Rsp) (insn : U32) (j : ℕ) :
    dmemOff (vectorAddress r insn 4 + BitVec.ofNat 32 j) =
      wrapped ((r.gpr (rs insn)).toNat + signExtend7 insn * 16 + j) := by
  rw [dmemOff_add, vectorAddress_toNat]
  unfold wrapped
  omega

theorem wrapped_inj (a : ℤ) {i j : ℕ} (hi : i < 4096) (hj : j < 4096)
    (same : wrapped (a + i) = wrapped (a + j)) : i = j := by
  unfold wrapped at same
  omega

theorem execute_vector {insn : U32} (s : Sys) :
    (op insn = 0x32 → execute s insn = execVectorMemory s insn false) ∧
      (op insn = 0x3A → execute s insn = execVectorMemory s insn true) := by
  constructor
  · intro load
    unfold execute
    rw [load]
    rfl
  · intro store
    unfold execute
    rw [store]
    rfl

def quadAddress (s : Sys) (insn : U32) : ℤ := (s.rsp.gpr (rs insn)).toNat + signExtend7 insn * 16

def quadStored (s : Sys) (quad : U32) (m : Bytes) : Bytes :=
  stored s (fun j => vectorAddress s.rsp quad 4 + BitVec.ofNat 32 j) 16
    (fun j v => vectorByte v (rt quad) j) m

theorem quadStored_at (m : Bytes) {j : ℕ} (inside : j < 16) :
    quadStored s quad m (wrapped (quadAddress s quad + j)) =
      vectorByte s.rsp.vector (rt quad) j := by
  have at_ (i : ℕ) := wrapped_add s.rsp quad i
  unfold quadStored stored quadAddress
  rw [← at_ j]
  apply fill_at_of_injective inside
  intro i lt same
  rw [at_, at_] at same
  exact wrapped_inj _ (by omega) (by omega) same

theorem quadStored_other (m : Bytes) {k : ℕ}
    (apart : ∀ j : ℕ, j < 16 → wrapped (quadAddress s quad + j) ≠ k) :
    quadStored s quad m k = m k := by
  apply fill_other
  intro j lt
  rw [wrapped_add]
  exact apart j lt

theorem QuadPair.stores (p : QuadPair quad rest) (ops : op quad = 0x3A ∧ op rest = 0x3A)
    (s : Sys) :
    let t := execute (execute s quad) rest
    t.rsp.dmem = quadStored s quad s.rsp.dmem ∧
      t.bus.spDmem = quadStored s quad s.bus.spDmem := by
  rw [(execute_vector s).2 ops.1, (execute_vector _).2 ops.2, p.transfer]
  obtain ⟨rsp, bus⟩ := storeLoop_eq s (fun j => vectorAddress s.rsp quad 4 + BitVec.ofNat 32 j) 16
    (fun j v => vectorByte v (rt quad) j)
  exact ⟨congrArg Rsp.dmem rsp, bus⟩

theorem QuadPair.loads (p : QuadPair quad rest) (ops : op quad = 0x32 ∧ op rest = 0x32)
    (s : Sys) :
    let t := execute (execute s quad) rest
    (∀ j : ℕ, j < 16 → vectorByte t.rsp.vector (rt quad) j =
        s.rsp.dmem (wrapped (quadAddress s quad + j))) ∧
      ∀ q, q ≠ rt quad → t.rsp.vector.vpr q = s.rsp.vector.vpr q := by
  rw [(execute_vector s).1 ops.1, (execute_vector _).1 ops.2, p.transfer, transferBytes_load]
  have cells := byteCells (rt quad) (n := 16) id fun i hi j hj same => by
    simpa [Nat.mod_eq_of_lt hi, Nat.mod_eq_of_lt hj] using same
  constructor
  · intro j inside
    rw [quadAddress, ← wrapped_add]
    exact cells.loaded inside
  · intro q apart
    rw [loadLoop_eq]
    apply upTo_untouched (fun v : VectorUnit => v.vpr q)
    intro j _ v
    exact Function.update_of_ne apart _ _

/-- SQV and SRV store sixteen bytes at consecutive offsets and no other, LQV
and LRV load them in order, and a load after the store restores the register. -/
theorem unaligned_quad (sq sr lq lr : U32) (stores : QuadPair sq sr) (loads : QuadPair lq lr)
    (storeOps : op sq = 0x3A ∧ op sr = 0x3A) (loadOps : op lq = 0x32 ∧ op lr = 0x32)
    (base : rs lq = rs sq) (offset : signExtend7 lq = signExtend7 sq) (s : Sys) :
    let a := quadAddress s sq
    let t := execute (execute s sq) sr
    (∀ j : ℕ, j < 16 → t.rsp.dmem (wrapped (a + j)) = vectorByte s.rsp.vector (rt sq) j ∧
      t.bus.spDmem (wrapped (a + j)) = vectorByte s.rsp.vector (rt sq) j) ∧
    (∀ k, (∀ j : ℕ, j < 16 → wrapped (a + j) ≠ k) →
      t.rsp.dmem k = s.rsp.dmem k ∧ t.bus.spDmem k = s.bus.spDmem k) ∧
    (∀ u : Sys, u.rsp.gpr = s.rsp.gpr →
      let l := execute (execute u lq) lr
      (∀ j : ℕ, j < 16 →
        vectorByte l.rsp.vector (rt lq) j = u.rsp.dmem (wrapped (a + j))) ∧
      (∀ q, q ≠ rt lq → l.rsp.vector.vpr q = u.rsp.vector.vpr q) ∧
      (u.rsp.dmem = t.rsp.dmem → l.rsp.vector.vpr (rt lq) = s.rsp.vector.vpr (rt sq))) := by
  intro a t
  obtain ⟨dmem, bus⟩ := stores.stores storeOps s
  refine ⟨?_, ?_, ?_⟩
  · intro j inside
    rw [dmem, bus]
    exact ⟨quadStored_at _ inside, quadStored_at _ inside⟩
  · intro k apart
    rw [dmem, bus]
    exact ⟨quadStored_other _ apart, quadStored_other _ apart⟩
  · intro u same l
    obtain ⟨bytes, others⟩ := loads.loads loadOps u
    have address : quadAddress u lq = a := by
      show (u.rsp.gpr (rs lq)).toNat + signExtend7 lq * 16 = quadAddress s sq
      rw [same, base, offset]
      rfl
    rw [address] at bytes
    refine ⟨bytes, others, fun kept => vpr_eq_of_bytes fun j inside => ?_⟩
    rw [bytes j inside, kept, dmem]
    exact quadStored_at _ inside

def lowBase : Sys :=
  { rsp.gpr := fun r => if r = 2 then 5 else 0, rsp.vector.vpr := fun _ _ => 0xABCD }

/-- An offset of minus one wraps to the end of DMEM. -/
theorem unaligned_quad_wrapping :
    (execute (execute lowBase 0xE841207F) 0xE8412800).rsp.dmem 4085 = 0xAB := by
  have byte := (unaligned_quad 0xE841207F 0xE8412800 0xC843207F 0xC8432800
    ⟨rfl, rfl, rfl, rfl, rfl, rfl, by decide⟩ ⟨rfl, rfl, rfl, rfl, rfl, rfl, by decide⟩
    ⟨rfl, rfl⟩ ⟨rfl, rfl⟩ rfl rfl lowBase).1 0 (by decide)
  have address : wrapped (quadAddress lowBase 0xE841207F + (0 : ℕ)) = 4085 := by decide
  rw [address] at byte
  exact byte.1.trans (by decide)

end Quad

end N64.Rsp
