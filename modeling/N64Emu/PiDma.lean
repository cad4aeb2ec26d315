import Mathlib.Data.Nat.ModEq
import N64Emu.PeripheralDma
import N64Emu.Fills
import N64Emu.LowMasks

/-!
# Transfers of the PI

What a transfer between the cartridge and RDRAM stores, byte by byte, and two
transfers in a row as one of the sum of their lengths.
-/

set_option autoImplicit false

namespace N64.Pi

open Words Loops Fills

section Cells

variable (b : Bus) (dram cart : U32)

def rdramCell (i : ℕ) : Option (ℕ × U8) :=
  if b.rdramSize = 0 then none
  else some ((dram + BitVec.ofNat 32 i).toNat % b.rdramSize,
    b.cartReadByte (cart + BitVec.ofNat 32 i))

def cartCell (i : ℕ) : Option (ℕ × U8) :=
  if Bus.cartOffset (cart + BitVec.ofNat 32 i) < b.cartSize then
    some (Bus.cartOffset (cart + BitVec.ofNat 32 i), b.rdramByte (dram + BitVec.ofNat 32 i))
  else none

def AsideRdram (c : Bus) : Prop :=
  c.cart = b.cart ∧ c.cartSize = b.cartSize ∧ c.rdramSize = b.rdramSize

def AsideCart (c : Bus) : Prop :=
  c.rdram = b.rdram ∧ c.cartSize = b.cartSize ∧ c.rdramSize = b.rdramSize

variable {b dram cart}

theorem rdramCell_congr {c : Bus} (aside : AsideRdram b c) :
    rdramCell c dram cart = rdramCell b dram cart := by
  funext i
  unfold rdramCell Bus.cartReadByte
  rw [aside.1, aside.2.1, aside.2.2]

theorem cartCell_congr {c : Bus} (aside : AsideCart b c) :
    cartCell c dram cart = cartCell b dram cart := by
  funext i
  unfold cartCell Bus.rdramByte
  rw [aside.1, aside.2.1, aside.2.2]

theorem rdramCell_add (n i : ℕ) :
    rdramCell b (dram + BitVec.ofNat 32 n) (cart + BitVec.ofNat 32 n) i =
      rdramCell b dram cart (n + i) := by
  unfold rdramCell
  rw [BitVec.add_assoc, BitVec.add_assoc, ← BitVec.ofNat_add]

theorem cartCell_add (n i : ℕ) :
    cartCell b (dram + BitVec.ofNat 32 n) (cart + BitVec.ofNat 32 n) i =
      cartCell b dram cart (n + i) := by
  unfold cartCell
  rw [BitVec.add_assoc, BitVec.add_assoc, ← BitVec.ofNat_add]

end Cells

section Lengths

variable (len : U32)

def transferLength : ℕ := len.toNat % 2 ^ 24 + 1

theorem transferLength_eq :
    (((len &&& 0x00FFFFFF) &&& 0x00FFFFFF) + 1).toNat = transferLength len := by
  have low (x : U32) : (x &&& 0x00FFFFFF).toNat = x.toNat % 2 ^ 24 :=
    LowMasks.toNat_and_low (n := 24) x (by decide)
  have value : ((len &&& 0x00FFFFFF) &&& 0x00FFFFFF).toNat = len.toNat % 2 ^ 24 := by
    rw [low, low, Nat.mod_mod]
  have one : (1 : U32).toNat = 1 := rfl
  rw [BitVec.toNat_add, value, one]
  exact Nat.mod_eq_of_lt (by omega)

theorem transferLength_le : transferLength len ≤ 2 ^ 24 := by
  have low : len.toNat % 2 ^ 24 < 2 ^ 24 := Nat.mod_lt _ (by decide)
  exact low

theorem transferLength_ofNat {n : ℕ} (pos : 0 < n) (le : n ≤ 2 ^ 24) :
    transferLength (BitVec.ofNat 32 (n - 1)) = n := by
  unfold transferLength
  rw [BitVec.toNat_ofNat]
  omega

end Lengths

section Even

variable (x : U32)

theorem toNat_even : (x &&& ~~~1).toNat = x.toNat / 2 * 2 := LowMasks.toNat_andNot_low (n := 1) x

theorem even_add {n : ℕ} (even : n % 2 = 0) :
    ((x &&& ~~~1) + BitVec.ofNat 32 n) &&& ~~~1 = (x &&& ~~~1) + BitVec.ofNat 32 n := by
  apply BitVec.eq_of_toNat_eq
  rw [toNat_even, BitVec.toNat_add, toNat_even, BitVec.toNat_ofNat]
  omega

end Even

section Writes

variable (s : Sys) (len : U32)

def dramStart : U32 := s.bus.pi.dramAddr &&& ~~~1
def cartStart : U32 := s.bus.pi.cartAddr &&& ~~~1

def Advanced (r : Sys) : Prop :=
  r.bus.pi.dramAddr = dramStart s + BitVec.ofNat 32 (transferLength len) ∧
    r.bus.pi.cartAddr = cartStart s + BitVec.ofNat 32 (transferLength len)

theorem length_ofNat :
    ((len &&& 0x00FFFFFF) &&& 0x00FFFFFF) + 1 = BitVec.ofNat 32 (transferLength len) := by
  rw [← transferLength_eq, BitVec.ofNat_toNat, BitVec.setWidth_eq]

/-- A state whose RDRAM is `m` and whose other bytes are those of `b`. -/
def RdramIs (b : Bus) (t : Sys) (m : Bytes) : Prop := t.bus.rdram = m ∧ AsideRdram b t.bus

def CartIs (b : Bus) (t : Sys) (m : Bytes) : Prop := t.bus.cart = m ∧ AsideCart b t.bus

theorem rdramIs_pass {b : Bus} {t : Sys} {m : Bytes} (i : ℕ) (h : RdramIs b t m)
    (dram cart : U32) :
    RdramIs b (t.setRdramByte (dram + BitVec.ofNat 32 i)
      (t.bus.cartReadByte (cart + BitVec.ofNat 32 i))) (put (rdramCell b dram cart i) m) := by
  obtain ⟨rfl, aside⟩ := h
  rw [← rdramCell_congr aside]
  unfold Sys.setRdramByte rdramCell
  split_ifs
  · exact ⟨rfl, aside⟩
  · exact ⟨rfl, aside⟩

theorem cartIs_pass {b : Bus} {t : Sys} {m : Bytes} (i : ℕ) (h : CartIs b t m)
    (dram cart : U32) :
    CartIs b (t.cartWriteByte (cart + BitVec.ofNat 32 i)
      (t.bus.rdramByte (dram + BitVec.ofNat 32 i))) (put (cartCell b dram cart i) m) := by
  obtain ⟨rfl, aside⟩ := h
  rw [← cartCell_congr aside]
  unfold Sys.cartWriteByte cartCell
  split_ifs
  · exact ⟨rfl, aside⟩
  · exact ⟨rfl, aside⟩

def toRdram (n : ℕ) (t : Sys) : Sys :=
  upTo (fun i t => t.setRdramByte (dramStart s + BitVec.ofNat 32 i)
    (t.bus.cartReadByte (cartStart s + BitVec.ofNat 32 i))) n t

def toCart (n : ℕ) (t : Sys) : Sys :=
  upTo (fun i t => t.cartWriteByte (cartStart s + BitVec.ofNat 32 i)
    (t.bus.rdramByte (dramStart s + BitVec.ofNat 32 i))) n t

theorem notify_bus (t : Sys) (p : PhysicalAddress) (n : U32) :
    (t.notifyMemoryWrite p n).bus = t.bus := by
  unfold Sys.notifyMemoryWrite
  split <;> rfl

theorem rdLen_eq : write s 0x08 len =
    let n := BitVec.ofNat 32 (transferLength len)
    advance ((toRdram s (transferLength len)
      (setDmaBusy { s with bus.pi.rdLen := len &&& 0x00FFFFFF })).notifyMemoryWrite (dramStart s) n)
      (dramStart s) (cartStart s) n := by
  rw [← length_ofNat, ← transferLength_eq]
  rfl

theorem wrLen_eq : write s 0x0C len =
    let n := BitVec.ofNat 32 (transferLength len)
    advance
      (toCart s (transferLength len)
        (setDmaBusy { s with bus.pi.wrLen := len &&& 0x00FFFFFF })) (dramStart s) (cartStart s)
      n := by
  rw [← length_ofNat, ← transferLength_eq]
  rfl

theorem rdLen_write :
    RdramIs s.bus (write s 0x08 len)
        (puts (rdramCell s.bus (dramStart s) (cartStart s)) (transferLength len) s.bus.rdram) ∧
      Advanced s len (write s 0x08 len) := by
  have loop : RdramIs s.bus
      (toRdram s (transferLength len) (setDmaBusy { s with bus.pi.rdLen := len &&& 0x00FFFFFF }))
      (puts (rdramCell s.bus (dramStart s) (cartStart s)) (transferLength len) s.bus.rdram) :=
    upTo_sim (RdramIs s.bus) _ ⟨rfl, rfl, rfl, rfl⟩ fun i _ t m h => rdramIs_pass i h _ _
  rw [rdLen_eq]
  unfold RdramIs at loop ⊢
  rw [← notify_bus _ (dramStart s) (BitVec.ofNat 32 (transferLength len))] at loop
  exact ⟨loop, rfl, rfl⟩

theorem wrLen_write :
    CartIs s.bus (write s 0x0C len)
        (puts (cartCell s.bus (dramStart s) (cartStart s)) (transferLength len) s.bus.cart) ∧
      Advanced s len (write s 0x0C len) := by
  have loop : CartIs s.bus
      (toCart s (transferLength len) (setDmaBusy { s with bus.pi.wrLen := len &&& 0x00FFFFFF }))
      (puts (cartCell s.bus (dramStart s) (cartStart s)) (transferLength len) s.bus.cart) :=
    upTo_sim (CartIs s.bus) _ ⟨rfl, rfl, rfl, rfl⟩ fun i _ t m h => cartIs_pass i h _ _
  rw [wrLen_eq]
  exact ⟨loop, rfl, rfl⟩

end Writes

section Chain

variable {s : Sys} {a b : U32}

theorem advanced_start {t : Sys} (even : transferLength a % 2 = 0) (moved : Advanced s a t) :
    dramStart t = dramStart s + BitVec.ofNat 32 (transferLength a) ∧
      cartStart t = cartStart s + BitVec.ofNat 32 (transferLength a) := by
  constructor
  · exact (congrArg (· &&& ~~~1) moved.1).trans (even_add s.bus.pi.dramAddr even)
  · exact (congrArg (· &&& ~~~1) moved.2).trans (even_add s.bus.pi.cartAddr even)

def jointLength (a b : U32) : U32 := BitVec.ofNat 32 (transferLength a + transferLength b - 1)

theorem transferLength_joint (fits : transferLength a + transferLength b ≤ 2 ^ 24) :
    transferLength (jointLength a b) = transferLength a + transferLength b :=
  transferLength_ofNat (Nat.add_pos_left (Nat.succ_pos _) _) fits

theorem Advanced.chain {t u : Sys} (even : transferLength a % 2 = 0)
    (fits : transferLength a + transferLength b ≤ 2 ^ 24) (first : Advanced s a t)
    (second : Advanced t b u) : Advanced s (jointLength a b) u := by
  obtain ⟨dram, cart⟩ := advanced_start even first
  unfold Advanced at second ⊢
  rw [dram, cart, BitVec.add_assoc, BitVec.add_assoc, ← BitVec.ofNat_add] at second
  rw [transferLength_joint fits]
  exact second

theorem rdLen_chain (even : transferLength a % 2 = 0)
    (fits : transferLength a + transferLength b ≤ 2 ^ 24) :
    RdramIs s.bus (write (write s 0x08 a) 0x08 b)
        (puts (rdramCell s.bus (dramStart s) (cartStart s)) (transferLength (jointLength a b))
          s.bus.rdram) ∧
      Advanced s (jointLength a b) (write (write s 0x08 a) 0x08 b) := by
  obtain ⟨⟨first, aside⟩, moved⟩ := rdLen_write s a
  obtain ⟨⟨second, aside'⟩, moved'⟩ := rdLen_write (write s 0x08 a) b
  obtain ⟨dram, cart⟩ := advanced_start even moved
  refine ⟨⟨?_, aside'.1.trans aside.1, aside'.2.1.trans aside.2.1, aside'.2.2.trans aside.2.2⟩,
    moved.chain even fits moved'⟩
  rw [second, first, rdramCell_congr aside, dram, cart, transferLength_joint fits, puts_add]
  congr 1
  funext i
  exact rdramCell_add _ i

theorem wrLen_chain (even : transferLength a % 2 = 0)
    (fits : transferLength a + transferLength b ≤ 2 ^ 24) :
    CartIs s.bus (write (write s 0x0C a) 0x0C b)
        (puts (cartCell s.bus (dramStart s) (cartStart s)) (transferLength (jointLength a b))
          s.bus.cart) ∧
      Advanced s (jointLength a b) (write (write s 0x0C a) 0x0C b) := by
  obtain ⟨⟨first, aside⟩, moved⟩ := wrLen_write s a
  obtain ⟨⟨second, aside'⟩, moved'⟩ := wrLen_write (write s 0x0C a) b
  obtain ⟨dram, cart⟩ := advanced_start even moved
  refine ⟨⟨?_, aside'.1.trans aside.1, aside'.2.1.trans aside.2.1, aside'.2.2.trans aside.2.2⟩,
    moved.chain even fits moved'⟩
  rw [second, first, cartCell_congr aside, dram, cart, transferLength_joint fits, puts_add]
  congr 1
  funext i
  exact cartCell_add _ i

end Chain

section Exact

variable (b : Bus) (dram cart : U32) {n : ℕ}

theorem rdramCell_eq (nonzero : b.rdramSize ≠ 0) {i : ℕ} (room : dram.toNat + i < 2 ^ 32) :
    rdramCell b dram cart i =
      Option.some ((dram.toNat + i) % b.rdramSize, b.cartReadByte (cart + BitVec.ofNat 32 i)) := by
  have sum : (dram + BitVec.ofNat 32 i).toNat = dram.toNat + i := by
    rw [BitVec.toNat_add, BitVec.toNat_ofNat]
    omega
  unfold rdramCell
  rw [if_neg nonzero, sum]

theorem residue_inj {d size i j : ℕ} (hi : i < size) (hj : j < size)
    (same : (d + i) % size = (d + j) % size) : i = j :=
  Nat.ModEq.eq_of_lt_of_lt (Nat.ModEq.add_left_cancel' d same) hi hj

theorem cartOffset_eq (a : U32) :
    Bus.cartOffset a = if 2 ^ 28 ≤ a.toNat then a.toNat - 2 ^ 28 else a.toNat := by
  have base : CART_DOM1_BASE.toNat = 2 ^ 28 := rfl
  have bound := a.isLt
  unfold Bus.cartOffset
  by_cases above : 2 ^ 28 ≤ a.toNat
  · rw [if_pos above, if_pos (show a.toNat ≥ 0x10000000 from above), BitVec.toNat_sub, base]
    omega
  · rw [if_neg above, if_neg (show ¬ a.toNat ≥ 0x10000000 from above)]

variable {b dram cart} in
theorem cartCell_some {i k : ℕ} {v : U8} (here : cartCell b dram cart i = some (k, v)) :
    Bus.cartOffset (cart + BitVec.ofNat 32 i) < b.cartSize ∧
      Bus.cartOffset (cart + BitVec.ofNat 32 i) = k := by
  unfold cartCell at here
  split_ifs at here with inside
  exact ⟨inside, congrArg Prod.fst (Option.some.inj here)⟩

/-- A window of the cartridge bus no longer than a transfer meets no byte twice. -/
theorem cartOffset_inj {cart : U32} {i j : ℕ} (hi : i < 2 ^ 24) (hj : j < 2 ^ 24)
    (same : Bus.cartOffset (cart + BitVec.ofNat 32 i) = Bus.cartOffset (cart + BitVec.ofNat 32 j)) :
    i = j := by
  have bound := cart.isLt
  rw [cartOffset_eq, cartOffset_eq, BitVec.toNat_add, BitVec.toNat_add, BitVec.toNat_ofNat,
    BitVec.toNat_ofNat] at same
  split_ifs at same <;> omega

theorem rdram_exact (fits : n ≤ b.rdramSize) (room : dram.toNat + n ≤ 2 ^ 32) :
    (∀ i < n, puts (rdramCell b dram cart) n b.rdram ((dram.toNat + i) % b.rdramSize) =
      b.cartReadByte (cart + BitVec.ofNat 32 i)) ∧
    ∀ k, (∀ i < n, (dram.toNat + i) % b.rdramSize ≠ k) →
      puts (rdramCell b dram cart) n b.rdram k = b.rdram k := by
  have cell {i : ℕ} (lt : i < n) := rdramCell_eq b dram cart
    (show b.rdramSize ≠ 0 by omega) (show dram.toNat + i < 2 ^ 32 by omega)
  constructor
  · intro i lt
    refine puts_at lt (cell lt) fun j inside other v here => other ?_
    rw [cell inside] at here
    exact residue_inj (by omega) (by omega) (congrArg Prod.fst (Option.some.inj here))
  · intro k apart
    refine puts_other fun i lt v here => apart i lt ?_
    rw [cell lt] at here
    exact congrArg Prod.fst (Option.some.inj here)

theorem cart_exact (short : n ≤ 2 ^ 24) :
    (∀ i < n, Bus.cartOffset (cart + BitVec.ofNat 32 i) < b.cartSize →
      puts (cartCell b dram cart) n b.cart (Bus.cartOffset (cart + BitVec.ofNat 32 i)) =
        b.rdramByte (dram + BitVec.ofNat 32 i)) ∧
    ∀ k, (∀ i < n, Bus.cartOffset (cart + BitVec.ofNat 32 i) < b.cartSize →
      Bus.cartOffset (cart + BitVec.ofNat 32 i) ≠ k) →
      puts (cartCell b dram cart) n b.cart k = b.cart k := by
  constructor
  · intro i lt inside
    refine puts_at lt (if_pos inside) fun j hj other v here => other ?_
    exact cartOffset_inj (by omega) (by omega) (cartCell_some here).2
  · intro k apart
    refine puts_other fun i lt v here => ?_
    exact apart i lt (cartCell_some here).1 (cartCell_some here).2

end Exact

section Program

def program (s : Sys) (dram cart : U32) : Sys := write (write s 0x00 dram) 0x04 cart

/-- The RDRAM address a transfer starts at: 24 bits, rounded down to even. -/
def programmedDram (dram : U32) : ℕ := dram.toNat % 2 ^ 24 / 2 * 2

def programmedCart (cart : U32) : U32 := BitVec.ofNat 32 (cart.toNat / 2 * 2)

theorem dramStart_program (s : Sys) (dram cart : U32) :
    (dramStart (program s dram cart)).toNat = programmedDram dram := by
  have low : (dram &&& 0x00FFFFFF).toNat = dram.toNat % 2 ^ 24 :=
    LowMasks.toNat_and_low (n := 24) dram (by decide)
  exact (toNat_even (dram &&& 0x00FFFFFF)).trans (by rw [low, programmedDram])

theorem cartStart_program (s : Sys) (dram cart : U32) :
    cartStart (program s dram cart) = programmedCart cart := by
  have even : cart &&& ~~~1 = BitVec.ofNat 32 (cart.toNat / 2 * 2) := by
    rw [← toNat_even, BitVec.ofNat_toNat, BitVec.setWidth_eq]
  exact even

/-- The bytes a transfer of `n` bytes to RDRAM stores, and no other. -/
structure ToRdram (b c : Bus) (dram : ℕ) (cart : U32) (n : ℕ) : Prop where
  stored : ∀ i < n, c.rdram ((dram + i) % b.rdramSize) = b.cartReadByte (cart + BitVec.ofNat 32 i)
  others : ∀ k, (∀ i < n, (dram + i) % b.rdramSize ≠ k) → c.rdram k = b.rdram k
  cartridge : c.cart = b.cart

/-- The bytes a transfer of `n` bytes to the cartridge stores, and no other. -/
structure ToCart (b c : Bus) (dram : ℕ) (cart : U32) (n : ℕ) : Prop where
  stored : ∀ i < n, Bus.cartOffset (cart + BitVec.ofNat 32 i) < b.cartSize →
    c.cart (Bus.cartOffset (cart + BitVec.ofNat 32 i)) = b.rdram ((dram + i) % b.rdramSize)
  others : ∀ k, (∀ i < n, Bus.cartOffset (cart + BitVec.ofNat 32 i) < b.cartSize →
    Bus.cartOffset (cart + BitVec.ofNat 32 i) ≠ k) → c.cart k = b.cart k
  memory : c.rdram = b.rdram

variable (s : Sys) (dram cart len : U32)

theorem to_rdram (fits : transferLength len ≤ s.bus.rdramSize) :
    ToRdram s.bus (write (program s dram cart) 0x08 len).bus (programmedDram dram)
      (programmedCart cart) (transferLength len) := by
  obtain ⟨⟨stored, aside⟩, -⟩ := rdLen_write (program s dram cart) len
  have start := dramStart_program s dram cart
  have low : dram.toNat % 2 ^ 24 < 2 ^ 24 := Nat.mod_lt _ (by decide)
  have short := transferLength_le len
  obtain ⟨written, others⟩ := rdram_exact (program s dram cart).bus
    (dramStart (program s dram cart)) (cartStart (program s dram cart)) fits
    (by rw [start, programmedDram]; omega)
  rw [← stored, start, cartStart_program] at written
  rw [← stored, start] at others
  exact ⟨written, others, aside.1⟩

theorem to_cart (fits : transferLength len ≤ s.bus.rdramSize) :
    ToCart s.bus (write (program s dram cart) 0x0C len).bus (programmedDram dram)
      (programmedCart cart) (transferLength len) := by
  obtain ⟨⟨stored, aside⟩, -⟩ := wrLen_write (program s dram cart) len
  obtain ⟨written, others⟩ := cart_exact (program s dram cart).bus
    (dramStart (program s dram cart)) (cartStart (program s dram cart)) (transferLength_le len)
  rw [← stored, cartStart_program] at written others
  refine ⟨fun i lt inside => (written i lt inside).trans ?_, others, aside.1⟩
  have short := transferLength_le len
  have low : dram.toNat % 2 ^ 24 < 2 ^ 24 := Nat.mod_lt _ (by decide)
  have sum : (dramStart (program s dram cart) + BitVec.ofNat 32 i).toNat =
      programmedDram dram + i := by
    rw [BitVec.toNat_add, dramStart_program, BitVec.toNat_ofNat, programmedDram]
    omega
  have nonzero : s.bus.rdramSize ≠ 0 := by omega
  unfold Bus.rdramByte
  rw [if_neg (show (program s dram cart).bus.rdramSize ≠ 0 from nonzero), sum]
  rfl

/-- Two transfers in a row leave what one of both lengths does. -/
def Alike (t u : Sys) : Prop :=
  t.bus.rdram = u.bus.rdram ∧ t.bus.cart = u.bus.cart ∧
    t.bus.pi.dramAddr = u.bus.pi.dramAddr ∧ t.bus.pi.cartAddr = u.bus.pi.cartAddr

theorem two_to_rdram {a b : U32} (even : transferLength a % 2 = 0)
    (fits : transferLength a + transferLength b ≤ 2 ^ 24) :
    Alike (write (write s 0x08 a) 0x08 b) (write s 0x08 (jointLength a b)) := by
  obtain ⟨⟨rdram, cart, -⟩, dramAddr, cartAddr⟩ := rdLen_chain (s := s) even fits
  obtain ⟨⟨rdram', cart', -⟩, dramAddr', cartAddr'⟩ := rdLen_write s (jointLength a b)
  exact ⟨rdram.trans rdram'.symm, cart.trans cart'.symm, dramAddr.trans dramAddr'.symm,
    cartAddr.trans cartAddr'.symm⟩

theorem two_to_cart {a b : U32} (even : transferLength a % 2 = 0)
    (fits : transferLength a + transferLength b ≤ 2 ^ 24) :
    Alike (write (write s 0x0C a) 0x0C b) (write s 0x0C (jointLength a b)) := by
  obtain ⟨⟨cart, rdram, -⟩, dramAddr, cartAddr⟩ := wrLen_chain (s := s) even fits
  obtain ⟨⟨cart', rdram', -⟩, dramAddr', cartAddr'⟩ := wrLen_write s (jointLength a b)
  exact ⟨rdram.trans rdram'.symm, cart.trans cart'.symm, dramAddr.trans dramAddr'.symm,
    cartAddr.trans cartAddr'.symm⟩

/-- A transfer stores exactly the bytes its addresses and its length name, and
two of them without new addresses are one. -/
theorem pi_dma_exact (s : Sys) :
    (∀ dram cart len : U32, transferLength len ≤ s.bus.rdramSize →
      ToRdram s.bus (write (program s dram cart) 0x08 len).bus (programmedDram dram)
        (programmedCart cart) (transferLength len) ∧
      ToCart s.bus (write (program s dram cart) 0x0C len).bus (programmedDram dram)
        (programmedCart cart) (transferLength len)) ∧
    ∀ a b : U32, transferLength a % 2 = 0 → transferLength a + transferLength b ≤ 2 ^ 24 →
      Alike (write (write s 0x08 a) 0x08 b) (write s 0x08 (jointLength a b)) ∧
      Alike (write (write s 0x0C a) 0x0C b) (write s 0x0C (jointLength a b)) := by
  constructor
  · intro dram cart len fits
    exact ⟨to_rdram s dram cart len fits, to_cart s dram cart len fits⟩
  · intro a b even fits
    exact ⟨two_to_rdram s even fits, two_to_cart s even fits⟩

def countingCart : Sys := { bus.cartSize := 16, bus.cart := fun k => BitVec.ofNat 8 k }

theorem pi_dma_exact_counting :
    (write (program countingCart 0x1001 0x10000009) 0x08 7).bus.rdram 0x1003 = 11 ∧
    (write (program countingCart 0x1001 0x10000009) 0x08 7).bus.rdram 0x1008 = 0 ∧
    (write (write (program countingCart 0x1001 0x10000009) 0x08 3) 0x08 2).bus.pi.dramAddr =
      0x1007 := by
  have counted := ((pi_dma_exact countingCart).1 0x1001 0x10000009 7 (by decide)).1
  have chained := ((pi_dma_exact (program countingCart 0x1001 0x10000009)).2 3 2
    (by decide) (by decide)).1
  refine ⟨counted.stored 3 (by decide), counted.others 0x1008 (by decide), ?_⟩
  exact chained.2.2.1.trans (by decide)

end Program

end N64.Pi
