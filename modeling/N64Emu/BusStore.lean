import N64Emu.BusBytes
import N64Emu.Overlay
import N64Emu.Runs

/-!
# The bus as a byte store

Outside the register windows the bus is a store of bytes in which every
address names at most one cell: RDRAM repeats itself up to the end of its
range, DMEM, IMEM and PIF RAM have one name each below the mask of the address.
After any writes of any width a byte reads as the last one written to its cell.
-/

set_option autoImplicit false

namespace N64

open Words CellStore

namespace Bus

def cellOf (rdramSize : ℕ) (addr : U32) : Option Cell :=
  let p := (physical addr).toNat
  if p < 0x03F00000 then if rdramSize ≠ 0 then some (.rdram (p % rdramSize)) else none
  else if 0x04000000 ≤ p ∧ p < 0x04001000 then some (.dmem (p - 0x04000000))
  else if 0x04001000 ≤ p ∧ p < 0x04002000 then some (.imem (p - 0x04001000))
  else if 0x1FC007C0 ≤ p ∧ p ≤ 0x1FC007FF then some (.pif (p - 0x1FC007C0))
  else none

def content (s : Sys) : Cell → U8
  | .rdram off => s.bus.rdram off
  | .dmem off => s.bus.spDmem off
  | .imem off => s.bus.spImem off
  | .cart off => s.bus.cart off
  | .pif off => s.pif.pifRam off

/-- A write of the control byte of PIF RAM that runs the joybus. -/
def Processes (rdramSize : ℕ) (w : U32 × U8) : Prop :=
  cellOf rdramSize w.1 = some (.pif 0x3F) ∧ w.2 &&& Pif.kCtrlProcess ≠ 0

inductive Store where
  | byte (addr : U32) (value : U8)
  | half (addr : U32) (value : U16)
  | word (addr : U32) (value : U32)
  | double (addr : U32) (value : U64)

namespace Store

def perform : Store → Sys → Sys
  | .byte addr value, s => write8 s addr value
  | .half addr value, s => write16 s addr value
  | .word addr value, s => write32 s addr value
  | .double addr value, s => write64 s addr value

def addr : Store → U32
  | .byte addr _ | .half addr _ | .word addr _ | .double addr _ => addr

def bytes : Store → List U8
  | .byte _ value => [value]
  | .half _ value => bigEndian16 value
  | .word _ value => bigEndian32 value
  | .double _ value => bigEndian64 value

def Plain (w : Store) : Prop :=
  w.bytes.length ∣ w.addr.toNat ∧ isMmioRegion (physical w.addr) = false

end Store

/-- The byte writes a list of bytes makes from an address on. -/
def placed (addr : U32) : List U8 → List (U32 × U8)
  | [] => []
  | b :: bs => (addr, b) :: placed (addr + 1) bs

def Store.placed (w : Store) : List (U32 × U8) := Bus.placed w.addr w.bytes

theorem content_same {s t : Sys} (same : s.Same t) : content s = content t := by
  rw [same.eq_record]
  funext c
  cases c <;> rfl

/-- What no write outside the register windows changes. -/
structure Fixed (s t : Sys) : Prop where
  rdramSize : t.bus.rdramSize = s.bus.rdramSize
  cartSize : t.bus.cartSize = s.bus.cartSize
  cart : t.bus.cart = s.bus.cart
  pifRomSize : t.bus.pifRomSize = s.bus.pifRomSize
  pifRom : t.bus.pifRom = s.bus.pifRom

theorem Fixed.refl (s : Sys) : Fixed s s := ⟨rfl, rfl, rfl, rfl, rfl⟩

theorem Fixed.trans {s t u : Sys} (h : Fixed s t) (k : Fixed t u) : Fixed s u :=
  ⟨k.rdramSize.trans h.rdramSize, k.cartSize.trans h.cartSize, k.cart.trans h.cart,
    k.pifRomSize.trans h.pifRomSize, k.pifRom.trans h.pifRom⟩

theorem Fixed.read8Const {s t : Sys} (h : Fixed s t) {addr : U32}
    (unnamed : cellOf s.bus.rdramSize addr = none) : read8Const t addr = read8Const s addr := by
  unfold cellOf at unnamed
  unfold Bus.read8Const
  dsimp only at unnamed ⊢
  split_ifs at unnamed with rdram present dmem imem pif
  · simp only [ne_eq, not_not] at present
    simp [rdram, present, h.rdramSize]
  · simp only [rdram, dmem, imem, pif, h.cart, h.cartSize, h.pifRom, h.pifRomSize, if_false]

/-- Bytes are written to the cells their addresses name; a process command may
change PIF RAM besides. -/
structure Stored (ws : List (U32 × U8)) (s t : Sys) : Prop where
  fixed : Fixed s t
  content : ∀ c, (∀ off, c = .pif off → ∀ w ∈ ws, ¬Processes s.bus.rdramSize w) →
    content t c = puts (cellOf s.bus.rdramSize) ws (content s) c

namespace Stored

theorem refl (s : Sys) : Stored [] s s := ⟨Fixed.refl s, fun _ _ => rfl⟩

theorem trans {vs ws : List (U32 × U8)} {s t u : Sys} (h : Stored vs s t) (k : Stored ws t u) :
    Stored (vs ++ ws) s u := by
  refine ⟨h.fixed.trans k.fixed, fun c quiet => ?_⟩
  have first : ∀ off, c = .pif off → ∀ w ∈ vs, ¬Processes s.bus.rdramSize w :=
    fun off pif w mem => quiet off pif w (List.mem_append_left ws mem)
  have second : ∀ off, c = .pif off → ∀ w ∈ ws, ¬Processes t.bus.rdramSize w :=
    fun off pif w mem => h.fixed.rdramSize ▸ quiet off pif w (List.mem_append_right vs mem)
  rw [k.content c second, puts_append, puts_apply, puts_apply, h.fixed.rdramSize,
    h.content c first]

theorem same {ws : List (U32 × U8)} {s t u : Sys} (h : Stored ws s t) (same : u.Same t) :
    Stored ws s u := by
  refine ⟨?_, fun c quiet => ?_⟩
  · rw [same.symm.eq_record]
    exact ⟨h.fixed.rdramSize, h.fixed.cartSize, h.fixed.cart, h.fixed.pifRomSize, h.fixed.pifRom⟩
  · rw [content_same same]
    exact h.content c quiet

theorem single {addr : U32} {v : U8} {s t : Sys} (fixed : Fixed s t) (named : Option Cell)
    (at_ : cellOf s.bus.rdramSize addr = named)
    (shown : ∀ c, (∀ off, c = .pif off → ¬Processes s.bus.rdramSize (addr, v)) →
      Bus.content t c = if named = some c then v else Bus.content s c) :
    Stored [(addr, v)] s t := by
  refine ⟨fixed, fun c quiet => ?_⟩
  have calm : ∀ off, c = .pif off → ¬Processes s.bus.rdramSize (addr, v) :=
    fun off pif => quiet off pif (addr, v) List.mem_cons_self
  rw [shown c calm, ← at_]
  exact (put_apply (addr, v) (Bus.content s) c).symm

end Stored

section Byte

theorem content_storePifRam (s : Sys) (off : ℕ) (v : U8) (c : Cell)
    (quiet : ∀ o, c = .pif o → ¬(off = 0x3F ∧ v &&& Pif.kCtrlProcess ≠ 0)) :
    content (storePifRam s off v) c = if some (Cell.pif off) = some c then v else content s c := by
  cases c with
  | pif o =>
    rw [storePifRam, if_neg (quiet o rfl)]
    simp [content, Sys.pokePif, Sys.pokeBusPif, Function.update_apply, eq_comm]
  | _ =>
    unfold storePifRam
    split <;> simp [content, Sys.pokePif, Sys.pokeBusPif, Sys.processJoybus, Sys.mirrorPif]

theorem fixed_storePifRam (s : Sys) (off : ℕ) (v : U8) : Fixed s (storePifRam s off v) := by
  unfold storePifRam
  split <;> exact ⟨rfl, rfl, rfl, rfl, rfl⟩

variable {addr : U32} (mmio : isMmioRegion (physical addr) = false)
include mmio

theorem write8_stored (s : Sys) (v : U8) : Stored [(addr, v)] s (write8 s addr v) := by
  by_cases rdram : (physical addr).toNat < 0x03F00000
  · by_cases present : s.bus.rdramSize ≠ 0
    · rw [write8_rdram mmio rfl s v rdram present]
      refine .single ⟨rfl, rfl, rfl, rfl, rfl⟩
        (some (.rdram ((physical addr).toNat % s.bus.rdramSize)))
        (by simp [cellOf, rdram, present]) ?_
      intro c _
      cases c <;> simp [content, Sys.pokeRdram, Sys.emit, Function.update_apply, eq_comm]
    · rw [write8_other mmio rfl s v (fun h => present h.2) (by omega) (by omega) (by omega)]
      refine .single ⟨rfl, rfl, rfl, rfl, rfl⟩ none
        (by simpa [cellOf, rdram] using present) ?_
      intro c _
      cases c <;> simp [content, Sys.emit]
  by_cases dmem : 0x04000000 ≤ (physical addr).toNat ∧ (physical addr).toNat < 0x04001000
  · rw [write8_dmem mmio rfl s v dmem]
    refine .single ⟨rfl, rfl, rfl, rfl, rfl⟩
      (some (.dmem ((physical addr).toNat - 0x04000000)))
      (by simp [cellOf, rdram, dmem]) ?_
    intro c _
    cases c <;> simp [content, storeDmem, Sys.pokeSpDmem, Sys.pokeRspDmem, Sys.emit,
      Function.update_apply, eq_comm]
  by_cases imem : 0x04001000 ≤ (physical addr).toNat ∧ (physical addr).toNat < 0x04002000
  · rw [write8_imem mmio rfl s v imem]
    refine .single ⟨rfl, rfl, rfl, rfl, rfl⟩
      (some (.imem ((physical addr).toNat - 0x04001000)))
      (by simp [cellOf, rdram, dmem, imem]) ?_
    intro c _
    cases c <;> simp [content, storeImem, Sys.pokeSpImem, Sys.pokeRspImem, Sys.emit,
      Function.update_apply, eq_comm]
  by_cases pif : 0x1FC007C0 ≤ (physical addr).toNat ∧ (physical addr).toNat ≤ 0x1FC007FF
  · rw [write8_pif mmio rfl s v pif]
    have named : cellOf s.bus.rdramSize addr =
        some (.pif ((physical addr).toNat - 0x1FC007C0)) := by
      simp [cellOf, rdram, dmem, imem, pif]
    have marked : Fixed s (s.emit (.notify (physical addr) 1)) := ⟨rfl, rfl, rfl, rfl, rfl⟩
    refine .single (marked.trans (fixed_storePifRam _ _ v)) _ named ?_
    intro c quiet
    refine content_storePifRam (s.emit _) _ v c fun o same => ?_
    rintro ⟨control, flag⟩
    exact quiet o same ⟨named.trans (by rw [control]), flag⟩
  · rw [write8_other mmio rfl s v (fun h => rdram h.1) dmem imem pif]
    refine .single ⟨rfl, rfl, rfl, rfl, rfl⟩ none
      (by simp [cellOf, rdram, dmem, imem, pif]) ?_
    intro c _
    cases c <;> simp [content, Sys.emit]

end Byte

theorem writeBytes_stored {n : ℕ} {addr : U32} (bs : List U8) (short : bs.length ≤ n)
    (mmio : ∀ i, i < n → isMmioRegion (physical (addr + BitVec.ofNat 32 i)) = false) (s : Sys) :
    Stored (placed addr bs) s (writeBytes s addr bs) := by
  induction bs generalizing n addr s with
  | nil => exact Stored.refl s
  | cons b bs ih =>
    rw [List.length_cons] at short
    have head : isMmioRegion (physical addr) = false := by simpa using mmio 0 (by omega)
    have tail : ∀ i, i < n - 1 →
        isMmioRegion (physical (addr + 1 + BitVec.ofNat 32 i)) = false := fun i hi => by
      have later := mmio (1 + i) (by omega)
      rwa [BitVec.ofNat_add, ← BitVec.add_assoc] at later
    exact (write8_stored head s b).trans (ih (by omega) tail _)

theorem Store.stored (w : Store) (plain : w.Plain) (s : Sys) :
    Stored w.placed s (w.perform s) := by
  obtain ⟨aligned, mmio⟩ := plain
  have covered (n : ℕ) (block : w.addr.toNat % 16 + n ≤ 16) (short : w.bytes.length ≤ n) :
      Stored w.placed s (writeBytes s w.addr w.bytes) :=
    writeBytes_stored w.bytes short (fun i hi => isMmioRegion_add i (by omega) mmio) s
  cases w with
  | byte addr v => exact write8_stored mmio s v
  | half addr v =>
    have even : 2 ∣ addr.toNat := aligned
    have block : addr.toNat % 16 + 2 ≤ 16 := by omega
    exact (covered 2 block (Nat.le_refl 2)).same (write16_same s mmio block v)
  | word addr v =>
    have even : 4 ∣ addr.toNat := aligned
    have block : addr.toNat % 16 + 4 ≤ 16 := by omega
    exact (covered 4 block (Nat.le_refl 4)).same (write32_same s mmio block v)
  | double addr v =>
    have even : 8 ∣ addr.toNat := aligned
    have block : addr.toNat % 16 + 8 ≤ 16 := by omega
    exact (covered 8 block (Nat.le_refl 8)).same (write64_same s mmio block v)

def history (ws : List Store) : List (U32 × U8) := ws.flatMap Store.placed

end Bus

end N64
