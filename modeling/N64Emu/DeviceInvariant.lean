import N64Emu.RspFrame

/-!
# Invariants of the devices

What every register block, memory store and RSP step preserves is preserved
by every typed access of the bus.
-/

set_option autoImplicit false

namespace N64

open Words

/-- What drives the devices between two resets: accesses of the bus at any
address and width, register accesses and RSP steps. -/
inductive DeviceAct where
  | read8 (addr : U32)
  | read16 (addr : U32)
  | read32 (addr : U32)
  | read64 (addr : U32)
  | write8 (addr : U32) (value : U8)
  | write16 (addr : U32) (value : U16)
  | write32 (addr : U32) (value : U32)
  | write64 (addr : U32) (value : U64)
  | spWrite (offset value : U32)
  | spWritePc (offset value : U32)
  | dpWrite (offset value : U32)
  | piWrite (offset value : U32)
  | siWrite (offset value : U32)
  | rspStep

def DeviceAct.perform : DeviceAct → Sys → Sys
  | .read8 addr, s => (Bus.read8 s addr).2
  | .read16 addr, s => (Bus.read16 s addr).2
  | .read32 addr, s => (Bus.read32 s addr).2
  | .read64 addr, s => (Bus.read64 s addr).2
  | .write8 addr value, s => Bus.write8 s addr value
  | .write16 addr value, s => Bus.write16 s addr value
  | .write32 addr value, s => Bus.write32 s addr value
  | .write64 addr value, s => Bus.write64 s addr value
  | .spWrite offset value, s => SpRegs.write s offset value
  | .spWritePc offset value, s => SpRegs.writePc s offset value
  | .dpWrite offset value, s => DpRegs.write s offset value
  | .piWrite offset value, s => Pi.write s offset value
  | .siWrite offset value, s => Si.write s offset value
  | .rspStep, s => Rsp.step s

/-- `P` survives every change a bus access can start. -/
structure DeviceInvariant (P : Sys → Prop) : Prop where
  unwatched : ∀ {s t}, Frame [] s t → P s → P t
  spWrite : ∀ {s} offset value, P s → P (SpRegs.write s offset value)
  dpWrite : ∀ {s} offset value, P s → P (DpRegs.write s offset value)
  miWrite : ∀ {s} offset value, P s → P (Mi.write s offset value)
  viWrite : ∀ {s} offset value, P s → P (Vi.write s offset value)
  aiWrite : ∀ {s} offset value, P s → P (Ai.write s offset value)
  piWrite : ∀ {s} offset value, P s → P (Pi.write s offset value)
  siWrite : ∀ {s} offset value, P s → P (Si.write s offset value)
  storeDmem : ∀ {s} off b, P s → P (Bus.storeDmem s off b)
  storeImem : ∀ {s} off b, P s → P (Bus.storeImem s off b)
  storePifRam : ∀ {s} off b, P s → P (Bus.storePifRam s off b)

namespace DeviceInvariant

variable {P : Sys → Prop} (inv : DeviceInvariant P) {s : Sys}
include inv

theorem read8 (addr : U32) (h : P s) : P (Bus.read8 s addr).2 :=
  inv.unwatched (frame_read8 s addr) h

theorem read16 (addr : U32) (h : P s) : P (Bus.read16 s addr).2 :=
  inv.unwatched (frame_read16 s addr) h

theorem read32 (addr : U32) (h : P s) : P (Bus.read32 s addr).2 :=
  inv.unwatched (frame_read32 s addr) h

theorem read64 (addr : U32) (h : P s) : P (Bus.read64 s addr).2 :=
  inv.unwatched (frame_read64 s addr) h

theorem writeMmio32 (p : PhysicalAddress) (value : U32) (h : P s) :
    P (Bus.writeMmio32 s p value) := by
  simp only [Bus.writeMmio32]
  split_ifs
  · exact inv.spWrite _ value h
  · exact inv.unwatched (frame_spWritePc s _ value) h
  · exact inv.dpWrite _ value h
  · exact inv.miWrite _ value h
  · exact inv.viWrite _ value h
  · exact inv.aiWrite _ value h
  · exact inv.piWrite _ value h
  · exact inv.unwatched (frame_setRi s _) h
  · exact inv.siWrite _ value h
  · exact h

theorem modifyMmio32 (p : PhysicalAddress) (value : U32) (h : P s) :
    P (Bus.writeMmio32 (Bus.readMmio32 s p).2 p value) :=
  inv.writeMmio32 p value (inv.unwatched (frame_readMmio32 s p) h)

theorem notify (p : PhysicalAddress) (n : U32) (h : P s) : P (s.notifyMemoryWrite p n) :=
  inv.unwatched (frame_notifyMemoryWrite s p n) h

omit inv in
theorem storeBytes {poke : Sys → ℕ → U8 → Sys} (each : ∀ {t} off b, P t → P (poke t off b))
    (off : ℕ) (bs : List U8) (h : P s) : P (Sys.storeBytes poke s off bs) := by
  induction bs generalizing s off with
  | nil => exact h
  | cons b bs ih => exact ih _ (each off b h)

theorem rdramBytes (off : ℕ) (bs : List U8) (h : P s) :
    P (Sys.storeBytes Sys.pokeRdram s off bs) :=
  DeviceInvariant.storeBytes (fun o b k => inv.unwatched (frame_pokeRdram _ o b) k) off bs h

theorem write8 (addr : U32) (value : U8) (h : P s) : P (Bus.write8 s addr value) := by
  have marked := inv.notify (Bus.physical addr) 1 h
  simp only [Bus.write8]
  split_ifs
  · exact inv.modifyMmio32 _ _ marked
  · exact inv.unwatched (frame_pokeRdram _ _ _) marked
  · exact marked
  · exact inv.storeDmem _ _ marked
  · exact inv.storeImem _ _ marked
  · exact inv.storePifRam _ _ marked
  · exact marked

theorem write16 (addr : U32) (value : U16) (h : P s) : P (Bus.write16 s addr value) := by
  have marked := inv.notify (Bus.physical addr) 2 h
  simp only [Bus.write16]
  split_ifs
  · exact inv.modifyMmio32 _ _ marked
  · exact inv.modifyMmio32 _ _ marked
  · exact inv.rdramBytes _ _ marked
  · exact DeviceInvariant.storeBytes inv.storeDmem _ _ marked
  · exact inv.write8 _ _ (inv.write8 _ _ marked)

theorem write32 (addr : U32) (value : U32) (h : P s) : P (Bus.write32 s addr value) := by
  have marked := inv.notify (Bus.physical addr) 4 h
  simp only [Bus.write32]
  split_ifs
  · exact inv.writeMmio32 _ _ marked
  · exact inv.rdramBytes _ _ marked
  · exact DeviceInvariant.storeBytes inv.storeDmem _ _ marked
  · exact DeviceInvariant.storeBytes inv.storeImem _ _ marked
  · exact inv.write8 _ _ (inv.write8 _ _ (inv.write8 _ _ (inv.write8 _ _ marked)))

theorem write64 (addr : U32) (value : U64) (h : P s) : P (Bus.write64 s addr value) := by
  have marked := inv.notify (Bus.physical addr) 8 h
  simp only [Bus.write64]
  split_ifs
  · exact inv.rdramBytes _ _ marked
  · exact inv.write32 _ _ (inv.write32 _ _ marked)

theorem perform (rspStep : ∀ s, P s → P (Rsp.step s)) (a : DeviceAct) (h : P s) :
    P (a.perform s) := by
  cases a with
  | read8 addr => exact inv.read8 addr h
  | read16 addr => exact inv.read16 addr h
  | read32 addr => exact inv.read32 addr h
  | read64 addr => exact inv.read64 addr h
  | write8 addr value => exact inv.write8 addr value h
  | write16 addr value => exact inv.write16 addr value h
  | write32 addr value => exact inv.write32 addr value h
  | write64 addr value => exact inv.write64 addr value h
  | spWrite offset value => exact inv.spWrite offset value h
  | spWritePc offset value => exact inv.unwatched (frame_spWritePc s offset value) h
  | dpWrite offset value => exact inv.dpWrite offset value h
  | piWrite offset value => exact inv.piWrite offset value h
  | siWrite offset value => exact inv.siWrite offset value h
  | rspStep => exact rspStep s h

end DeviceInvariant

end N64
