import N64Emu.BusFrame
import N64Emu.FillRectangles

/-!
# What the RDP reaches

A list of commands changes RDRAM and the RDP and may request the DP interrupt.
Nothing else of the machine is within its reach.
-/

set_option autoImplicit false

namespace N64.Rdp

open Words Loops

/-- Everything but RDRAM, the RDP and the DP interrupt is as it was. -/
structure Drew (s t : Sys) : Prop where
  rest : t = { s with
    cpu := t.cpu, bus.rdram := t.bus.rdram, bus.mi.intr := t.bus.mi.intr, rdp := t.rdp,
    log := t.log }
  cpu : t.cpu.offLine = s.cpu.offLine
  intr : t.bus.mi.intr = s.bus.mi.intr ∨ t.bus.mi.intr = s.bus.mi.intr ||| MiIntr.DP

namespace Drew

variable {s t u : Sys}

theorem refl (s : Sys) : Drew s s := ⟨rfl, rfl, Or.inl rfl⟩

theorem trans (h : Drew s t) (k : Drew t u) : Drew s u where
  rest := by
    have first := h.rest
    have second := k.rest
    rw [second, first]
  cpu := k.cpu.trans h.cpu
  intr := by
    rcases h.intr with h | h <;> rcases k.intr with k | k
    · exact Or.inl (k.trans h)
    · exact Or.inr (by rw [k, h])
    · exact Or.inr (k.trans h)
    · exact Or.inr (by rw [k, h, BitVec.or_assoc, BitVec.or_self])

theorem upTo {body : ℕ → Sys → Sys} (n : ℕ) (s : Sys) (each : ∀ i t, Drew t (body i t)) :
    Drew s (Loops.upTo body n s) :=
  upTo_preserves (Drew s) n (refl s) fun i _ t h => h.trans (each i t)

theorem setRdp (s : Sys) (r : Rdp) : Drew s { s with rdp := r } := ⟨rfl, rfl, Or.inl rfl⟩

theorem pokeRdram (s : Sys) (off : ℕ) (b : U8) : Drew s (s.pokeRdram off b) :=
  ⟨rfl, rfl, Or.inl rfl⟩

theorem storePixel16 (s : Sys) (addr : U32) (p : U16) : Drew s (Rdp.storePixel16 s addr p) := by
  simp only [Rdp.storePixel16]
  split
  · exact refl s
  · exact (pokeRdram s _ _).trans (pokeRdram _ _ _)

theorem storePixel32 (s : Sys) (addr : U32) (p : U32) : Drew s (Rdp.storePixel32 s addr p) := by
  simp only [Rdp.storePixel32]
  split
  · exact refl s
  · refine Drew.trans ?_ (pokeRdram _ _ _)
    refine Drew.trans ?_ (pokeRdram _ _ _)
    exact (pokeRdram s _ _).trans (pokeRdram _ _ _)

theorem writeColorPixel (s : Sys) (x y : ℤ) (pix16 : U16) (pix32 : U32) (use32 : Bool) :
    Drew s (Rdp.writeColorPixel s x y pix16 pix32 use32) := by
  simp only [Rdp.writeColorPixel]
  split_ifs
  · exact refl s
  · exact refl s
  · exact storePixel16 s _ _
  · exact storePixel16 s _ _
  · exact storePixel32 s _ _
  · exact refl s

theorem writeFillPixel (s : Sys) (x y : ℤ) : Drew s (Rdp.writeFillPixel s x y) := by
  rcases writeFillPixel_cases s x y with same | ⟨pix16, pix32, use32, drawn⟩
  · rw [same]
    exact refl s
  · rw [drawn]
    exact (writeColorPixel s _ _ _ _ _).trans (setRdp _ _)

theorem writeTexPixel (s : Sys) (x y : ℤ) (sample : Option Rdp.Sample) :
    Drew s (Rdp.writeTexPixel s x y sample) := by
  cases sample with
  | none => exact refl s
  | some t => exact (writeColorPixel s _ _ _ _ _).trans (setRdp _ _)

theorem forPixels (s : Sys) (c : Corners) {pixel : ℕ → ℕ → Sys → Sys}
    (each : ∀ row col t, Drew t (pixel row col t)) : Drew s (Rdp.forPixels c pixel s) :=
  upTo _ s fun row t => upTo _ t fun col u => each row col u

theorem cmdFillRectangle (s : Sys) (cmd : U64) : Drew s (Rdp.cmdFillRectangle s cmd) := by
  simp only [Rdp.cmdFillRectangle]
  split
  · exact refl s
  · exact forPixels s _ fun _ _ t => writeFillPixel t _ _

theorem cmdTextureRectangle (s : Sys) (hi lo : U64) (flip : Bool) :
    Drew s (Rdp.cmdTextureRectangle s hi lo flip) := by
  simp only [Rdp.cmdTextureRectangle]
  split
  · exact refl s
  · exact forPixels s _ fun _ _ t => writeTexPixel t _ _ _

theorem cmdSyncFull (s : Sys) : Drew s (Rdp.cmdSyncFull s) :=
  ⟨rfl, offLine_setRcpInterrupt _ _, Or.inr rfl⟩

theorem countCommand (s : Sys) : Drew s (Rdp.countCommand s) := setRdp s _

theorem executeCommandPair (s : Sys) (hi lo : U64) : Drew s (Rdp.executeCommandPair s hi lo) := by
  simp only [Rdp.executeCommandPair]
  split_ifs
  · exact (countCommand s).trans (cmdTextureRectangle _ hi lo false)
  · exact (countCommand s).trans (cmdTextureRectangle _ hi lo true)
  · exact countCommand s

theorem executeCommand (s : Sys) (cmd : U64) : Drew s (Rdp.executeCommand s cmd) := by
  have counted := countCommand s
  simp only [Rdp.executeCommand]
  split
  case h_1 => exact counted.trans (cmdSyncFull _)
  case h_4 => exact counted.trans (cmdFillRectangle _ cmd)
  case h_13 => exact counted
  all_goals exact counted.trans (setRdp _ _)

theorem runList (xbusDmem : Bool) (stop : U32) (fuel : ℕ) (pc : U32) (s : Sys) :
    Drew s (Rdp.runList xbusDmem stop fuel pc s) := by
  induction fuel generalizing pc s with
  | zero => exact refl s
  | succ fuel ih =>
    simp only [Rdp.runList, readCmd64_eq]
    split_ifs
    · exact refl s
    · exact (executeCommandPair s _ _).trans (ih _ _)
    · exact (executeCommand s _).trans (ih _ _)
    · exact refl s

theorem runCommandList (s : Sys) (start end_ : U32) (xbusDmem : Bool) :
    Drew s (Rdp.runCommandList s start end_ xbusDmem) := by
  simp only [Rdp.runCommandList]
  split
  · exact refl s
  · exact ((setRdp s _).trans (runList _ _ _ _ _)).trans (setRdp _ _)

end Drew

end N64.Rdp
