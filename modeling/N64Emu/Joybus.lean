import N64Emu.State
import N64Emu.Loops

/-!
# The PIF and its joybus channels

`process_channel` parses one command block of PIF RAM and fills its response.
A channel stops the list by returning `false`; what it wrote before that
stays.
-/

set_option autoImplicit false

namespace N64

open Words Loops

namespace JoybusCmd

def Info : U8 := 0x00
def Controller : U8 := 0x01
def Reset : U8 := 0xFF

end JoybusCmd

namespace Pif

def kChannels : ℕ := 4
def kControllerType : U16 := 0x0500
def kControllerStatus : U8 := 0x00
def kCtrlProcess : U8 := 0x01

def reset (_ : Pif) : Pif :=
  { controllers := fun i => { present := i == 0 }
    pifRam := fun _ => 0
    joybusCount := 0 }

def setController (p : Pif) (channel : ℕ) (state : ControllerState) : Pif :=
  if h : channel < kChannels then
    { p with controllers := Function.update p.controllers ⟨channel, h⟩ state }
  else p

def controller (p : Pif) (channel : ℕ) : ControllerState :=
  if h : channel < kChannels then p.controllers ⟨channel, h⟩ else { present := false }

def processRequested (p : Pif) : Bool := (p.pifRam 0x3F &&& kCtrlProcess) != 0

/-- `std::fill` of the bytes from `first` up to `last` with zero. -/
def fillZero (ram : Bytes) (first last : ℕ) : Bytes :=
  upTo (fun i m => Function.update m (first + i) 0) (last - first) ram

def skipPadding (ram : Bytes) (cursor : ℕ) : ℕ :=
  whileDo (fun c => c < 0x3F && ram c == 0xFF) (· + 1) 0x3F cursor

/-- The bytes the device on a channel answers with. -/
def respond (ram : Bytes) (pad : ControllerState) (cmd : U8) (rxOff rlen : ℕ) : Bytes :=
  if cmd = JoybusCmd.Info ∨ cmd = JoybusCmd.Reset then
    if rlen ≥ 3 then
      let ram := Function.update ram (rxOff + 0) (kControllerType.setWidth 8)
      let ram := Function.update ram (rxOff + 1) ((kControllerType >>> 8).setWidth 8)
      let ram := Function.update ram (rxOff + 2) kControllerStatus
      fillZero ram (rxOff + 3) (rxOff + rlen)
    else ram
  else if cmd = JoybusCmd.Controller then
    if rlen ≥ 4 then
      let ram := Function.update ram (rxOff + 0) ((pad.buttons >>> 8).setWidth 8)
      let ram := Function.update ram (rxOff + 1) (pad.buttons.setWidth 8)
      let ram := Function.update ram (rxOff + 2) pad.stickX
      let ram := Function.update ram (rxOff + 3) pad.stickY
      fillZero ram (rxOff + 4) (rxOff + rlen)
    else ram
  else fillZero ram rxOff (rxOff + rlen)

/-- The result, the PIF RAM and the cursor after one channel. -/
def processChannel (pad : ControllerState) (ram : Bytes) (cursor : ℕ) : Bool × Bytes × ℕ :=
  let cursor := skipPadding ram cursor
  if cursor ≥ 0x3F then (false, ram, cursor)
  else if ram cursor = 0xFE then (false, ram, cursor)
  else
    let tlen := ram cursor
    if tlen = 0x00 then
      if cursor + 1 < 0x3F ∧ ram (cursor + 1) = 0x00 then (true, ram, cursor + 2)
      else (true, ram, cursor + 1)
    else if tlen = 0xFD then (true, ram, cursor + 1)
    else if cursor + 1 ≥ 0x3F then (false, ram, cursor)
    else
      let rlen := ram (cursor + 1)
      let rlenBytes := rlen &&& 0x3F
      let tlenBytes := tlen &&& 0x3F
      let txOff := cursor + 2
      let rxOff := txOff + tlenBytes.toNat
      if rxOff + rlenBytes.toNat > 0x3F then (false, ram, cursor)
      else
        let cmd := if tlenBytes.toNat > 0 then ram txOff else 0x00
        let ram := Function.update ram (cursor + 1) rlenBytes
        if !pad.present then
          let ram := Function.update ram (cursor + 1) (rlenBytes ||| 0x80)
          (true, fillZero ram rxOff (rxOff + rlenBytes.toNat), rxOff + rlenBytes.toNat)
        else
          (true, respond ram pad cmd rxOff rlenBytes.toNat, rxOff + rlenBytes.toNat)

/-- The channel loop from channel `ch`: PIF RAM and the count of answered
channels. -/
def processChannels (p : Pif) : ℕ → ℕ → Bytes → ℕ → ℕ → Bytes × ℕ
  | 0, _, ram, _, answered => (ram, answered)
  | left+1, ch, ram, cursor, answered =>
    match processChannel (p.controller ch) ram cursor with
    | (false, ram', _) => (ram', answered)
    | (true, ram', cursor') =>
      let answered := if cursor' ≠ cursor then answered + 1 else answered
      if cursor' ≥ 0x3F then (ram', answered)
      else processChannels p left (ch + 1) ram' cursor' answered

/-- The updated PIF and the number of channels answered. -/
def processJoybus (p : Pif) : Pif × ℕ :=
  let (ram, answered) := processChannels p kChannels 0 p.pifRam 0 0
  ({ p with
      pifRam := Function.update ram 0x3F (ram 0x3F &&& ~~~kCtrlProcess)
      joybusCount := p.joybusCount + 1 }, answered)

end Pif

/-- `pif_->process_joybus()` on the wired machine. -/
def Sys.processJoybus (s : Sys) : Sys :=
  let p := s.pif.processJoybus.1
  { s with
      pif := p
      log := s.log ++ Sys.changed .pif kPifRamSize s.pif.pifRam p.pifRam }

/-- `std::copy` of the PIF's RAM over the bus copy. -/
def Sys.mirrorPif (s : Sys) : Sys := { s with bus.pifRam := s.pif.pifRam }

end N64
