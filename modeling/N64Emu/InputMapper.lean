import N64Emu.Flags
import N64Emu.Overlay
import N64Emu.Joybus
import N64Emu.Runs

/-!
# The input mapper

Key, button and axis events become the state of the first controller. Whatever
events came and in whatever order, the state follows from where each control
was last left.
-/

set_option autoImplicit false

namespace N64

open Words

inductive Button where
  | CRight | CLeft | CDown | CUp | R | L | DRight | DLeft | DDown | DUp | Start | Z | B | A
  deriving DecidableEq

namespace Button

def mask : Button → U16
  | CRight => 0x0001
  | CLeft => 0x0002
  | CDown => 0x0004
  | CUp => 0x0008
  | R => 0x0010
  | L => 0x0020
  | DRight => 0x0100
  | DLeft => 0x0200
  | DDown => 0x0400
  | DUp => 0x0800
  | Start => 0x1000
  | Z => 0x2000
  | B => 0x4000
  | A => 0x8000

def all : List Button :=
  [CRight, CLeft, CDown, CUp, R, L, DRight, DLeft, DDown, DUp, Start, Z, B, A]

theorem mem_all (b : Button) : b ∈ all := by
  cases b <;> decide

theorem mask_apart : Flags.Apart mask := by
  intro a b
  cases a <;> cases b <;> decide

theorem mask_ne_zero (b : Button) : b.mask ≠ 0 := by
  cases b <;> decide

def reserved : U16 := 0x00C0

end Button

/-- The keys `on_key` knows, under SDL's names. -/
inductive Scancode where
  | A | C | D | E | I | J | K | L | Q | S | W | X | Z
  | RETURN | UP | DOWN | LEFT | RIGHT
  | other (code : ℕ)
  deriving DecidableEq

/-- The axes `on_controller_axis` knows, under SDL's names. -/
inductive Axis where
  | LEFTX | LEFTY | RIGHTX | RIGHTY | TRIGGERLEFT | TRIGGERRIGHT
  | other (axis : ℕ)
  deriving DecidableEq

-- SDL's numbers of a game controller's buttons
namespace ControllerButton

def A : ℕ := 0
def B : ℕ := 1
def X : ℕ := 2
def Y : ℕ := 3
def BACK : ℕ := 4
def START : ℕ := 6
def RIGHTSTICK : ℕ := 8
def LEFTSHOULDER : ℕ := 9
def RIGHTSHOULDER : ℕ := 10
def DPAD_UP : ℕ := 11
def DPAD_DOWN : ℕ := 12
def DPAD_LEFT : ℕ := 13
def DPAD_RIGHT : ℕ := 14

end ControllerButton

inductive InputEvent where
  | key (scancode : Scancode) (pressed repeated : Bool)
  | button (button : U8) (pressed : Bool)
  | axis (axis : Axis) (value : BitVec 16)

def kPadButtons : ℕ := 32

structure InputMapper where
  keyButtons : U16 := 0
  keyStickX : U8 := 0
  keyStickY : U8 := 0
  keyW : Bool := false
  keyA : Bool := false
  keyS : Bool := false
  keyD : Bool := false
  padButtonMask : U16 := 0
  padAxisMask : U16 := 0
  padStickX : U8 := 0
  padStickY : U8 := 0
  padButtonDown : Fin kPadButtons → Bool := fun _ => false
  padTriggerLeft : Bool := false
  padTriggerRight : Bool := false

namespace InputMapper

open Button Flags

def clampStick (v : ℤ) : U8 :=
  if v > 127 then 127 else if v < -128 then BitVec.ofInt 8 (-128) else BitVec.ofInt 8 v

variable (m : InputMapper)

def setKeyButton (b : Button) (down : Bool) : InputMapper :=
  if down then { m with keyButtons := m.keyButtons ||| b.mask }
  else { m with keyButtons := m.keyButtons &&& ~~~b.mask }

def recomputeKeyStick : InputMapper :=
  let x := (0 : ℤ)
  let y := (0 : ℤ)
  let x := if m.keyD then x + 80 else x
  let x := if m.keyA then x - 80 else x
  let y := if m.keyW then y + 80 else y
  let y := if m.keyS then y - 80 else y
  { m with keyStickX := clampStick x, keyStickY := clampStick y }

/-- The switch of `on_key`. -/
def onScancode (scancode : Scancode) (down : Bool) : InputMapper :=
  match scancode with
  | .Z => m.setKeyButton A down
  | .X => m.setKeyButton B down
  | .RETURN => m.setKeyButton Start down
  | .C => m.setKeyButton Z down
  | .Q => m.setKeyButton L down
  | .E => m.setKeyButton R down
  | .UP => m.setKeyButton DUp down
  | .DOWN => m.setKeyButton DDown down
  | .LEFT => m.setKeyButton DLeft down
  | .RIGHT => m.setKeyButton DRight down
  | .I => m.setKeyButton CUp down
  | .K => m.setKeyButton CDown down
  | .J => m.setKeyButton CLeft down
  | .L => m.setKeyButton CRight down
  | .W => { m with keyW := down }.recomputeKeyStick
  | .S => { m with keyS := down }.recomputeKeyStick
  | .D => { m with keyD := down }.recomputeKeyStick
  | .A => m
  | .other _ => m

def onKey (scancode : Scancode) (down repeated : Bool) : InputMapper :=
  if repeated then m
  else
    let m := m.onScancode scancode down
    -- the switch leaves this key to the stick
    if scancode = .A then { m with keyA := down }.recomputeKeyStick else m

def axisToStick (axis : ℤ) : U8 :=
  let dead := 8000
  if axis > -dead ∧ axis < dead then 0 else clampStick ((axis * 80).tdiv 32767)

def held (button : ℕ) : Bool :=
  if h : button < kPadButtons then m.padButtonDown ⟨button, h⟩ else false

def recomputePadButtons : InputMapper :=
  let buttons : U16 := 0
  let buttons := setIf mask buttons A (m.held ControllerButton.A || m.held ControllerButton.Y)
  let buttons := setIf mask buttons B (m.held ControllerButton.B || m.held ControllerButton.X)
  let buttons := setIf mask buttons Start (m.held ControllerButton.START)
  let buttons := setIf mask buttons Z (m.held ControllerButton.BACK ||
    m.held ControllerButton.RIGHTSTICK || m.padTriggerLeft || m.padTriggerRight)
  let buttons := setIf mask buttons L (m.held ControllerButton.LEFTSHOULDER)
  let buttons := setIf mask buttons R (m.held ControllerButton.RIGHTSHOULDER)
  let buttons := setIf mask buttons DUp (m.held ControllerButton.DPAD_UP)
  let buttons := setIf mask buttons DDown (m.held ControllerButton.DPAD_DOWN)
  let buttons := setIf mask buttons DLeft (m.held ControllerButton.DPAD_LEFT)
  let buttons := setIf mask buttons DRight (m.held ControllerButton.DPAD_RIGHT)
  { m with padButtonMask := buttons }

def onControllerButton (button : U8) (down : Bool) : InputMapper :=
  if h : button.toNat < kPadButtons then
    { m with
      padButtonDown := Function.update m.padButtonDown ⟨button.toNat, h⟩ down }.recomputePadButtons
  else m

def onControllerAxis (axis : Axis) (value : ℤ) : InputMapper :=
  match axis with
  | .LEFTX => { m with padStickX := axisToStick value }
  | .LEFTY => { m with padStickY := axisToStick (-value) }
  | .TRIGGERRIGHT => { m with padTriggerRight := value > 16000 }.recomputePadButtons
  | .TRIGGERLEFT => { m with padTriggerLeft := value > 16000 }.recomputePadButtons
  | .RIGHTX =>
    let mask := m.padAxisMask &&& ~~~(CLeft.mask ||| CRight.mask)
    { m with
      padAxisMask := if value > 16000 then mask ||| CRight.mask
        else if value < -16000 then mask ||| CLeft.mask else mask }
  | .RIGHTY =>
    let mask := m.padAxisMask &&& ~~~(CUp.mask ||| CDown.mask)
    { m with
      padAxisMask := if value < -16000 then mask ||| CUp.mask
        else if value > 16000 then mask ||| CDown.mask else mask }
  | .other _ => m

def state : ControllerState :=
  let buttons := m.keyButtons ||| m.padButtonMask ||| m.padAxisMask
  if m.padStickX ≠ 0 ∨ m.padStickY ≠ 0 then
    { present := true, buttons := buttons, stickX := m.padStickX, stickY := m.padStickY }
  else { present := true, buttons := buttons, stickX := m.keyStickX, stickY := m.keyStickY }

def onEvent (e : InputEvent) (m : InputMapper) : InputMapper :=
  match e with
  | .key scancode pressed repeated => m.onKey scancode pressed repeated
  | .button button pressed => m.onControllerButton button pressed
  | .axis axis value => m.onControllerAxis axis value.toInt

def applyTo (p : Pif) : Pif := p.setController 0 m.state

end InputMapper

/-- Where a player left the keys, the buttons and the axes. -/
structure Positions where
  keys : Scancode → Bool
  pads : Fin kPadButtons → Bool
  axes : Axis → ℤ

namespace InputEvent

def keyMove : InputEvent → Option (Scancode × Bool)
  | key scancode pressed repeated => if repeated then none else some (scancode, pressed)
  | _ => none

def padMove : InputEvent → Option (Fin kPadButtons × Bool)
  | button number pressed =>
    if h : number.toNat < kPadButtons then some (⟨number.toNat, h⟩, pressed) else none
  | _ => none

def axisMove : InputEvent → Option (Axis × ℤ)
  | axis name value => some (name, value.toInt)
  | _ => none

end InputEvent

/-- Every control where its last event left it, the others at rest. -/
def positions (events : List InputEvent) : Positions where
  keys := CellStore.puts some (events.filterMap InputEvent.keyMove) fun _ => false
  pads := CellStore.puts some (events.filterMap InputEvent.padMove) fun _ => false
  axes := CellStore.puts some (events.filterMap InputEvent.axisMove) fun _ => 0

namespace Positions

open Button Flags

/-- The key that stands for a button. -/
def keyOf : Button → Scancode
  | A => .Z
  | B => .X
  | Start => .RETURN
  | Z => .C
  | L => .Q
  | R => .E
  | DUp => .UP
  | DDown => .DOWN
  | DLeft => .LEFT
  | DRight => .RIGHT
  | CUp => .I
  | CDown => .K
  | CLeft => .J
  | CRight => .L

variable (p : Positions)

def padDown (button : ℕ) : Bool :=
  if h : button < kPadButtons then p.pads ⟨button, h⟩ else false

def squeezed (axis : ℤ) : Bool := axis > 16000

/-- What of the game controller stands for a button. -/
def onPad : Button → Bool
  | A => p.padDown ControllerButton.A || p.padDown ControllerButton.Y
  | B => p.padDown ControllerButton.B || p.padDown ControllerButton.X
  | Start => p.padDown ControllerButton.START
  | Z => p.padDown ControllerButton.BACK || p.padDown ControllerButton.RIGHTSTICK ||
      squeezed (p.axes .TRIGGERLEFT) || squeezed (p.axes .TRIGGERRIGHT)
  | L => p.padDown ControllerButton.LEFTSHOULDER
  | R => p.padDown ControllerButton.RIGHTSHOULDER
  | DUp => p.padDown ControllerButton.DPAD_UP
  | DDown => p.padDown ControllerButton.DPAD_DOWN
  | DLeft => p.padDown ControllerButton.DPAD_LEFT
  | DRight => p.padDown ControllerButton.DPAD_RIGHT
  | CUp => p.axes .RIGHTY < -16000
  | CDown => p.axes .RIGHTY > 16000
  | CLeft => p.axes .RIGHTX < -16000
  | CRight => p.axes .RIGHTX > 16000

def Pressed (b : Button) : Prop := p.keys (keyOf b) = true ∨ p.onPad b = true

def deflection (axis : ℤ) : ℤ := if |axis| < 8000 then 0 else (axis * 80).tdiv 32767

def pull (keys : Scancode → Bool) (plus minus : Scancode) : ℤ :=
  (if keys plus then 80 else 0) - (if keys minus then 80 else 0)

/-- The game controller's stick where it is deflected, the keys' otherwise. -/
def stick : ℤ × ℤ :=
  let pad := (deflection (p.axes .LEFTX), deflection (-p.axes .LEFTY))
  if pad = (0, 0) then (pull p.keys .D .A, pull p.keys .W .S) else pad

end Positions

section History

variable (events : List InputEvent)

theorem positions_concat (e : InputEvent) : positions (events ++ [e]) =
    { keys := CellStore.puts some e.keyMove.toList (positions events).keys
      pads := CellStore.puts some e.padMove.toList (positions events).pads
      axes := CellStore.puts some e.axisMove.toList (positions events).axes } := by
  have one {β : Type} (move : InputEvent → Option β) :
      [e].filterMap move = (move e).toList := by
    rw [List.filterMap_cons, List.filterMap_nil]
    cases move e <;> rfl
  simp only [positions, List.filterMap_append, CellStore.puts_append, one]

end History

namespace InputMapper

open Button Flags Positions

/-- The buttons the game controller's own buttons and triggers stand for. -/
def padNames : List Button := [A, B, Start, Z, L, R, DUp, DDown, DLeft, DRight]

/-- The buttons the right stick stands for. -/
def axisNames : List Button := [CLeft, CRight, CUp, CDown]

/-- The mapper holds what follows from where the controls are. -/
structure Tracks (m : InputMapper) (p : Positions) : Prop where
  keys : m.keyButtons = word mask all fun b => p.keys (keyOf b)
  keyW : m.keyW = p.keys .W
  keyA : m.keyA = p.keys .A
  keyS : m.keyS = p.keys .S
  keyD : m.keyD = p.keys .D
  keyStickX : m.keyStickX = clampStick (pull p.keys .D .A)
  keyStickY : m.keyStickY = clampStick (pull p.keys .W .S)
  pads : m.padButtonDown = p.pads
  left : m.padTriggerLeft = squeezed (p.axes .TRIGGERLEFT)
  right : m.padTriggerRight = squeezed (p.axes .TRIGGERRIGHT)
  padMask : m.padButtonMask = word mask padNames p.onPad
  axisMask : m.padAxisMask = word mask axisNames p.onPad
  stickX : m.padStickX = axisToStick (p.axes .LEFTX)
  stickY : m.padStickY = axisToStick (-p.axes .LEFTY)

variable {m : InputMapper} {p : Positions}

theorem keyOf_injective : Function.Injective keyOf := by
  intro a b
  cases a <;> cases b <;> simp [keyOf]

section Keys

theorem pull_congr {keys keys' : Scancode → Bool} {plus minus : Scancode}
    (first : keys' plus = keys plus) (second : keys' minus = keys minus) :
    pull keys' plus minus = pull keys plus minus := by
  rw [pull, first, second]
  rfl

theorem Tracks.setKeyButton (h : Tracks m p) (b : Button) (down : Bool) :
    Tracks (m.setKeyButton b down)
      { p with keys := Function.update p.keys (keyOf b) down } := by
  have updated : (fun c => Function.update p.keys (keyOf b) down (keyOf c)) =
      Function.update (fun c => p.keys (keyOf c)) b down :=
    Function.update_comp_eq_of_injective p.keys keyOf_injective b down
  have other (k : Scancode) (apart : k ≠ keyOf b) :
      Function.update p.keys (keyOf b) down k = p.keys k := Function.update_of_ne apart _ _
  have stickW := other .W (by cases b <;> decide)
  have stickA := other .A (by cases b <;> decide)
  have stickS := other .S (by cases b <;> decide)
  have stickD := other .D (by cases b <;> decide)
  have same (v : U16)
      (held : v = word mask all fun c => Function.update p.keys (keyOf b) down (keyOf c)) :
      Tracks { m with keyButtons := v }
        { p with keys := Function.update p.keys (keyOf b) down } :=
    { h with
      keys := held
      keyW := h.keyW.trans stickW.symm
      keyA := h.keyA.trans stickA.symm
      keyS := h.keyS.trans stickS.symm
      keyD := h.keyD.trans stickD.symm
      keyStickX := h.keyStickX.trans (congrArg clampStick (pull_congr stickD stickA).symm)
      keyStickY := h.keyStickY.trans (congrArg clampStick (pull_congr stickW stickS).symm) }
  rw [updated] at same
  unfold InputMapper.setKeyButton
  cases down with
  | true =>
    refine same _ ?_
    rw [h.keys]
    exact word_set (mem_all b)
  | false =>
    refine same _ ?_
    rw [h.keys]
    exact word_clear mask_apart b

theorem pulled (plus minus : Bool) :
    (if minus then (if plus then (0 : ℤ) + 80 else 0) - 80 else if plus then (0 : ℤ) + 80 else 0) =
      (if plus then 80 else 0) - (if minus then 80 else 0) := by
  cases plus <;> cases minus <;> rfl

theorem Tracks.stickKey (h : Tracks m p) {k : Scancode} (unmapped : ∀ b, keyOf b ≠ k)
    (down : Bool) {w a s d : Bool} (keys : Scancode → Bool)
    (updated : keys = Function.update p.keys k down) (keyW : w = keys .W) (keyA : a = keys .A)
    (keyS : s = keys .S) (keyD : d = keys .D) :
    Tracks { m with keyW := w, keyA := a, keyS := s, keyD := d }.recomputeKeyStick
      { p with keys := keys } :=
  { h with
    keys := by
      rw [updated]
      refine h.keys.trans (word_congr fun b _ => ?_)
      exact (Function.update_of_ne (unmapped b) _ _).symm
    keyW := keyW
    keyA := keyA
    keyS := keyS
    keyD := keyD
    keyStickX := by
      subst keyA keyD
      exact congrArg clampStick (pulled (keys .D) (keys .A))
    keyStickY := by
      subst keyW keyS
      exact congrArg clampStick (pulled (keys .W) (keys .S)) }

theorem Tracks.otherKey (h : Tracks m p) (code : ℕ) (down : Bool) :
    Tracks m { p with keys := Function.update p.keys (.other code) down } := by
  have same (k : Scancode) (other : k ≠ .other code) :
      p.keys k = Function.update p.keys (.other code) down k :=
    (Function.update_of_ne other _ _).symm
  have stickW := same .W (by simp)
  have stickA := same .A (by simp)
  have stickS := same .S (by simp)
  have stickD := same .D (by simp)
  exact { h with
    keys := h.keys.trans (word_congr fun b _ => same (keyOf b) (by cases b <;> simp [keyOf]))
    keyW := h.keyW.trans stickW
    keyA := h.keyA.trans stickA
    keyS := h.keyS.trans stickS
    keyD := h.keyD.trans stickD
    keyStickX := h.keyStickX.trans (congrArg clampStick (pull_congr stickD stickA))
    keyStickY := h.keyStickY.trans (congrArg clampStick (pull_congr stickW stickS)) }

theorem Tracks.onScancode (h : Tracks m p) (k : Scancode) (down : Bool) :
    Tracks (m.onKey k down false) { p with keys := Function.update p.keys k down } := by
  have kept (k' : Scancode) (other : k' ≠ k) : p.keys k' = Function.update p.keys k down k' :=
    (Function.update_of_ne other _ _).symm
  have moved : down = Function.update p.keys k down k := (Function.update_self k down p.keys).symm
  cases k
  case Z => exact h.setKeyButton A down
  case X => exact h.setKeyButton B down
  case RETURN => exact h.setKeyButton Start down
  case C => exact h.setKeyButton Z down
  case Q => exact h.setKeyButton L down
  case E => exact h.setKeyButton R down
  case UP => exact h.setKeyButton DUp down
  case DOWN => exact h.setKeyButton DDown down
  case LEFT => exact h.setKeyButton DLeft down
  case RIGHT => exact h.setKeyButton DRight down
  case I => exact h.setKeyButton CUp down
  case K => exact h.setKeyButton CDown down
  case J => exact h.setKeyButton CLeft down
  case L => exact h.setKeyButton CRight down
  case W =>
    exact h.stickKey (fun b => by cases b <;> decide) down _ rfl moved
      (h.keyA.trans (kept .A (by decide))) (h.keyS.trans (kept .S (by decide)))
      (h.keyD.trans (kept .D (by decide)))
  case A =>
    exact h.stickKey (fun b => by cases b <;> decide) down _ rfl
      (h.keyW.trans (kept .W (by decide))) moved (h.keyS.trans (kept .S (by decide)))
      (h.keyD.trans (kept .D (by decide)))
  case S =>
    exact h.stickKey (fun b => by cases b <;> decide) down _ rfl
      (h.keyW.trans (kept .W (by decide))) (h.keyA.trans (kept .A (by decide))) moved
      (h.keyD.trans (kept .D (by decide)))
  case D =>
    exact h.stickKey (fun b => by cases b <;> decide) down _ rfl
      (h.keyW.trans (kept .W (by decide))) (h.keyA.trans (kept .A (by decide)))
      (h.keyS.trans (kept .S (by decide))) moved
  case other code => exact h.otherKey code down

end Keys

section Pad

theorem held_eq (pads : m.padButtonDown = p.pads) (n : ℕ) : m.held n = p.padDown n := by
  rw [held, padDown, pads]

theorem recomputePadButtons_mask (pads : m.padButtonDown = p.pads)
    (left : m.padTriggerLeft = squeezed (p.axes .TRIGGERLEFT))
    (right : m.padTriggerRight = squeezed (p.axes .TRIGGERRIGHT)) :
    m.recomputePadButtons.padButtonMask = word mask padNames p.onPad := by
  unfold recomputePadButtons
  simp only [held_eq pads, left, right]
  rfl

theorem axisWord_congr {p' : Positions} (rightX : p'.axes .RIGHTX = p.axes .RIGHTX)
    (rightY : p'.axes .RIGHTY = p.axes .RIGHTY) :
    word mask axisNames p.onPad = word mask axisNames p'.onPad := by
  refine word_congr fun b named => ?_
  have one : b = CLeft ∨ b = CRight ∨ b = CUp ∨ b = CDown := by simpa [axisNames] using named
  rcases one with rfl | rfl | rfl | rfl
  · simp only [onPad, rightX]
  · simp only [onPad, rightX]
  · simp only [onPad, rightY]
  · simp only [onPad, rightY]

theorem padWord_congr {p' : Positions} (pads : p'.pads = p.pads)
    (left : p'.axes .TRIGGERLEFT = p.axes .TRIGGERLEFT)
    (right : p'.axes .TRIGGERRIGHT = p.axes .TRIGGERRIGHT) :
    word mask padNames p.onPad = word mask padNames p'.onPad := by
  have down (n : ℕ) : p'.padDown n = p.padDown n := by rw [padDown, padDown, pads]
  refine word_congr fun b named => ?_
  cases b
  case CUp | CDown | CLeft | CRight => exact absurd named (by decide)
  case Z => simp only [onPad, down, left, right]
  all_goals simp only [onPad, down]

theorem Tracks.repad (h : Tracks m p) {downs : Fin kPadButtons → Bool} {left right : Bool}
    {p' : Positions} (keys : p'.keys = p.keys) (pads : downs = p'.pads)
    (triggerLeft : left = squeezed (p'.axes .TRIGGERLEFT))
    (triggerRight : right = squeezed (p'.axes .TRIGGERRIGHT))
    (leftX : p'.axes .LEFTX = p.axes .LEFTX) (leftY : p'.axes .LEFTY = p.axes .LEFTY)
    (rightX : p'.axes .RIGHTX = p.axes .RIGHTX) (rightY : p'.axes .RIGHTY = p.axes .RIGHTY) :
    Tracks { m with
      padButtonDown := downs, padTriggerLeft := left,
      padTriggerRight := right }.recomputePadButtons p' where
  keys := by
    rw [keys]
    exact h.keys
  keyW := by
    rw [keys]
    exact h.keyW
  keyA := by
    rw [keys]
    exact h.keyA
  keyS := by
    rw [keys]
    exact h.keyS
  keyD := by
    rw [keys]
    exact h.keyD
  keyStickX := by
    rw [keys]
    exact h.keyStickX
  keyStickY := by
    rw [keys]
    exact h.keyStickY
  pads := pads
  left := triggerLeft
  right := triggerRight
  padMask := recomputePadButtons_mask pads triggerLeft triggerRight
  axisMask := h.axisMask.trans (axisWord_congr rightX rightY)
  stickX := by
    rw [leftX]
    exact h.stickX
  stickY := by
    rw [leftY]
    exact h.stickY

theorem Tracks.onControllerButton (h : Tracks m p) (button : U8) (down : Bool) :
    Tracks (m.onControllerButton button down) { p with
      pads := CellStore.puts some (InputEvent.button button down).padMove.toList p.pads } := by
  unfold InputMapper.onControllerButton InputEvent.padMove
  dsimp only
  split
  · refine h.repad rfl ?_ h.left h.right rfl rfl rfl rfl
    rw [h.pads]
    rfl
  · exact h

theorem axis_word {f g : Button → Bool} {both : U16} {c d : Prop} [Decidable c] [Decidable d]
    (plus minus : Button) (isPlus : g plus = decide c) (isMinus : g minus = decide d)
    (exclude : c → ¬d) (masks : both = plus.mask ||| minus.mask) (named : plus ∈ axisNames)
    (alsoNamed : minus ∈ axisNames) (others : ∀ b, b ≠ plus → b ≠ minus → f b = g b) :
    (if c then word mask axisNames f &&& ~~~both ||| plus.mask
      else if d then word mask axisNames f &&& ~~~both ||| minus.mask
      else word mask axisNames f &&& ~~~both) = word mask axisNames g := by
  have cleared : word mask axisNames f &&& ~~~both =
      word mask axisNames (Function.update (Function.update f plus false) minus false) := by
    rw [masks, BitVec.not_or, ← BitVec.and_assoc, word_clear mask_apart, word_clear mask_apart]
  rw [cleared]
  split
  · rename_i on
    have dark : g minus = false := isMinus.trans (decide_eq_false (exclude on))
    rw [word_set named]
    refine word_congr fun b _ => ?_
    by_cases first : b = plus
    · rw [first, Function.update_self, isPlus, decide_eq_true on]
    · by_cases second : b = minus
      · rw [Function.update_of_ne first, second, Function.update_self, dark]
      · rw [Function.update_of_ne first, Function.update_of_ne second,
          Function.update_of_ne first, others b first second]
  · rename_i off
    have dark : g plus = false := isPlus.trans (decide_eq_false off)
    split
    · rename_i on
      rw [word_set alsoNamed]
      refine word_congr fun b _ => ?_
      by_cases second : b = minus
      · rw [second, Function.update_self, isMinus, decide_eq_true on]
      · by_cases first : b = plus
        · rw [Function.update_of_ne second, Function.update_of_ne second, first,
            Function.update_self, dark]
        · rw [Function.update_of_ne second, Function.update_of_ne second,
            Function.update_of_ne first, others b first second]
    · rename_i alsoOff
      refine word_congr fun b _ => ?_
      by_cases second : b = minus
      · rw [second, Function.update_self, isMinus, decide_eq_false alsoOff]
      · by_cases first : b = plus
        · rw [Function.update_of_ne second, first, Function.update_self, dark]
        · rw [Function.update_of_ne second, Function.update_of_ne first, others b first second]

theorem Tracks.steer (h : Tracks m p) {axes : Axis → ℤ} {x y : U8} {word_ : U16}
    (left : axes .TRIGGERLEFT = p.axes .TRIGGERLEFT)
    (right : axes .TRIGGERRIGHT = p.axes .TRIGGERRIGHT)
    (axisMask : word_ = word mask axisNames { p with axes := axes }.onPad)
    (stickX : x = axisToStick (axes .LEFTX)) (stickY : y = axisToStick (-axes .LEFTY)) :
    Tracks { m with padStickX := x, padStickY := y, padAxisMask := word_ }
      { p with axes := axes } :=
  { h with
    left := h.left.trans (congrArg squeezed left.symm)
    right := h.right.trans (congrArg squeezed right.symm)
    padMask := h.padMask.trans (padWord_congr rfl left right)
    axisMask := axisMask
    stickX := stickX
    stickY := stickY }

theorem Tracks.onControllerAxis (h : Tracks m p) (axis : Axis) (value : ℤ) :
    Tracks (m.onControllerAxis axis value)
      { p with axes := Function.update p.axes axis value } := by
  have kept (other : Axis) (apart : other ≠ axis) :
      Function.update p.axes axis value other = p.axes other := Function.update_of_ne apart _ _
  have moved : Function.update p.axes axis value axis = value := Function.update_self _ _ _
  have stickX (apart : Axis.LEFTX ≠ axis) :=
    h.stickX.trans (congrArg axisToStick (kept _ apart).symm)
  have stickY (apart : Axis.LEFTY ≠ axis) :=
    h.stickY.trans (congrArg (fun y => axisToStick (-y)) (kept _ apart).symm)
  have sameWord (notX : Axis.RIGHTX ≠ axis) (notY : Axis.RIGHTY ≠ axis) :
      word mask axisNames p.onPad = word mask axisNames
        { p with axes := Function.update p.axes axis value }.onPad :=
    axisWord_congr (kept _ notX) (kept _ notY)
  have axisMask (notX : Axis.RIGHTX ≠ axis) (notY : Axis.RIGHTY ≠ axis) :=
    h.axisMask.trans (sameWord notX notY)
  cases axis
  case TRIGGERLEFT =>
    exact h.repad rfl h.pads (congrArg squeezed moved.symm)
      (h.right.trans (congrArg squeezed (kept .TRIGGERRIGHT (by decide)).symm))
      (kept .LEFTX (by decide)) (kept .LEFTY (by decide)) (kept .RIGHTX (by decide))
      (kept .RIGHTY (by decide))
  case TRIGGERRIGHT =>
    exact h.repad rfl h.pads
      (h.left.trans (congrArg squeezed (kept .TRIGGERLEFT (by decide)).symm))
      (congrArg squeezed moved.symm) (kept .LEFTX (by decide)) (kept .LEFTY (by decide))
      (kept .RIGHTX (by decide)) (kept .RIGHTY (by decide))
  case LEFTX =>
    exact h.steer (kept _ (by decide)) (kept _ (by decide)) (axisMask (by decide) (by decide))
      (congrArg axisToStick moved.symm) (stickY (by decide))
  case LEFTY =>
    exact h.steer (kept _ (by decide)) (kept _ (by decide)) (axisMask (by decide) (by decide))
      (stickX (by decide)) (congrArg (fun y => axisToStick (-y)) moved.symm)
  case RIGHTX =>
    refine h.steer (kept _ (by decide)) (kept _ (by decide)) ?_ (stickX (by decide))
      (stickY (by decide))
    rw [h.axisMask]
    refine axis_word CRight CLeft ?_ ?_ (by omega) (by decide) (by decide)
      (by decide) fun b notPlus notMinus => ?_
    · simp only [onPad, moved]
    · simp only [onPad, moved]
    · cases b
      case CRight => exact absurd rfl notPlus
      case CLeft => exact absurd rfl notMinus
      case CUp | CDown => simp only [onPad, kept .RIGHTY (by decide)]
      case Z =>
        simp only [onPad, padDown, kept .TRIGGERLEFT (by decide), kept .TRIGGERRIGHT (by decide)]
      all_goals rfl
  case RIGHTY =>
    refine h.steer (kept .TRIGGERLEFT (by decide)) (kept .TRIGGERRIGHT (by decide)) ?_
      (stickX (by decide)) (stickY (by decide))
    rw [h.axisMask]
    refine axis_word CUp CDown ?_ ?_ (by omega) (by decide) (by decide)
      (by decide) fun b notPlus notMinus => ?_
    · simp only [onPad, moved]
    · simp only [onPad, moved]
    · cases b
      case CUp => exact absurd rfl notPlus
      case CDown => exact absurd rfl notMinus
      case CLeft | CRight => simp only [onPad, kept .RIGHTX (by decide)]
      case Z =>
        simp only [onPad, padDown, kept .TRIGGERLEFT (by decide), kept .TRIGGERRIGHT (by decide)]
      all_goals rfl
  case other n =>
    exact h.steer (kept _ (by simp)) (kept _ (by simp)) (axisMask (by simp) (by simp))
      (stickX (by simp)) (stickY (by simp))

end Pad

theorem tracks_initial : Tracks {} (positions []) where
  keys := rfl
  keyW := rfl
  keyA := rfl
  keyS := rfl
  keyD := rfl
  keyStickX := rfl
  keyStickY := rfl
  pads := rfl
  left := rfl
  right := rfl
  padMask := rfl
  axisMask := rfl
  stickX := rfl
  stickY := rfl

theorem tracks_run (events : List InputEvent) :
    Tracks (Runs.run onEvent events {}) (positions events) := by
  refine Runs.run_history (P := fun events m => Tracks m (positions events)) tracks_initial
    (fun before e h => ?_) events
  rw [positions_concat]
  cases e with
  | key k down repeated =>
    cases repeated with
    | true => exact h
    | false => exact h.onScancode k down
  | button number down => exact h.onControllerButton number down
  | axis name value => exact h.onControllerAxis name value.toInt

section Stick

theorem axes_range (events : List InputEvent) (axis : Axis) :
    -32768 ≤ (positions events).axes axis ∧ (positions events).axes axis ≤ 32767 := by
  refine CellStore.puts_forall (P := fun v : ℤ => -32768 ≤ v ∧ v ≤ 32767) ?_ (by simp) axis
  intro w moved
  obtain ⟨e, -, move⟩ := List.mem_filterMap.mp moved
  cases e with
  | key => cases move
  | button => cases move
  | axis name value =>
    cases move
    have low := BitVec.le_toInt value
    have high := BitVec.toInt_lt (x := value)
    exact ⟨low, by omega⟩

theorem deflection_range {axis : ℤ} (low : -32768 ≤ axis) (high : axis ≤ 32768) :
    |deflection axis| ≤ 80 := by
  unfold deflection
  split
  · decide
  · rcases le_total 0 axis with right | left
    · rw [Int.tdiv_eq_ediv_of_nonneg (by omega), abs_le]
      omega
    · have mirrored : axis * 80 = -(-axis * 80) := by omega
      rw [mirrored, Int.neg_tdiv, Int.tdiv_eq_ediv_of_nonneg (by omega), abs_le]
      omega

theorem clampStick_toInt {v : ℤ} (range : |v| ≤ 80) : (clampStick v).toInt = v := by
  rw [abs_le] at range
  rw [clampStick, if_neg (by omega), if_neg (by omega), BitVec.toInt_ofInt, Int.bmod_def]
  omega

theorem axisToStick_toInt {axis : ℤ} (low : -32768 ≤ axis) (high : axis ≤ 32768) :
    (axisToStick axis).toInt = deflection axis := by
  have range := deflection_range low high
  unfold deflection at range ⊢
  unfold axisToStick
  dsimp only
  by_cases dead : |axis| < 8000
  · rw [if_pos dead, if_pos (abs_lt.mp dead)]
    rfl
  · rw [if_neg dead] at range
    rw [if_neg dead, if_neg fun both => dead (abs_lt.mpr both)]
    exact clampStick_toInt range

theorem pull_range (keys : Scancode → Bool) (plus minus : Scancode) :
    |pull keys plus minus| ≤ 80 := by
  unfold pull
  cases keys plus <;> cases keys minus <;> decide

theorem eq_zero_iff_toInt (v : U8) : v = 0 ↔ v.toInt = 0 := by
  rw [← BitVec.toInt_inj]
  rfl

theorem Tracks.stick (h : Tracks m p)
    (range : ∀ axis, -32768 ≤ p.axes axis ∧ p.axes axis ≤ 32767) :
    (m.state.stickX.toInt, m.state.stickY.toInt) = p.stick := by
  obtain ⟨lowX, highX⟩ := range .LEFTX
  obtain ⟨lowY, highY⟩ := range .LEFTY
  have padX : m.padStickX.toInt = deflection (p.axes .LEFTX) :=
    (congrArg BitVec.toInt h.stickX).trans (axisToStick_toInt lowX (by omega))
  have padY : m.padStickY.toInt = deflection (-p.axes .LEFTY) :=
    (congrArg BitVec.toInt h.stickY).trans (axisToStick_toInt (by omega) (by omega))
  have keyX : m.keyStickX.toInt = pull p.keys .D .A :=
    (congrArg BitVec.toInt h.keyStickX).trans (clampStick_toInt (pull_range _ _ _))
  have keyY : m.keyStickY.toInt = pull p.keys .W .S :=
    (congrArg BitVec.toInt h.keyStickY).trans (clampStick_toInt (pull_range _ _ _))
  have rests : (deflection (p.axes .LEFTX), deflection (-p.axes .LEFTY)) = (0, 0) ↔
      ¬(m.padStickX ≠ 0 ∨ m.padStickY ≠ 0) := by
    rw [Prod.mk.injEq, ← padX, ← padY, ← eq_zero_iff_toInt, ← eq_zero_iff_toInt, not_or, not_not,
      not_not]
  unfold Positions.stick state
  dsimp only
  by_cases moved : m.padStickX ≠ 0 ∨ m.padStickY ≠ 0
  · rw [if_pos moved, if_neg fun rest => rests.mp rest moved, ← padX, ← padY]
  · rw [if_neg moved, if_pos (rests.mpr moved), ← keyX, ← keyY]

theorem stick_range (range : ∀ axis, -32768 ≤ p.axes axis ∧ p.axes axis ≤ 32767) :
    |p.stick.1| ≤ 80 ∧ |p.stick.2| ≤ 80 := by
  obtain ⟨lowX, highX⟩ := range .LEFTX
  obtain ⟨lowY, highY⟩ := range .LEFTY
  unfold Positions.stick
  dsimp only
  split
  · exact ⟨pull_range _ _ _, pull_range _ _ _⟩
  · exact ⟨deflection_range lowX (by omega), deflection_range (by omega) (by omega)⟩

end Stick

section Buttons

theorem state_buttons : m.state.buttons = m.keyButtons ||| m.padButtonMask ||| m.padAxisMask := by
  unfold state
  dsimp only
  split <;> rfl

theorem Tracks.pressed (h : Tracks m p) (b : Button) :
    m.state.buttons &&& b.mask ≠ 0 ↔ p.Pressed b := by
  have named : b ∈ padNames ∨ b ∈ axisNames := by
    cases b <;> decide
  have shown (names : List Button) (on : Button → Bool) :
      word mask names on &&& b.mask ≠ 0 ↔ b ∈ names ∧ on b = true :=
    word_and_iff mask_apart mask_ne_zero b
  have either {x y : U16} : x ||| y ≠ 0 ↔ x ≠ 0 ∨ y ≠ 0 :=
    (not_congr BitVec.or_eq_zero_iff).trans not_and_or
  rw [state_buttons, BitVec.and_or_distrib_right, BitVec.and_or_distrib_right, either, either,
    h.keys, h.padMask, h.axisMask]
  constructor
  · rintro ((key | pad) | axis)
    · exact Or.inl ((shown _ _).mp key).2
    · exact Or.inr ((shown _ _).mp pad).2
    · exact Or.inr ((shown _ _).mp axis).2
  · rintro (key | pad)
    · exact Or.inl (Or.inl ((shown _ _).mpr ⟨mem_all b, key⟩))
    · rcases named with own | stick
      · exact Or.inl (Or.inr ((shown _ _).mpr ⟨own, pad⟩))
      · exact Or.inr ((shown _ _).mpr ⟨stick, pad⟩)

theorem Tracks.reserved (h : Tracks m p) : m.state.buttons &&& Button.reserved = 0 := by
  have clear (names : List Button) (on : Button → Bool) :
      word mask names on &&& Button.reserved = 0 :=
    word_and_other fun b => by cases b <;> decide
  rw [state_buttons, BitVec.and_or_distrib_right, BitVec.and_or_distrib_right, h.keys, h.padMask,
    h.axisMask, clear, clear, clear]
  rfl

end Buttons

/-- After any events the pad shows the controls as they were last left. -/
theorem pad_state_exact (events : List InputEvent) :
    let c := (Runs.run onEvent events {}).state
    let p := positions events
    c.present = true ∧
    (∀ b : Button, c.buttons &&& b.mask ≠ 0 ↔ p.Pressed b) ∧
    c.buttons &&& Button.reserved = 0 ∧
    (c.stickX.toInt, c.stickY.toInt) = p.stick ∧ |p.stick.1| ≤ 80 ∧ |p.stick.2| ≤ 80 := by
  intro c p
  have tracks := tracks_run events
  have range := axes_range events
  have present : c.present = true := by
    show (state _).present = true
    unfold state
    dsimp only
    split <;> rfl
  exact ⟨present, tracks.pressed, tracks.reserved, tracks.stick range, stick_range range⟩

/-- A key that is pressed, held and let go again. -/
example : (Runs.run onEvent [.key .Z true false, .key .Z true true, .key .W true false,
    .key .Z false false] {}).state = { buttons := 0, stickX := 0, stickY := 80 } := by decide

end InputMapper

end N64
