import Chip8VM.Fault

/-!
# The keypad

Sixteen keys, named by the digits `0` to `F`. The pad knows which of them are down, and
which register, if any, waits for a key to be pressed.
-/

namespace Chip8VM

/-- The pad's state. -/
structure Keypad where
  /-- Which keys are down. -/
  pressed : Vector Bool 16
  /-- The register that waits for a key, as the instruction named it. -/
  waiting : Option UInt64
  deriving DecidableEq

namespace Keypad

/-- No key is down and nothing waits. -/
def powerOn : Keypad := ⟨Vector.replicate 16 false, none⟩

/-- Whether a key is down. A key that the pad lacks never is. -/
def isPressed (pad : Keypad) (key : UInt8) : Bool := pad.pressed[key.toNat]?.getD false

/-- Records that a key went down or up. -/
def set (pad : Keypad) (key : UInt8) (pressed : Bool) : Except Fault Keypad :=
  if h : key.toNat < 16 then .ok { pad with pressed := pad.pressed.set key.toNat pressed }
  else .error (.invalidKey key)

/-- Makes a register wait for a key. -/
def await (pad : Keypad) (register : UInt64) : Keypad := { pad with waiting := some register }

/-- Whether a register waits for a key. -/
def isWaiting (pad : Keypad) : Bool := pad.waiting.isSome

/-- Ends a wait, if there is one, and tells which register waited. -/
def answer (pad : Keypad) (key : UInt8) : Except Fault (Option UInt64 × Keypad) :=
  if key < 16 then .ok (pad.waiting, { pad with waiting := none })
  else .error (.invalidKey key)

end Keypad

end Chip8VM
