import Chip8VM.Hex

/-!
# Faults

What can go wrong while a program is loaded or executed. Nothing here is recovered from
inside the machine: a fault is handed to whoever drives it. `Fault.message` is the
wording of each.
-/

namespace Chip8VM

/-- What stops a load, an instruction or a key. -/
inductive Fault where
  /-- No byte of memory has this address. -/
  | memoryOutOfBounds (address : UInt64)
  /-- The address holds a byte of the font, which programs may not write. -/
  | readOnlyMemory (address : UInt64)
  /-- The program image has this many bytes and does not fit. -/
  | programTooLarge (size : Nat)
  /-- The word is no instruction. -/
  | unknownOpcode (word : UInt16)
  /-- A call at this address found the call stack full. -/
  | stackOverflow (pc : UInt16)
  /-- A return at this address found the call stack empty. -/
  | stackUnderflow (pc : UInt16)
  /-- The pad has no such key. -/
  | invalidKey (key : UInt8)
  /-- The source of a program image failed, for this reason. -/
  | unreadableProgram (reason : String)
  deriving DecidableEq

/-- The largest program image, in bytes. -/
def maxProgramSize : Nat := 3584

/-- The wording of a fault. -/
def Fault.message : Fault → String
  | .memoryOutOfBounds address =>
    "memory access out of bounds at " ++ Hex.literal 4 address.toNat
  | .readOnlyMemory address =>
    "write to read-only font memory at " ++ Hex.literal 4 address.toNat
  | .programTooLarge size =>
    "program is too large (" ++ toString size ++ " bytes), max size is "
      ++ toString maxProgramSize ++ " bytes"
  | .unknownOpcode word => "unimplemented instruction " ++ Hex.literal 4 word.toNat
  | .stackOverflow pc => "call stack overflow at " ++ Hex.literal 4 pc.toNat
  | .stackUnderflow pc => "return with an empty call stack at " ++ Hex.literal 4 pc.toNat
  | .invalidKey key => "key " ++ Hex.literal 2 key.toNat ++ " is not on the keypad"
  | .unreadableProgram reason => "unable to read program: " ++ reason

end Chip8VM
