/-!
# The pad on a typing keyboard

The pad's sixteen keys lie in a square on the left of a typing keyboard, four columns of
the digit row and of the three letter rows below it.
-/

namespace Chip8VM.Host

/-- A key of the typing keyboard, by its name. -/
structure Key where
  /-- The name of the key. -/
  name : String
  deriving DecidableEq

namespace Key

/-- The key that resets the program. -/
def enter : Key := ⟨"Return"⟩

/-- The key that quits. -/
def escape : Key := ⟨"Escape"⟩

/-- The keys that stand for keys of the pad. -/
def layout : List (Key × UInt8) := [
  (⟨"Num1"⟩, 0x1), (⟨"Num2"⟩, 0x2), (⟨"Num3"⟩, 0x3), (⟨"Num4"⟩, 0xC),
  (⟨"Q"⟩, 0x4), (⟨"W"⟩, 0x5), (⟨"E"⟩, 0x6), (⟨"R"⟩, 0xD),
  (⟨"A"⟩, 0x7), (⟨"S"⟩, 0x8), (⟨"D"⟩, 0x9), (⟨"F"⟩, 0xE),
  (⟨"Z"⟩, 0xA), (⟨"X"⟩, 0x0), (⟨"C"⟩, 0xB), (⟨"V"⟩, 0xF)]

/-- The key of the pad that a key stands for, if it stands for one. -/
def pad? (key : Key) : Option UInt8 := layout.lookup key

end Key

end Chip8VM.Host
