/-!
# The font

Sprites of the sixteen hexadecimal digits, five rows of one byte each, as the machine
keeps them at the bottom of memory.
-/

namespace Chip8VM.Font

/-- The rows of one digit's sprite. -/
def glyphHeight : Nat := 5

/-- The sprites of the digits `0` to `F`, one after the other. -/
def sheet : List UInt8 := [
  0xF0, 0x90, 0x90, 0x90, 0xF0,
  0x20, 0x60, 0x20, 0x20, 0x70,
  0xF0, 0x10, 0xF0, 0x80, 0xF0,
  0xF0, 0x10, 0xF0, 0x10, 0xF0,
  0x90, 0x90, 0xF0, 0x10, 0x10,
  0xF0, 0x80, 0xF0, 0x10, 0xF0,
  0xF0, 0x80, 0xF0, 0x90, 0xF0,
  0xF0, 0x10, 0x20, 0x40, 0x40,
  0xF0, 0x90, 0xF0, 0x90, 0xF0,
  0xF0, 0x90, 0xF0, 0x10, 0xF0,
  0xF0, 0x90, 0xF0, 0x90, 0x90,
  0xE0, 0x90, 0xE0, 0x90, 0xE0,
  0xF0, 0x80, 0x80, 0x80, 0xF0,
  0xE0, 0x90, 0x90, 0x90, 0xE0,
  0xF0, 0x80, 0xF0, 0x80, 0xF0,
  0xF0, 0x80, 0xF0, 0x80, 0x80]

theorem length_sheet : sheet.length = 80 := rfl

/-- The sprite of a hexadecimal digit. -/
def glyph (d : Nat) : List UInt8 := (sheet.drop (glyphHeight * d)).take glyphHeight

theorem length_glyph : ∀ d < 16, (glyph d).length = glyphHeight := by decide

/-- Where a digit's sprite starts. -/
def address (digit : UInt8) : UInt16 := digit.toUInt16 * 5

end Chip8VM.Font
