/-!
# The screen

A frame is 32 rows of 64 pixels, each a bit of its row with the leftmost pixel first.
One row of a sprite is a byte: eight pixels, flipped where a bit is set. They lie from
column `x` on and wrap around the right edge, and rows wrap around the bottom edge, so
flipping is the exclusive or of one frame row with a rotated mask (`rowMask`).

The screen is a frame together with a flag that rises with every change, so that a
frame is handed out only when there may be something new to show (`Screen.takeFrame`).
-/

namespace Chip8VM

/-! ## Frames -/

/-- The pixels. -/
structure Frame where
  /-- The rows from top to bottom, the leftmost pixel in the highest bit. -/
  rows : Vector (BitVec 64) 32
  deriving DecidableEq

namespace Frame

/-- All pixels dark. -/
def blank : Frame := ⟨Vector.replicate 32 0⟩

/-- A row of pixels. -/
def row (frame : Frame) (y : Fin 32) : BitVec 64 := frame.rows[y]

/-- Whether the pixel in column `x` of row `y` is lit. -/
def lit (frame : Frame) (x : Fin 64) (y : Fin 32) : Bool := (frame.row y).getMsbD x

/-- Whether a pixel is lit, where both coordinates wrap around the edges. -/
def pixel (frame : Frame) (x y : UInt64) : Bool :=
  frame.lit (Fin.ofNat 64 x.toNat) (Fin.ofNat 32 y.toNat)

/-- The pixels of a row that a byte drawn in column `x` covers with set bits. -/
def rowMask (x : UInt64) (byte : UInt8) : BitVec 64 :=
  (byte.toBitVec.setWidth 64 <<< 56).rotateRight (x.toNat % 64)

/-- Flips the pixels under the set bits of a byte. Also tells whether a lit pixel went
dark. -/
def drawRow (frame : Frame) (x y : UInt64) (byte : UInt8) : Frame × Bool :=
  let y : Fin 32 := Fin.ofNat 32 y.toNat
  let mask := rowMask x byte
  (⟨frame.rows.set y (frame.row y ^^^ mask)⟩, frame.row y &&& mask != 0)

@[ext] theorem ext {f f' : Frame} (h : ∀ x y, f.lit x y = f'.lit x y) : f = f' := by
  cases f with | mk rows =>
  cases f' with | mk rows' =>
  congr 1
  apply Vector.ext
  intro y hy
  apply BitVec.eq_of_getMsbD_eq
  intro x hx
  exact h ⟨x, hx⟩ ⟨y, hy⟩

end Frame

/-! ## The screen -/

/-- A frame and whether it changed since it was last handed out. -/
structure Screen where
  /-- The pixels. -/
  frame : Frame
  /-- Whether the frame was drawn on or cleared since it was last handed out. -/
  redraw : Bool

namespace Screen

/-- Blank, with nothing to show. -/
def powerOn : Screen := ⟨.blank, false⟩

/-- Darkens every pixel. -/
def clear (_ : Screen) : Screen := ⟨.blank, true⟩

/-- Draws one row of a sprite. Also tells whether a lit pixel went dark. -/
def drawRow (screen : Screen) (x y : UInt64) (byte : UInt8) : Screen × Bool :=
  let (frame, erased) := screen.frame.drawRow x y byte
  (⟨frame, true⟩, erased)

/-- Draws the rows of a sprite from row `y` down. Also tells whether a lit pixel went
dark. -/
def drawSprite (screen : Screen) (x y : UInt64) : List UInt8 → Screen × Bool
  | [] => (screen, false)
  | byte :: rest =>
    let (drawn, erased) := screen.drawRow x y byte
    let (finished, erasedBelow) := drawSprite drawn x (y + 1) rest
    (finished, erased || erasedBelow)

/-- Hands out the frame if it changed, and lowers the flag. -/
def takeFrame (screen : Screen) : Option Frame × Screen :=
  if screen.redraw then (some screen.frame, { screen with redraw := false })
  else (none, screen)

end Screen

end Chip8VM
