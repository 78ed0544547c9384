import Chip8VM.Screen

/-!
# Textures

A texture is a picture in three bytes a pixel, row after row. A row takes `pitch` bytes,
which may be more than its pixels need; what lies between two rows belongs to nobody.
Filling a texture from a frame writes each pixel as white or black, three equal bytes
(`rowBytes`), and leaves everything else alone.
-/

namespace Chip8VM.Host

/-- A picture of 64 by 32 pixels in three bytes each. -/
structure Texture where
  /-- The bytes from the start of one row to the start of the next. -/
  pitch : Nat
  /-- All bytes. -/
  bytes : Array UInt8

namespace Texture

/-- The bytes of the pixels of one row. -/
def rowSize : Nat := 192

/-- A byte of a pixel: full when it is lit. -/
def intensity (lit : Bool) : UInt8 := if lit then 255 else 0

/-- The bytes of a row of pixels. -/
def rowBytes (row : BitVec 64) : List UInt8 :=
  (List.range 64).flatMap fun x => List.replicate 3 (intensity (row.getMsbD x))

/-- Bytes written into others from a place on; those past the end are dropped. -/
def overwrite (bytes : Array UInt8) : Nat → List UInt8 → Array UInt8
  | _, [] => bytes
  | start, byte :: rest => overwrite (bytes.setIfInBounds start byte) (start + 1) rest

/-- A texture without a picture, its rows padded. -/
def blank (padding : Nat) : Texture where
  pitch := rowSize + padding
  bytes := Array.replicate (32 * (rowSize + padding)) 0

/-- Writes the pixels of a frame. -/
def fill (t : Texture) (frame : Frame) : Texture :=
  { t with
    bytes := (List.finRange 32).foldl
      (fun bytes y => overwrite bytes (y.val * t.pitch) (rowBytes (frame.row y))) t.bytes }

/-- Whether the pixel in column `x` of row `y` is lit. -/
def lit (t : Texture) (x y : Nat) : Bool := t.bytes[y * t.pitch + 3 * x]?.getD 0 != 0

theorem length_rowBytes (row : BitVec 64) : (rowBytes row).length = rowSize := by
  simp only [rowBytes, List.length_flatMap, List.length_replicate, List.map_const',
    List.length_range, List.sum_replicate_nat]
  rfl

theorem size_overwrite (bytes : Array UInt8) (start : Nat) (new : List UInt8) :
    (overwrite bytes start new).size = bytes.size := by
  induction new generalizing bytes start with
  | nil => rfl
  | cons byte rest ih => rw [overwrite, ih, Array.size_setIfInBounds]

end Texture

end Chip8VM.Host
