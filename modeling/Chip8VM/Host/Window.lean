import Chip8VM.Host.Device

/-!
# The window

The window shows the frame as large as `scale` makes it. A frame is shown by filling a
new texture with it and copying that to the window.
-/

namespace Chip8VM.Host.Window

open Attempt

/-- The width of a window in which a pixel is `scale` wide. -/
def width (scale : UInt32) : UInt32 := 64 * scale

/-- The height of a window in which a pixel is `scale` high. -/
def height (scale : UInt32) : UInt32 := 32 * scale

/-- Opens a black window. -/
def create (devices : Devices) (title : String) (scale : UInt32) : Attempt Unit := do
  need devices .video
  call (.window (width scale) (height scale) title)
  call .center
  need devices .window
  need devices .canvas
  call .clear
  call .present

/-- Shows a frame. -/
def render (devices : Devices) (frame : Frame) : Attempt Unit := do
  call .texture
  need devices .texture
  need devices .lock
  call (.copy ((Texture.blank devices.padding).fill frame))
  need devices .copy
  call .present

end Chip8VM.Host.Window
