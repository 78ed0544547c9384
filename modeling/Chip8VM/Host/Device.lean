import Chip8VM.Fault
import Chip8VM.Host.Texture
import Chip8VM.Host.Tone
import Chip8VM.Machine.Record

/-!
# Devices

The window, the sound device and the keyboard, as a run sees them: what it asks of them
(`Call`) and what may go wrong (`Devices.failing`). Devices that could be opened may still
fail later, at any picture (`Devices.after`). Something that uses devices is an `Attempt`:
the calls it made, in order, and what came of them. An attempt ends with its first failure
and keeps the calls made before it.
-/

namespace Chip8VM.Host

/-! ## Notes -/

/-- What a run tells its user. -/
inductive Note where
  /-- The program image at this path was loaded. -/
  | loaded (path : String)
  /-- There is no sound, for this reason. -/
  | soundless (reason : String)
  /-- The program starts again. -/
  | resetting
  /-- The run ends with a fault; the program counter stands here. -/
  | halting (pc : UInt16) (fault : Fault)
  /-- The run ends because the user wants it. -/
  | quitting

namespace Note

/-- The level of a note. -/
def level : Note → Level
  | loaded _ | resetting | quitting => .info
  | soundless _ => .warn
  | halting _ _ => .error

/-- The wording of a note. -/
def text : Note → String
  | loaded path => "loaded " ++ path
  | soundless reason => "unable to open audio, continuing muted: " ++ reason
  | resetting => "resetting"
  | halting pc fault => "halting at " ++ Hex.text 4 pc.toNat ++ ": " ++ fault.message
  | quitting => "quitting"

end Note

/-! ## Calls -/

/-- What a run does to the world. -/
inductive Call where
  /-- Tells the user something. -/
  | note (note : Note)
  /-- Opens a window of this size and title. -/
  | window (width height : UInt32) (title : String)
  /-- Puts the window in the middle. -/
  | center
  /-- Blackens the window. -/
  | clear
  /-- Shows what was drawn. -/
  | present
  /-- Opens the sound device for one channel at so many samples a second. -/
  | audio (rate : Int)
  /-- Asks the keyboard what happened. -/
  | poll
  /-- Makes a texture. -/
  | texture
  /-- Copies a texture to the window. -/
  | copy (texture : Texture)
  /-- Starts the sound. -/
  | resume
  /-- Hands samples to the sound device. -/
  | samples (samples : List Sample)
  /-- Stops the sound. -/
  | pause

/-- What may refuse to work. -/
inductive Part where
  /-- Getting hold of the devices at all. -/
  | startup
  /-- Video. -/
  | video
  /-- The window. -/
  | window
  /-- The canvas in the window. -/
  | canvas
  /-- Sound. -/
  | audio
  /-- The sound device. -/
  | playback
  /-- The keyboard. -/
  | events
  /-- Making a texture. -/
  | texture
  /-- Writing to a texture. -/
  | lock
  /-- Copying a texture to the window. -/
  | copy
  deriving DecidableEq

/-- How the devices behave. -/
structure Devices where
  /-- Why a part refuses to work, if it does. -/
  failing : Part → Option String
  /-- The unused bytes at the end of each row of a texture. -/
  padding : Nat
  /-- The samples a second that the sound device takes, if not what it was asked for. -/
  rate : Option Int
  /-- The samples that the sound device takes whenever it starts. -/
  samples : Nat
  /-- Why a part refuses to work when so many pictures were to be shown before, if it does.
  Unless this is given, the devices never change. -/
  failingAfter : Nat → Part → Option String := fun _ => failing

/-- The devices when so many pictures were to be shown before. -/
def Devices.after (devices : Devices) (pictures : Nat) : Devices :=
  { devices with failing := devices.failingAfter pictures }

/-! ## Attempts -/

/-- Calls, and what came of them: a value or the reason of a failure. -/
structure Attempt (α : Type) where
  /-- The calls that were made, in order. -/
  calls : List Call
  /-- What came of them. -/
  result : Except String α

namespace Attempt

variable {α β : Type}

/-- Goes on after a success. -/
def andThen (attempt : Attempt α) (next : α → Attempt β) : Attempt β :=
  match attempt.result with
  | .error reason => ⟨attempt.calls, .error reason⟩
  | .ok a => ⟨attempt.calls ++ (next a).calls, (next a).result⟩

instance : Monad Attempt where
  pure a := ⟨[], .ok a⟩
  bind := andThen

/-- Makes one call. -/
def call (call : Call) : Attempt Unit := ⟨[call], .ok ()⟩

/-- Needs a part to work. -/
def need (devices : Devices) (part : Part) : Attempt Unit :=
  match devices.failing part with
  | some reason => ⟨[], .error reason⟩
  | none => ⟨[], .ok ()⟩

end Attempt

end Chip8VM.Host
