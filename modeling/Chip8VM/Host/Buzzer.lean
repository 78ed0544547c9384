import Chip8VM.Host.Device

/-!
# The buzzer

The buzzer is switched on and off once a frame. Only a change reaches the sound device:
it resumes when the tone starts and pauses when it ends. Whenever it resumes it pulls
samples, in two batches, and the tone goes on where it had stopped. A run without sound
has a buzzer that does nothing (`Sound.muted`).
-/

namespace Chip8VM.Host

/-- A sound device with the tone. -/
structure Buzzer where
  /-- The samples a second that the device takes. -/
  rate : Int
  /-- The phase of the next sample. -/
  phase : Float32
  /-- Whether the tone sounds. -/
  sounding : Bool

namespace Buzzer

open Attempt

/-- Opens the sound device, with the tone silent. -/
def create (devices : Devices) : Attempt Buzzer := do
  need devices .audio
  call (.audio Tone.sampleRate)
  need devices .playback
  return ⟨devices.rate.getD Tone.sampleRate, 0, false⟩

/-- Pulls the samples of one resume, in two batches. -/
def pull (b : Buzzer) (count : Nat) : List Sample × Float32 :=
  (Tone.square b.rate).pullAll [count / 2, count - count / 2] b.phase

/-- Switches the tone on or off, and tells the calls that it takes. -/
def setActive (devices : Devices) (b : Buzzer) (active : Bool) : Buzzer × List Call :=
  if active = b.sounding then (b, [])
  else if active then
    let (samples, phase) := b.pull devices.samples
    ({ b with phase := phase, sounding := true },
      if samples.isEmpty then [.resume] else [.resume, .samples samples])
  else ({ b with sounding := false }, [.pause])

end Buzzer

/-- The sound of a run. -/
inductive Sound where
  /-- None. -/
  | muted
  /-- A buzzer. -/
  | buzzer (buzzer : Buzzer)

namespace Sound

/-- Opens the sound device; a run goes on without sound if that fails. -/
def create (devices : Devices) : Attempt Sound :=
  match Buzzer.create devices with
  | ⟨calls, .ok opened⟩ => ⟨calls, .ok (.buzzer opened)⟩
  | ⟨calls, .error reason⟩ => ⟨calls ++ [.note (.soundless reason)], .ok .muted⟩

/-- Switches the tone on or off, and tells the calls that it takes. -/
def setActive (devices : Devices) (sound : Sound) (active : Bool) : Sound × List Call :=
  match sound with
  | .muted => (.muted, [])
  | .buzzer b =>
    let (b, calls) := b.setActive devices active
    (.buzzer b, calls)

end Sound

end Chip8VM.Host
