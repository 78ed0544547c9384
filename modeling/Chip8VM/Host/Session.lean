import Chip8VM.Host.Buzzer
import Chip8VM.Host.CommandLine
import Chip8VM.Host.KeyLayout
import Chip8VM.Host.Path
import Chip8VM.Host.Window
import Chip8VM.Machine

/-!
# A session

A session runs one program on a machine, with a window, a buzzer and a keyboard. It goes
frame by frame: what happened on the keyboard is handled, the machine runs its cycles,
the buzzer follows the sound timer, and the frame is shown if it changed. One frame is a
`Turn`, and a turn either leaves a session that goes on or ends the run.

Every step of a turn gives a turn, and `Turn.andThen` puts steps together: what comes
after an ending does not happen. `run` is a whole run, from opening the program image to
the ending.
-/

namespace Chip8VM.Host

/-! ## What happens on the keyboard -/

/-- Something that happened to the window or the keyboard. -/
inductive Event where
  /-- The window is to be closed. -/
  | quit
  /-- A key went down, or is `held` down for so long that it repeats. -/
  | keyDown (key : Option Key) (held : Bool)
  /-- A key went up. -/
  | keyUp (key : Option Key)
  /-- Anything else. -/
  | other

/-! ## Sessions and turns -/

/-- A run in progress. -/
structure Session where
  /-- How the devices behave. -/
  devices : Devices
  /-- Cycles in a frame. -/
  cyclesPerFrame : UInt32
  /-- The machine. -/
  machine : Machine
  /-- The sound. -/
  sound : Sound
  /-- The pictures that were to be shown so far. -/
  pictures : Nat

/-- Why a run ends. -/
inductive Ending where
  /-- The user wants it. -/
  | quit
  /-- The machine stopped with a fault. -/
  | fault (fault : Fault)
  /-- A device failed, for this reason. -/
  | device (reason : String)

/-- Part of a run: the session afterwards, the calls it made, what the machine noted
down, and the ending if the run is over. -/
structure Turn where
  /-- The session afterwards. -/
  session : Session
  /-- The calls that were made, in order. -/
  calls : List Call := []
  /-- What the machine noted down, in order. -/
  log : List Machine.Record := []
  /-- Why the run is over, if it is. -/
  ending : Option Ending := none

/-- Goes on unless the run is over. -/
def Turn.andThen (turn : Turn) (next : Session → Turn) : Turn :=
  match turn.ending with
  | some _ => turn
  | none =>
    let after := next turn.session
    { after with calls := turn.calls ++ after.calls, log := turn.log ++ after.log }

namespace Session

/-- What the machine replied, after some calls. A fault ends the run. -/
def reply (s : Session) (calls : List Call) (reply : Machine.Reply Unit) : Turn where
  session := { s with machine := reply.machine }
  calls := calls
  log := reply.log
  ending :=
    match reply.result with
    | .ok () => none
    | .error fault => some (.fault fault)

/-! ## The keyboard -/

/-- A key of the pad went down. A key that is not held answers the wait for a key. -/
def press (s : Session) (pad : UInt8) (held : Bool) : Turn :=
  (s.reply [] (s.machine.setKey pad true)).andThen fun s =>
    if !held && s.machine.isWaiting then s.reply [] (s.machine.answerKey pad) else { session := s }

/-- Handles one event. -/
def handle (s : Session) : Event → Turn
  | .quit => { session := s, ending := some .quit }
  | .keyDown (some key) held =>
    if key = .escape then { session := s, ending := some .quit }
    else if key = .enter then
      if held then { session := s } else s.reply [.note .resetting] s.machine.reset
    else
      match key.pad? with
      | some pad => s.press pad held
      | none => { session := s }
  | .keyUp (some key) =>
    match key.pad? with
    | some pad => s.reply [] (s.machine.setKey pad false)
    | none => { session := s }
  | .keyDown none _ | .keyUp none | .other => { session := s }

/-- Handles events one after the other. -/
def handleAll : Session → List Event → Turn
  | s, [] => { session := s }
  | s, event :: rest => (s.handle event).andThen fun s => s.handleAll rest

/-! ## Frames -/

/-- Runs the cycles of a frame. The buzzer follows the sound timer, and is silent after a
fault. -/
def advance (s : Session) : Turn :=
  let reply := s.machine.run s.cyclesPerFrame.toNat
  match reply.result with
  | .ok () =>
    let (sound, calls) := s.sound.setActive s.devices reply.machine.soundActive
    { session := { s with machine := reply.machine, sound := sound }
      calls := calls
      log := reply.log }
  | .error fault =>
    let (sound, calls) := s.sound.setActive s.devices false
    { session := { s with machine := reply.machine, sound := sound }
      calls := .note (.halting reply.machine.guest.processor.pc fault) :: calls
      log := reply.log
      ending := some (.fault fault) }

/-- Shows the frame if it changed. -/
def refresh (s : Session) : Turn :=
  match s.machine.takeFrame with
  | (none, machine) => { session := { s with machine := machine } }
  | (some frame, machine) =>
    let attempt := Window.render (s.devices.after s.pictures) frame
    { session := { s with machine := machine, pictures := s.pictures + 1 }
      calls := attempt.calls
      ending :=
        match attempt.result with
        | .ok () => none
        | .error reason => some (.device reason) }

/-- Handles what happened on the keyboard since the last frame. -/
def listen (s : Session) (events : List Event) : Turn :=
  ({ session := s, calls := [.poll] } : Turn).andThen fun s => s.handleAll events

/-- One frame. -/
def frame (s : Session) (events : List Event) : Turn :=
  ((s.listen events).andThen advance).andThen refresh

/-- The frames of a script, one after the other, up to an ending. -/
def frames : Session → List (List Event) → Turn
  | s, [] => { session := s }
  | s, events :: rest => (s.frame events).andThen fun s => s.frames rest

/-- The frames of a script, and then one in which the window is closed. -/
def play (s : Session) (script : List (List Event)) : Turn :=
  (s.frames script).andThen fun s => s.frame [.quit]

/-! ## Starting -/

/-- The title of the window, with the name of the program image. -/
def title (path : String) : String :=
  match Path.fileName? path with
  | some name => "Chip-8 - " ++ name
  | none => "Chip-8"

/-- The settings of the machine: its timers tick once a frame. -/
def settings (arguments : Arguments) : Settings where
  cyclesPerTick := arguments.cyclesPerFrame
  seed := arguments.seed

/-- Opens the window, the keyboard and the sound device for a machine. -/
def start (arguments : Arguments) (devices : Devices) (machine : Machine) : Attempt Session := do
  Attempt.need devices .startup
  Window.create devices (title arguments.rom) arguments.scale
  Attempt.need devices .events
  let sound ← if arguments.mute then pure Sound.muted else Sound.create devices
  return ⟨devices, arguments.cyclesPerFrame, machine, sound, 0⟩

end Session

/-! ## Runs -/

/-- Why a run does not end well. -/
inductive Failure where
  /-- The program image could not be opened, for this reason. -/
  | file (reason : String)
  /-- The machine stopped with a fault. -/
  | fault (fault : Fault)
  /-- A device failed, for this reason. -/
  | device (reason : String)
  deriving DecidableEq

/-- A whole run: its calls, what the machine noted down, and how it ended. -/
structure Report where
  /-- The calls that were made, in order. -/
  calls : List Call
  /-- What the machine noted down, in order. -/
  log : List Machine.Record
  /-- How the run ended. -/
  result : Except Failure Unit

/-- The report of a run that came to its end; a user who quits is told so. -/
def Turn.report (turn : Turn) : Report :=
  match turn.ending with
  | none | some .quit => ⟨turn.calls ++ [.note .quitting], turn.log, .ok ()⟩
  | some (.fault fault) => ⟨turn.calls, turn.log, .error (.fault fault)⟩
  | some (.device reason) => ⟨turn.calls, turn.log, .error (.device reason)⟩

/-- The report with calls and records before its own. -/
def Report.after (report : Report) (calls : List Call) (log : List Machine.Record) : Report :=
  { report with calls := calls ++ report.calls, log := log ++ report.log }

/-- A whole run, given what opening the program image came to and the script of what
happens on the keyboard before each frame. -/
def run (arguments : Arguments) (rom : Except String Rom.Source) (devices : Devices)
    (supply : Random.Supply) (script : List (List Event)) : Report :=
  match rom with
  | .error reason => ⟨[], [], .error (.file reason)⟩
  | .ok source =>
    let loaded := (Machine.powerOn (Session.settings arguments) supply).loadRom source
    match loaded.result with
    | .error fault => ⟨[], loaded.log, .error (.fault fault)⟩
    | .ok () =>
      let attempt := Session.start arguments devices loaded.machine
      let calls := .note (.loaded arguments.rom) :: attempt.calls
      match attempt.result with
      | .error reason => ⟨calls, loaded.log, .error (.device reason)⟩
      | .ok session => (session.play script).report.after calls loaded.log

end Chip8VM.Host
