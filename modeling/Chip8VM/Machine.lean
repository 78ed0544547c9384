import Chip8VM.Guest.Execute
import Chip8VM.Instruction.Opcode
import Chip8VM.Machine.Record
import Chip8VM.Rom

/-!
# The machine

A machine runs one guest at a time. It keeps the program it loaded last, so that it can
be reset, and it counts completed cycles, so that the timers tick once in so many of
them (`Settings.timerPeriod`).

Everything that can be asked of a machine gives a `Reply`: a result, the machine
afterwards and what it noted down. Loading, resetting and handing in keys are here, a
single cycle is `Machine.cycle` and many are `Machine.run`. A machine whose program
waits for a key does nothing at all until it gets one, so `run` stops early then.
-/

namespace Chip8VM

/-! ## Settings -/

/-- What may be chosen about a machine without touching what instructions mean. -/
structure Settings where
  /-- Completed cycles for one tick of the timers; zero counts as one. -/
  cyclesPerTick : UInt32 := 1
  /-- The seed of the random bytes. Without one every power-on takes a key of its own. -/
  seed : Option UInt64 := none
  deriving DecidableEq

/-- Completed cycles for one tick of the timers. -/
def Settings.timerPeriod (settings : Settings) : UInt32 := max settings.cyclesPerTick 1

/-! ## Machines -/

/-- A machine. -/
structure Machine where
  /-- What was chosen about it. -/
  settings : Settings
  /-- The state of the program that runs. -/
  guest : Guest
  /-- The program that was loaded last, and none before the first. -/
  program : List UInt8
  /-- Completed cycles since the timers last ticked. -/
  counter : UInt32
  /-- Keys for power-ons without a seed. -/
  supply : Random.Supply

namespace Machine

/-- What a machine gives back: a result, the machine afterwards, and its log. -/
structure Reply (α : Type) where
  /-- What was asked for, or the fault that stopped it. -/
  result : Except Fault α
  /-- The machine afterwards. -/
  machine : Machine
  /-- What was noted down meanwhile, in order. -/
  log : List Record

/-! ## Power-on -/

/-- The random bytes of the next power-on. -/
def nextStream (settings : Settings) (supply : Random.Supply) : Random.Stream :=
  match settings.seed with
  | some seed => .start (.ofSeed seed)
  | none => .start supply.next

/-- The keys that are left after the next power-on. -/
def nextSupply (settings : Settings) (supply : Random.Supply) : Random.Supply :=
  match settings.seed with
  | some _ => supply
  | none => supply.rest

/-- A machine without a program. -/
def powerOn (settings : Settings) (supply : Random.Supply) : Machine where
  settings := settings
  guest := .powerOn (nextStream settings supply)
  program := []
  counter := 0
  supply := nextSupply settings supply

/-- The machine just after power-on, with a program in memory. -/
def restart (m : Machine) (program : List UInt8) (memory : Memory) : Machine :=
  { powerOn m.settings m.supply with
    guest := { Guest.powerOn (nextStream m.settings m.supply) with memory := memory }
    program := program }

/-! ## Programs -/

/-- Starts a program from power-on. A program that does not fit changes nothing. -/
def load (m : Machine) (program : List UInt8) : Reply Unit :=
  match Memory.powerOn.loadProgram program with
  | .error fault => ⟨.error fault, m, []⟩
  | .ok memory => ⟨.ok (), m.restart program memory, [.loaded program.length]⟩

/-- Starts the program that a source gives. A source that fails changes nothing. -/
def loadRom (m : Machine) (source : Rom.Source) : Reply Unit :=
  match Rom.gather source with
  | .error reason => ⟨.error (.unreadableProgram reason), m, []⟩
  | .ok program => m.load program

/-- The machine with everything as it is before the first instruction of a program, and no
program in memory. -/
def emptied (m : Machine) : Machine := { m with guest := .powerOn m.guest.random }

/-- Starts the program that was loaded last from power-on. If it did not fit, it would be gone
from memory. -/
def reset (m : Machine) : Reply Unit :=
  match Memory.powerOn.loadProgram m.program with
  | .error fault => ⟨.error fault, m.emptied, []⟩
  | .ok memory => ⟨.ok (), m.restart m.program memory, [.reset]⟩

/-- A machine with a program. -/
def boot (settings : Settings) (supply : Random.Supply) (program : List UInt8) : Reply Unit :=
  (powerOn settings supply).load program

/-! ## Keys, sound and picture -/

/-- The machine with another keypad. -/
def withKeypad (m : Machine) (keypad : Keypad) : Machine :=
  { m with guest := { m.guest with keypad := keypad } }

/-- Records that a key went down or up. -/
def setKey (m : Machine) (key : UInt8) (pressed : Bool) : Reply Unit :=
  match m.guest.keypad.set key pressed with
  | .error fault => ⟨.error fault, m, []⟩
  | .ok keypad => ⟨.ok (), m.withKeypad keypad, []⟩

/-- Whether the program waits for a key. -/
def isWaiting (m : Machine) : Bool := m.guest.keypad.isWaiting

/-- Hands a key to the register that waits for one, if any does. -/
def answerKey (m : Machine) (key : UInt8) : Reply Unit :=
  match m.guest.keypad.answer key with
  | .error fault => ⟨.error fault, m, []⟩
  | .ok (none, keypad) => ⟨.ok (), m.withKeypad keypad, []⟩
  | .ok (some register, keypad) =>
    ⟨.ok (), { m with guest := { m.guest with keypad := keypad }.setRegister register key },
      [.answered key register]⟩

/-- Whether a tone should sound. -/
def soundActive (m : Machine) : Bool := 0 < m.guest.processor.sound

/-- The frame as it is. -/
def frame (m : Machine) : Frame := m.guest.screen.frame

/-- Hands out the frame if it changed since it was last handed out. -/
def takeFrame (m : Machine) : Option Frame × Machine :=
  let (frame, screen) := m.guest.screen.takeFrame
  (frame, { m with guest := { m.guest with screen := screen } })

/-! ## Cycles -/

/-- Counts a completed cycle, and ticks the timers when their period is over. -/
def countCycle (m : Machine) : Machine :=
  if m.settings.timerPeriod ≤ m.counter + 1 then
    { m with counter := 0, guest := { m.guest with processor := m.guest.processor.tick } }
  else { m with counter := m.counter + 1 }

/-- Executes the instruction `i`, the word at `pc`, with the program counter already past
it. -/
def perform (m : Machine) (pc word : UInt16) (i : Instruction) : Reply Unit :=
  let trace := Record.executing pc word i m.guest.processor.v m.guest.processor.i
  match i.execute m.guest with
  | (.error fault, guest) =>
    ⟨.error fault, { m with guest := guest }, [trace, .executeFailed pc i fault]⟩
  | (.ok (), guest) =>
    ⟨.ok (), { m with guest := guest }.countCycle,
      if guest.keypad.isWaiting then [trace, .awaitingKey] else [trace]⟩

/-- The machine with its program counter past the instruction it points at. -/
def passInstruction (m : Machine) : Machine :=
  { m with guest := { m.guest with processor := m.guest.processor.skip } }

/-- Fetches, decodes and executes one instruction and counts it. While the program waits
for a key this does nothing. -/
def cycle (m : Machine) : Reply Unit :=
  if m.isWaiting then ⟨.ok (), m, []⟩
  else
    let pc := m.guest.processor.pc
    match m.guest.memory.readWord pc.toUInt64 with
    | .error fault => ⟨.error fault, m, [.fetchFailed pc fault]⟩
    | .ok word =>
      match Instruction.decode word with
      | .error fault => ⟨.error fault, m.passInstruction, [.decodeFailed pc fault]⟩
      | .ok i => m.passInstruction.perform pc word i

/-- Runs `n` cycles and notes them down before the records in `noted`, which are kept
last first. -/
def runOnto (noted : List Record) : Nat → Machine → Reply Unit
  | 0, m => ⟨.ok (), m, noted.reverse⟩
  | n + 1, m =>
    if m.isWaiting then ⟨.ok (), m, noted.reverse⟩
    else
      match m.cycle with
      | ⟨.error fault, m, log⟩ => ⟨.error fault, m, (log.reverse ++ noted).reverse⟩
      | ⟨.ok (), m, log⟩ => runOnto (log.reverse ++ noted) n m

/-- Runs `n` cycles, up to the first fault. -/
def run (m : Machine) (n : Nat) : Reply Unit := runOnto [] n m

/-! ## How a run unfolds -/

/-- The records noted down before a run stand before its own. -/
theorem runOnto_eq (noted : List Record) (n : Nat) (m : Machine) :
    runOnto noted n m =
      ⟨(m.run n).result, (m.run n).machine, noted.reverse ++ (m.run n).log⟩ := by
  unfold run
  induction n generalizing noted m with
  | zero => simp [runOnto]
  | succ n ih =>
    rw [runOnto, runOnto]
    split
    · simp
    · split
      · simp
      · rename_i m' log _
        rw [ih (log.reverse ++ noted), ih (log.reverse ++ [])]
        simp

theorem run_zero (m : Machine) : m.run 0 = ⟨.ok (), m, []⟩ := rfl

/-- A cycle of a waiting machine changes nothing. -/
theorem cycle_of_isWaiting {m : Machine} (h : m.isWaiting = true) :
    m.cycle = ⟨.ok (), m, []⟩ := by
  simp [cycle, h]

/-- A run of a waiting machine changes nothing, however long. -/
theorem run_of_isWaiting {m : Machine} (h : m.isWaiting = true) (n : Nat) :
    m.run n = ⟨.ok (), m, []⟩ := by
  cases n <;> simp [run, runOnto, h]

/-- A run is its first cycle and, unless that faults, the run of the others. -/
theorem run_succ (m : Machine) (n : Nat) :
    m.run (n + 1) =
      match m.cycle with
      | ⟨.error fault, m', log⟩ => ⟨.error fault, m', log⟩
      | ⟨.ok (), m', log⟩ => ⟨(m'.run n).result, (m'.run n).machine, log ++ (m'.run n).log⟩ := by
  by_cases h : m.isWaiting = true
  · rw [run_of_isWaiting h, cycle_of_isWaiting h]
    simp [run_of_isWaiting h]
  · rw [run, runOnto]
    simp only [h, Bool.false_eq_true, if_false]
    split
    · simp
    · rw [runOnto_eq]
      simp

end Machine

end Chip8VM
