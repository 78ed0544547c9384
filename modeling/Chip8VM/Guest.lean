import Chip8VM.Keypad
import Chip8VM.Memory
import Chip8VM.Processor
import Chip8VM.Random
import Chip8VM.Screen

/-!
# The guest

Everything that a program can see or change while it runs: the processor, memory, the
screen, the keypad and the random bytes still to come. Guests share nothing.
-/

namespace Chip8VM

/-- The state of a running program. -/
structure Guest where
  /-- Registers, stack and timers. -/
  processor : Processor
  /-- The font, the program and its data. -/
  memory : Memory
  /-- The frame and its redraw flag. -/
  screen : Screen
  /-- The keys that are down, and the wait for one. -/
  keypad : Keypad
  /-- The random bytes still to come. -/
  random : Random.Stream

namespace Guest

/-- Everything as it is before the first instruction, with the given random bytes. -/
def powerOn (random : Random.Stream) : Guest where
  processor := .powerOn
  memory := .powerOn
  screen := .powerOn
  keypad := .powerOn
  random := random

/-- The value of a register operand. -/
def register (g : Guest) (operand : UInt64) : UInt8 :=
  g.processor.v[Register.ofOperand operand]

/-- Puts a byte into the register of an operand. -/
def setRegister (g : Guest) (operand : UInt64) (byte : UInt8) : Guest :=
  { g with processor := g.processor.set (.ofOperand operand) byte }

/-- Sets the flag, then puts a byte into the register of an operand, so that the byte
stays when that register is the flag itself. -/
def setWithFlag (g : Guest) (operand : UInt64) (byte : UInt8) (flag : Bool) : Guest :=
  { g with processor := (g.processor.setFlag flag).set (.ofOperand operand) byte }

/-- Passes over the next instruction if the condition holds. -/
def skipIf (g : Guest) (condition : Bool) : Guest :=
  { g with processor := g.processor.skipIf condition }

end Guest

end Chip8VM
