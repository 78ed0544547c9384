import Chip8VM.Instruction.Mnemonic

/-!
# The machine's log

What the machine notes down while it runs, as values. Every instruction that is about to
execute leaves a trace with the registers before it; every fault of a cycle leaves a
warning with the address of its instruction; loads, resets, waits and deliveries leave a
note. `Record.text` is the wording.
-/

namespace Chip8VM

/-- How much a log record matters. -/
inductive Level where
  /-- Every instruction. -/
  | trace
  /-- Loads, resets and key waits. -/
  | debug
  /-- What a user wants to know. -/
  | info
  /-- Faults of a cycle, and what a user has to do without. -/
  | warn
  /-- What ends a run. -/
  | error
  deriving DecidableEq

/-- The name of a level. -/
def Level.name : Level → String
  | trace => "TRACE"
  | debug => "DEBUG"
  | info => "INFO"
  | warn => "WARN"
  | error => "ERROR"

namespace Machine

/-- What the machine notes down. -/
inductive Record where
  /-- The word at `pc` could not be read. -/
  | fetchFailed (pc : UInt16) (fault : Fault)
  /-- The word at `pc` is no instruction. -/
  | decodeFailed (pc : UInt16) (fault : Fault)
  /-- The word at `pc` is this instruction; the registers are those before it. -/
  | executing (pc word : UInt16) (instruction : Instruction) (v : Vector UInt8 16) (i : UInt16)
  /-- The instruction at `pc` could not be executed. -/
  | executeFailed (pc : UInt16) (instruction : Instruction) (fault : Fault)
  /-- A register now waits for a key. -/
  | awaitingKey
  /-- A key reached the register that waited for it. -/
  | answered (key : UInt8) (register : UInt64)
  /-- A program of this many bytes was loaded. -/
  | loaded (size : Nat)
  /-- The machine was reset. -/
  | reset

namespace Record

/-- The level of a record. -/
def level : Record → Level
  | fetchFailed _ _ | decodeFailed _ _ | executeFailed _ _ _ => .warn
  | executing _ _ _ _ _ => .trace
  | awaitingKey | answered _ _ | loaded _ | reset => .debug

/-- Text with spaces after it, up to a width. -/
def padRight (width : Nat) (text : String) : String :=
  text ++ String.ofList (List.replicate (width - text.length) ' ')

/-- Registers in square brackets, two digits each. -/
def registersText (v : Vector UInt8 16) : String :=
  "[" ++ ", ".intercalate (v.toList.map fun byte => Hex.text 2 byte.toNat) ++ "]"

/-- The wording of a record. -/
def text : Record → String
  | fetchFailed pc fault => Hex.text 4 pc.toNat ++ ": unable to fetch: " ++ fault.message
  | decodeFailed pc fault => Hex.text 4 pc.toNat ++ ": " ++ fault.message
  | executing pc word instruction v i =>
    Hex.text 4 pc.toNat ++ ": " ++ Hex.text 4 word.toNat ++ " "
      ++ padRight 16 instruction.mnemonic ++ " v" ++ registersText v ++ " i"
      ++ Hex.text 4 i.toNat
  | executeFailed pc instruction fault =>
    Hex.text 4 pc.toNat ++ ": " ++ instruction.mnemonic ++ " failed: " ++ fault.message
  | awaitingKey => "waiting for a key press"
  | answered key register =>
    "delivered key " ++ Hex.text 1 key.toNat ++ " to V" ++ Hex.text 1 register.toNat
  | loaded size => "loaded " ++ toString size ++ " byte program"
  | reset => "reset"

end Record

end Machine

end Chip8VM
