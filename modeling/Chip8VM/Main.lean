import Chip8VM.Host.Console

/-!
# The program

Reads the command line, the program image and the script, runs, and prints. All of it is
decided elsewhere.
-/

namespace Chip8VM.Host.Console

/-- Opens a program image. -/
def openRom (path : String) : IO (Except String Rom.Source) := do
  try
    let bytes ← IO.FS.readBinFile path
    return .ok [.bytes bytes.toList]
  catch failure => return .error (toString failure)

/-- The lines of standard input. -/
partial def readLines (input : IO.FS.Stream) (taken : List String) : IO (List String) := do
  let line ← input.getLine
  if line.isEmpty then return taken.reverse else readLines input (line :: taken)

/-- Keys for power-ons without a seed. -/
def freshSupply : IO Random.Supply := do
  let bytes ← IO.getRandomBytes 8
  let seed := bytes.toList.foldl (fun n byte => n * 256 + byte.toUInt64) 0
  return ⟨fun n => .ofSeed (seed + UInt64.ofNat n), 0⟩

end Chip8VM.Host.Console

open Chip8VM Host Console

/-- Runs a program image on the machine. -/
def main (arguments : List String) : IO UInt32 := do
  match CommandLine.parse arguments with
  | .error problem =>
    IO.eprintln (Console.problemText problem)
    return if problem = .help then 0 else 2
  | .ok chosen =>
    let rom ← openRom chosen.rom
    let script ← readLines (← IO.getStdin) []
    let report :=
      Host.run chosen rom Console.devices (← freshSupply) (script.map Console.eventsOfLine)
    for call in report.calls do
      for line in Console.lines call do
        IO.println line
    match report.result with
    | .ok () => return 0
    | .error failure =>
      IO.eprintln (Console.failureText failure)
      return 1
