import Chip8VM.Fault

/-!
# Program images from a source

A source of bytes answers one read after the other, with some bytes or with a failure.
An answer without bytes is the end. `gather` collects what the reads give up to the end,
so how a source cuts its bytes into reads makes no difference.
-/

namespace Chip8VM.Rom

/-- The answer to one read. -/
inductive Read where
  /-- The next bytes; none at the end. -/
  | bytes (chunk : List UInt8)
  /-- The source failed, for this reason. -/
  | failure (reason : String)

/-- What a source answers, read by read. After the last answer it is at its end. -/
abbrev Source := List Read

/-- All bytes of a source, after those in `taken`, which are kept last first. -/
def gatherOnto (taken : List UInt8) : Source → Except String (List UInt8)
  | [] | .bytes [] :: _ => .ok taken.reverse
  | .bytes chunk :: rest => gatherOnto (chunk.reverse ++ taken) rest
  | .failure reason :: _ => .error reason

/-- All bytes of a source, or the reason why it failed. -/
def gather (source : Source) : Except String (List UInt8) := gatherOnto [] source

/-- Bytes in pieces of at most `size`, up to the first piece that would be empty: an empty
answer is the end. -/
def chunks (size : Nat) : Nat → List UInt8 → Source
  | 0, _ => []
  | fuel + 1, bytes =>
    match bytes.take size with
    | [] => []
    | piece => .bytes piece :: chunks size fuel (bytes.drop size)

/-- A source that gives at most `size` bytes a read, and fails instead of ending if a
reason is given. If a read may give no byte at all, the source is at its end at once. -/
def source (bytes : List UInt8) (size : Nat) (failing : Option String) : Source :=
  chunks size bytes.length bytes ++
    match failing with
    | some reason => [.failure reason]
    | none => []

/-- Bytes already taken stand before the rest. -/
theorem gatherOnto_eq (taken : List UInt8) (source : Source) :
    gatherOnto taken source = (gather source).map (taken.reverse ++ ·) := by
  induction source generalizing taken with
  | nil => simp [gather, gatherOnto, Except.map]
  | cons answer rest ih =>
    cases answer with
    | failure reason => rfl
    | bytes chunk =>
      cases chunk with
      | nil => simp [gather, gatherOnto, Except.map]
      | cons byte chunk =>
        rw [gatherOnto, gather, gatherOnto, ih, ih (List.reverse (byte :: chunk) ++ [])]
        · cases gather rest <;> simp [Except.map]
        · simp
        · simp

end Chip8VM.Rom
