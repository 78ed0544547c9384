/-!
# Paths

A path is a list of segments parted by slashes. An empty segment and a single dot stay
where they are, two dots go up, and any other segment is a name.
-/

namespace Chip8VM.Host.Path

/-- The pieces of a text between slashes. -/
def pieces : List Char → List (List Char)
  | [] => [[]]
  | c :: rest =>
    if c = '/' then [] :: pieces rest
    else
      match pieces rest with
      | [] => [[c]]
      | piece :: others => (c :: piece) :: others

/-- The segments of a path. -/
def segments (path : String) : List String := (pieces path.toList).map String.ofList

/-- Whether a segment moves to another place. -/
def moves (segment : String) : Bool := segment != "" && segment != "."

/-- The name of the file or folder that a path leads to, unless it ends by going up or
goes nowhere. -/
def fileName? (path : String) : Option String :=
  match ((segments path).filter moves).getLast? with
  | none | some ".." => none
  | some name => some name

end Chip8VM.Host.Path
