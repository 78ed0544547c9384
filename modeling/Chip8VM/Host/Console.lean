import Chip8VM.Host.Session

/-!
# The console

A front end for a terminal. Its keyboard is a script: one line for each frame, with a
word for each thing that happened, such as `+Q` for a key that went down, `=Q` for one
that is held, `-Q` for one that went up and `quit`. Its window is text, with a mark for
every lit pixel. There is no sound device.
-/

namespace Chip8VM.Host.Console

/-! ## The script -/

/-- What one word of the script says. -/
def eventOfWord (word : String) : Event :=
  match word.toList with
  | '+' :: key => .keyDown (some ⟨String.ofList key⟩) false
  | '=' :: key => .keyDown (some ⟨String.ofList key⟩) true
  | '-' :: key => .keyUp (some ⟨String.ofList key⟩)
  | _ => if word = "quit" then .quit else .other

/-- The words of a line, in front of those that were read after it. -/
def wordsOnto : List Char → List Char → List String
  | word, [] => if word.isEmpty then [] else [String.ofList word.reverse]
  | word, c :: rest =>
    if c.isWhitespace then
      if word.isEmpty then wordsOnto [] rest else String.ofList word.reverse :: wordsOnto [] rest
    else wordsOnto (c :: word) rest

/-- What happened before one frame. -/
def eventsOfLine (line : String) : List Event := (wordsOnto [] line.toList).map eventOfWord

/-! ## The window -/

/-- The rows of a texture as text. -/
def picture (t : Texture) : List String :=
  (List.range 32).map fun y =>
    String.ofList ((List.range 64).map fun x => if t.lit x y then '#' else '.')

/-- What a call prints. -/
def lines : Call → List String
  | .note note => [note.level.name ++ " " ++ note.text]
  | .window _ _ title => [title]
  | .copy texture => picture texture
  | _ => []

/-- The devices of the console. -/
def devices : Devices where
  failing part := if part = .audio then some "a terminal has no sound device" else none
  padding := 0
  rate := none
  samples := 0

/-! ## Messages -/

/-- How the program is called. -/
def usage : String :=
  "usage: chip8vm [--cycles-per-frame N] [--frame-rate N] [--scale N] [--seed N] [--mute] ROM"

/-- What is said about a command line that is not accepted. -/
def problemText : CommandLine.Problem → String
  | .badValue => "a value is not a number in the range of its option"
  | .noValue => "a value or the path of a program image is missing"
  | .unknown => "there is an argument too many"
  | .noRom => "the path of a program image is missing"
  | .repeated => "an option is given twice"
  | .extraValue => "an option that takes no value is given one"
  | .help => usage

/-- What is said about a run that ended badly. -/
def failureText : Failure → String
  | .file reason => reason
  | .fault fault => fault.message
  | .device reason => reason

end Chip8VM.Host.Console
