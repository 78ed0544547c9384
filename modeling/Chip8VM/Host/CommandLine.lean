/-!
# The command line

A program image is named by its path; options change how it is run. An option is written
`--name value` or `--name=value`, `--mute` and `--help` stand alone, and after a lone
`--` everything is a path.

Arguments are read from left to right, and the first that cannot be accepted decides
(`Problem`). A path, or a value that is an argument of its own, counts as read when the next
argument has found its place, or at the end. So an argument that has no place (an option
that does not exist, a second path, a value for an option that stands alone) comes before a
fault of the path or value just ahead of it (`Item.waits`). That no path was given shows
last of all.

Numbers are decimal, may start with a plus sign, and have to lie in the range of their
option (`Setting.least`, `Setting.most`).
-/

namespace Chip8VM.Host

/-- What a run is started with. -/
structure Arguments where
  /-- The path of the program image. -/
  rom : String
  /-- Cycles in a frame, and completed cycles for one tick of the timers. -/
  cyclesPerFrame : UInt32 := 10
  /-- Frames in a second. -/
  frameRate : UInt32 := 60
  /-- The width of a pixel in the window. -/
  scale : UInt32 := 10
  /-- The seed of the random bytes, if they are to be the same in every run. -/
  seed : Option UInt64 := none
  /-- Whether to do without sound. -/
  mute : Bool := false
  deriving DecidableEq

namespace CommandLine

/-- Why a command line is not accepted. -/
inductive Problem where
  /-- A value is no number, or lies out of range. -/
  | badValue
  /-- An option lacks its value, or the path is empty. -/
  | noValue
  /-- There is no such option, or a path was already given. -/
  | unknown
  /-- No path was given. -/
  | noRom
  /-- An option was given twice. -/
  | repeated
  /-- An option that stands alone was given a value. -/
  | extraValue
  /-- Help was asked for. -/
  | help
  deriving DecidableEq

/-! ## Options with a value -/

/-- An option that takes a number. -/
inductive Setting where
  /-- Cycles in a frame. -/
  | cyclesPerFrame
  /-- Frames in a second. -/
  | frameRate
  /-- The width of a pixel in the window. -/
  | scale
  /-- The seed of the random bytes. -/
  | seed
  deriving DecidableEq

namespace Setting

/-- All options that take a number. -/
def all : List Setting := [cyclesPerFrame, frameRate, scale, seed]

/-- The name of an option, without its dashes. -/
def name : Setting → String
  | cyclesPerFrame => "cycles-per-frame"
  | frameRate => "frame-rate"
  | scale => "scale"
  | seed => "seed"

/-- The option of a name. -/
def ofName? (name : String) : Option Setting := all.find? fun setting => setting.name = name

/-- The least number that an option takes. -/
def least : Setting → Nat
  | cyclesPerFrame | frameRate | scale => 1
  | seed => 0

/-- The greatest number that an option takes. -/
def most : Setting → Nat
  | cyclesPerFrame => 4294967295
  | frameRate => 1000
  | scale => 64
  | seed => 18446744073709551615

end Setting

/-- The number that decimal digits write. -/
def decimalValue (digits : List Char) : Nat :=
  digits.foldl (fun n c => n * 10 + (c.toNat - '0'.toNat)) 0

/-- The digits of a number, without the plus sign that may stand before them. -/
def unsigned : List Char → List Char
  | '+' :: digits => digits
  | digits => digits

/-- The number that a text writes. Only the ten ASCII digits count as digits. -/
def number? (text : String) : Option Nat :=
  let digits := unsigned text.toList
  if digits ≠ [] ∧ digits.all Char.isDigit then some (decimalValue digits) else none

/-- The number that a text writes for an option, if it lies in the option's range. -/
def Setting.value? (setting : Setting) (text : String) : Option Nat :=
  (number? text).filter fun n => setting.least ≤ n && n ≤ setting.most

/-! ## Words -/

/-- What one argument looks like, before it is known whether it can stand there. -/
inductive Word where
  /-- A path, or the value of the option before it. -/
  | plain (text : String)
  /-- The end of the options. -/
  | stop
  /-- The option for help, with the value written to it, if any. -/
  | help (value : Option String)
  /-- The option for silence, with the value written to it, if any. -/
  | mute (value : Option String)
  /-- An option that takes a number, with the value written to it, if any. -/
  | setting (setting : Setting) (value : Option String)
  /-- An option that does not exist. -/
  | unknown

/-- The option of a name, with the value written to it. -/
def Word.ofName (name : String) (value : Option String) : Word :=
  if name = "help" then .help value
  else if name = "mute" then .mute value
  else
    match Setting.ofName? name with
    | some found => .setting found value
    | none => .unknown

/-- What stands after the first equals sign, if there is one. -/
def valueAfterEquals (cs : List Char) : Option String :=
  match cs.dropWhile (· ≠ '=') with
  | [] => none
  | _ :: value => some (String.ofList value)

/-- What an argument looks like. A single dash is a path. -/
def Word.ofString (text : String) : Word :=
  match text.toList with
  | ['-', '-'] => .stop
  | '-' :: '-' :: cs => .ofName (String.ofList (cs.takeWhile (· ≠ '='))) (valueAfterEquals cs)
  | '-' :: 'h' :: _ => .help none
  | '-' :: _ :: _ => .unknown
  | _ => .plain text

/-! ## Items -/

/-- One thing that a command line says. -/
inductive Item where
  /-- The path. -/
  | rom (path : String)
  /-- An option with the value written to it. -/
  | joined (setting : Setting) (text : String)
  /-- An option with the argument after it as its value, if there is one to take. -/
  | apart (setting : Setting) (text : Option String)
  /-- The wish for silence. -/
  | mute
  /-- The wish for help. -/
  | help
  /-- An argument that has no place here. -/
  | misfit (problem : Problem)

namespace Item

/-- What a path says, where only the first one has a place. -/
def ofPath (taken : Bool) (path : String) : Item :=
  if taken then .misfit .unknown else .rom path

/-- Whether an argument has no place here. -/
def isMisfit : Item → Bool
  | misfit _ => true
  | _ => false

/-- Whether an item waits to be checked until the next argument has found its place. A path
and a value that is an argument of its own do. -/
def waits : Item → Bool
  | rom _ | apart _ _ => true
  | _ => false

end Item

/-- What arguments say that are paths, whatever they look like. `taken` tells whether there
was a path before them. -/
def pathItems : Bool → List String → List Item
  | _, [] => []
  | taken, path :: rest => .ofPath taken path :: pathItems true rest

/-- What arguments say. `taken` tells whether there was a path before them. -/
def items : Bool → List String → List Item
  | _, [] => []
  | taken, argument :: rest =>
    match Word.ofString argument with
    | .plain path => .ofPath taken path :: items true rest
    | .stop => pathItems taken rest
    | .help none => .help :: items taken rest
    | .mute none => .mute :: items taken rest
    | .help (some _) | .mute (some _) => .misfit .extraValue :: items taken rest
    | .unknown => .misfit .unknown :: items taken rest
    | .setting setting (some text) => .joined setting text :: items taken rest
    | .setting setting none =>
      match rest with
      | [] => [.apart setting none]
      | next :: rest =>
        match Word.ofString next with
        | .plain text => .apart setting (some text) :: items taken rest
        | _ => .apart setting none :: items taken (next :: rest)

/-! ## Reading -/

/-- What was read so far. -/
structure Draft where
  /-- The path. -/
  rom : Option String
  /-- The numbers that were given. -/
  values : List (Setting × Nat)
  /-- Whether to do without sound. -/
  mute : Bool

namespace Draft

/-- Nothing was read. -/
def empty : Draft := ⟨none, [], false⟩

/-- Takes a path. -/
def addRom (draft : Draft) (path : String) : Except Problem Draft :=
  if path = "" then .error .noValue else .ok { draft with rom := some path }

/-- Takes a number for an option. -/
def addValue (draft : Draft) (setting : Setting) (text : String) : Except Problem Draft :=
  if (draft.values.lookup setting).isSome then .error .repeated
  else
    match setting.value? text with
    | none => .error .badValue
    | some n => .ok { draft with values := (setting, n) :: draft.values }

/-- Takes the wish for silence. -/
def addMute (draft : Draft) : Except Problem Draft :=
  if draft.mute then .error .repeated else .ok { draft with mute := true }

/-- Takes an item. -/
def add (draft : Draft) : Item → Except Problem Draft
  | .rom path => draft.addRom path
  | .joined setting text | .apart setting (some text) => draft.addValue setting text
  | .apart _ none => .error .noValue
  | .mute => draft.addMute
  | .help => .error .help
  | .misfit problem => .error problem

/-- Takes items in their order. One that waits is passed over if the next has no place. -/
def addAll : Draft → List Item → Except Problem Draft
  | draft, [] => .ok draft
  | draft, item :: rest =>
    if item.waits && rest.head?.any Item.isMisfit then addAll draft rest
    else
      match draft.add item with
      | .error problem => .error problem
      | .ok draft => addAll draft rest

/-- The number given for an option. -/
def value? (draft : Draft) (setting : Setting) : Option Nat := draft.values.lookup setting

/-- What a run is started with, where every option that was not given has its default. -/
def finish (draft : Draft) : Except Problem Arguments :=
  match draft.rom with
  | none => .error .noRom
  | some rom =>
    let plain : Arguments := { rom := rom }
    .ok {
      rom := rom
      cyclesPerFrame := ((draft.value? .cyclesPerFrame).map UInt32.ofNat).getD plain.cyclesPerFrame
      frameRate := ((draft.value? .frameRate).map UInt32.ofNat).getD plain.frameRate
      scale := ((draft.value? .scale).map UInt32.ofNat).getD plain.scale
      seed := (draft.value? .seed).map UInt64.ofNat
      mute := draft.mute }

end Draft

/-- What a command line asks for. -/
def parse (arguments : List String) : Except Problem Arguments :=
  match Draft.empty.addAll (items false arguments) with
  | .error problem => .error problem
  | .ok draft => draft.finish

end CommandLine

end Chip8VM.Host
