import Chip8VM.Host.Path
import Chip8VM.Rom

/-!
# A folder of files

The place where a program starts, as far as opening a file by its path is concerned: a
folder of plain files, inside folders of which nothing else is known. Opening gives a
source of bytes or the system's reason for refusing. A folder can be opened, but reading
from it fails.
-/

namespace Chip8VM.Host

/-- The folder in which a program starts. -/
structure Folder where
  /-- Its files, by name. -/
  files : List (String × List UInt8)

namespace Folder

/-- Where a path may lead. -/
inductive Place where
  /-- The folder itself. -/
  | here
  /-- A folder further up. -/
  | above
  /-- A file with these bytes. -/
  | file (bytes : List UInt8)

/-- What the system says about a path that leads nowhere. -/
def notFound : String := "No such file or directory (os error 2)"

/-- What the system says about a file that is used as a folder. -/
def notAFolder : String := "Not a directory (os error 20)"

/-- What the system says about reading from a folder. -/
def isAFolder : String := "Is a directory (os error 21)"

/-- What the system says about a name or a path that is longer than it allows. -/
def tooLong : String := "File name too long (os error 36)"

/-- What is said about a path that holds a zero character. -/
def zeroInside : String := "file name contained an unexpected NUL byte"

/-- Follows one segment of a path. -/
def follow (folder : Folder) (place : Place) (segment : String) : Except String Place :=
  match place with
  | .file _ => .error notAFolder
  | .here | .above =>
    if !Path.moves segment then .ok place
    else if segment = ".." then .ok .above
    else if 255 < segment.utf8ByteSize then .error tooLong
    else
      match place, folder.files.lookup segment with
      | .here, some bytes => .ok (.file bytes)
      | _, _ => .error notFound

/-- Follows segments one after the other. -/
def followAll (folder : Folder) : Place → List String → Except String Place
  | place, [] => .ok place
  | place, segment :: rest =>
    match folder.follow place segment with
    | .error reason => .error reason
    | .ok next => followAll folder next rest

/-- Opens what a path leads to. -/
def openPath (folder : Folder) (path : String) : Except String Rom.Source :=
  if path.toList.contains (Char.ofNat 0) then .error zeroInside
  else if 4096 ≤ path.utf8ByteSize then .error tooLong
  else
    match folder.followAll (if path.startsWith "/" then .above else .here)
      (Path.segments path) with
    | .error reason => .error reason
    | .ok (.file bytes) => .ok [.bytes bytes]
    | .ok .here | .ok .above => .ok [.failure isAFolder]

end Folder

end Chip8VM.Host
