/-
The directory that the settings file lies in, as far as saving settings can tell.

There may be no such directory, or a plain file in its place; and where it is a
directory, there may be no file in it yet, or a directory in the file's place.
Writing creates the directories that are missing and replaces the file as a whole,
and what stands in the way blocks it.  It may also go wrong where nothing stands in
the way, for want of permission or of room.  A write that fails leaves the file as it
was, though it may have created the directory.  Others are not blocked: they clear
away whatever is in their way.

Where the path of the settings file is no path that a file can have, nothing ever
comes to stand there.
-/

namespace CallLifecycle

/-! ### Paths -/

/-- Why no file can have a path. -/
inductive PathFault
  /-- The path has too many bytes, or a name in it has. -/
  | tooLong
  /-- There is a null character in the path. -/
  | null
  deriving DecidableEq

/-- How many bytes a name in a path may have. -/
def maxNameSize : Nat := 255

/-- How many bytes a path may have. -/
def maxPathSize : Nat := 4095

/-- The number of bytes in the longest name of a path, where the first name has `n` bytes more. -/
def longestName (n : Nat) : List Char → Nat
  | [] => n
  | c :: cs =>
    if c = '/' then max n (longestName 0 cs) else longestName (n + c.utf8Size) cs

/-- Why no file can have this path, if none can.  A null character is found before lengths are. -/
def pathFault? (path : String) : Option PathFault :=
  if path.toList.contains '\x00' then some .null
  else if maxPathSize < path.utf8ByteSize ∨ maxNameSize < longestName 0 path.toList then
    some .tooLong
  else none

/-- The path of the settings file in a directory. -/
def settingsPath (directory : String) : String :=
  let slash := if directory.toList.getLast? = some '/' then "" else "/"
  directory ++ slash ++ "call_config.json"

/-! ### What stands there -/

/-- Two contents of a file are one if all their bytes are. -/
instance decEqContents : DecidableEq ByteArray :=
  ByteArray.instDecidableEq

/-- What stands at the path of the settings file. -/
inductive FilePlace
  | absent
  | file (bytes : ByteArray)
  | directory
  deriving DecidableEq

/-- What stands at the path of the data directory. -/
inductive DataDirectory
  | absent
  | plainFile
  | directory (place : FilePlace)
  /-- Nothing can, or no settings file can stand in it. -/
  | unreachable (fault : PathFault)
  deriving DecidableEq

/-- What else may go wrong with a write, and what is said of it. -/
inductive Mishap
  /-- The directory cannot be created, or cannot be entered. -/
  | onDirectory (reason : String)
  /-- The file cannot be written. -/
  | onFile (reason : String)
  deriving DecidableEq

/-- Why a file cannot be written. -/
inductive WriteError
  /-- A plain file stands where the directory should be. -/
  | directoryIsFile
  /-- A directory stands where the file should be. -/
  | fileIsDirectory
  /-- No file can have the path. -/
  | badPath (fault : PathFault)
  /-- Nothing stands in the way, and yet it went wrong. -/
  | mishap (reason : String)
  deriving DecidableEq

/-- What is said of a write that fails. -/
def WriteError.message : WriteError → String
  | badPath .tooLong => "File name too long (os error 36)"
  | badPath .null => "file name contained an unexpected NUL byte"
  | directoryIsFile => "File exists (os error 17)"
  | fileIsDirectory => "Is a directory (os error 21)"
  | mishap reason => reason

/-- Something done to the directory by others. -/
inductive DiskStep
  /-- A file is put at the file's path. -/
  | writeFile (bytes : ByteArray)
  | removeFile
  | removeDirectory
  /-- The file's path becomes an empty directory. -/
  | makeFileDirectory
  /-- The directory's path becomes a plain file. -/
  | makeDirectoryFile
  deriving DecidableEq

namespace DataDirectory

/-- The directory at a path where nothing stands yet. -/
def ofPath (path : String) : DataDirectory :=
  match pathFault? (settingsPath path) with
  | some fault => unreachable fault
  | none => absent

/-- The bytes of the settings file, if there is one. -/
def read? : DataDirectory → Option ByteArray
  | directory (.file bytes) => some bytes
  | _ => none

/-- The text of the settings file, if there is one and it is text. -/
def readText? (disk : DataDirectory) : Option String :=
  disk.read?.bind String.fromUTF8?

/-- Creates the directory if there is none, and finds what stands at the file's path in it. -/
def enter (disk : DataDirectory) (mishap : Option Mishap) : Except WriteError FilePlace :=
  match mishap, disk with
  | some (.onDirectory reason), _ => .error (.mishap reason)
  | _, absent => .ok .absent
  | _, plainFile => .error .directoryIsFile
  | _, directory place => .ok place
  | _, unreachable fault => .error (.badPath fault)

/-- Puts the bytes where the file stands, or nothing. -/
def replace (place : FilePlace) (bytes : ByteArray) (mishap : Option Mishap) :
    Except WriteError FilePlace :=
  match mishap, place with
  | some (.onFile reason), _ => .error (.mishap reason)
  | _, .directory => .error .fileIsDirectory
  | _, .absent | _, .file _ => .ok (.file bytes)

/-- Writes the settings file: how the disk is then, and why the file is not written, if so. -/
def write (bytes : ByteArray) (disk : DataDirectory) (mishap : Option Mishap := none) :
    DataDirectory × Option WriteError :=
  match disk.enter mishap with
  | .error e => (disk, some e)
  | .ok place =>
    match replace place bytes mishap with
    | .error e => (directory place, some e)
    | .ok new => (directory new, none)

/-- What others make of the directory. -/
def apply : DataDirectory → DiskStep → DataDirectory
  | unreachable fault, _ => unreachable fault
  | _, .writeFile bytes => directory (.file bytes)
  | directory _, .removeFile => directory .absent
  | disk, .removeFile => disk
  | _, .removeDirectory => absent
  | _, .makeFileDirectory => directory .directory
  | _, .makeDirectoryFile => plainFile

/-- A text is read where the bytes of the file are its own. -/
theorem readText?_eq_some {disk : DataDirectory} {text : String} :
    disk.readText? = some text ↔ disk.read? = some text.toUTF8 := by
  rw [readText?, Option.bind_eq_some_iff]
  constructor
  · rintro ⟨bytes, hread, htext⟩
    unfold String.fromUTF8? at htext
    split at htext
    · cases htext
      exact hread
    · cases htext
  · intro hread
    exact ⟨_, hread, dif_pos text.isValidUTF8⟩

end DataDirectory

end CallLifecycle
