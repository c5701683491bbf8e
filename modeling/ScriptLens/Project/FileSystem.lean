import ScriptLens.Project.Path

/-!
# File systems

What the program asks of a file system. Every request follows links. A file
system is a monad, so that the program runs on the disk of a machine as well as
on a disk that is a value (`Disk`).
-/

namespace ScriptLens

/-- What a path can lead to. -/
inductive EntryKind
  | file | directory
deriving DecidableEq, Repr

/-- Why a request fails. -/
inductive FileError
  /-- There is no such entry. -/
  | notFound
  /-- A part of the path that should be a directory is none. -/
  | notADirectory
  /-- The entry is a directory. -/
  | isADirectory
  /-- The path goes through too many links. -/
  | tooManyLinks
  /-- The path has a character that no path can have. -/
  | invalidPath
  /-- The bytes of the file are not text. -/
  | invalidText
  /-- All other causes. -/
  | other
deriving DecidableEq, Repr

/-- The message of an error. -/
def FileError.message : FileError → String
  | notFound => "no such file or directory"
  | notADirectory => "not a directory"
  | isADirectory => "is a directory"
  | tooManyLinks => "too many links"
  | invalidPath => "invalid path"
  | invalidText => "the file is not valid UTF-8"
  | other => "the request failed"

/-- An entry of a directory. -/
structure DirectoryEntry where
  /-- Its name. -/
  name : String
  /-- Whether the entry itself is a link. -/
  isLink : Bool
deriving DecidableEq, Repr

/-- The requests to a file system. -/
class FileSystem (m : Type → Type) where
  /-- What a path leads to. -/
  kind? : Path → m (Option EntryKind)
  /-- The text of a file. -/
  read : Path → m (Except FileError String)
  /-- Puts a text into a file, which is made if there is none. -/
  write : Path → String → m (Except FileError Unit)
  /-- The entries of a directory. -/
  entries : Path → m (List DirectoryEntry)
  /-- The place that a path leads to, in a form that is the same for all paths to
  it. -/
  place? : Path → m (Option (List String))

namespace FileSystem

variable {m : Type → Type} [Monad m] [FileSystem m]

/-- Whether a path leads to a file. -/
def isFile (p : Path) : m Bool := do return (← kind? p) == some .file

/-- Whether a path leads to a directory. -/
def isDirectory (p : Path) : m Bool := do return (← kind? p) == some .directory

end FileSystem

end ScriptLens
