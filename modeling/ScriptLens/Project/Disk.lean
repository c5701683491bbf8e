import ScriptLens.Project.FileSystem

/-!
# Disks

A disk that is a value: files, directories and links by their places. A place is
the list of names on the way from the root. Every directory above an entry is an
entry itself; the root always exists.
-/

namespace ScriptLens

/-- An entry of a disk. -/
inductive DiskEntry
  /-- A file with its bytes. -/
  | file (bytes : ByteArray)
  | directory
  /-- A link to a path, which starts at the directory of the link unless it
  starts at the root. -/
  | link (target : Path)

/-- A disk. -/
structure Disk where
  /-- The entries by their places. -/
  entries : List (List String × DiskEntry)
  /-- The place at which relative paths start. -/
  workingDirectory : List String

namespace Disk

/-- How many links a path may go through. -/
def linkLimit : Nat := 40

/-- The entry at a place. -/
def entry? (d : Disk) (place : List String) : Option DiskEntry :=
  if place.isEmpty then some .directory else d.entries.lookup place

/-- Puts an entry at a place. -/
def insert (d : Disk) (place : List String) (entry : DiskEntry) : Disk :=
  { d with entries := (place, entry) :: d.entries.filter (·.1 ≠ place) }

/-- Puts an entry at a place, with the directories above it that are not there
yet. -/
def create (d : Disk) (place : List String) (entry : DiskEntry) : Disk :=
  let above := (List.range place.length).map (place.take ·)
  let withDirectories := above.foldl
    (fun disk directory =>
      if (disk.entry? directory).isSome then disk else disk.insert directory .directory) d
  withDirectories.insert place entry

/-- The disk with nothing but a working directory. -/
def empty (workingDirectory : List String) : Disk :=
  Disk.create ⟨[], workingDirectory⟩ workingDirectory .directory

/-- Where a path leads. -/
inductive Lookup
  /-- To the place of a file. -/
  | file (place : List String) (bytes : ByteArray)
  /-- To the place of a directory. -/
  | directory (place : List String)
  /-- To a place in a directory that holds nothing. -/
  | vacant (place : List String)

/-- The steps of a path. A slash at the end asks for a directory, like a dot. -/
def steps (p : Path) : List String :=
  let names := p.segments.filter (· ≠ "")
  if p.segments.getLast? = some "" then names ++ ["."] else names

/-- Follows steps from the place of a directory. -/
def follow (d : Disk) (links : Nat) (place : List String) (path : List String) :
    Except FileError Lookup :=
  match path with
  | [] => .ok (.directory place)
  | step :: rest =>
    if step = "." then d.follow links place rest
    else if step = ".." then d.follow links place.dropLast rest
    else
      let next := place ++ [step]
      match d.entry? next with
      | none => if rest.isEmpty then .ok (.vacant next) else .error .notFound
      | some .directory => d.follow links next rest
      | some (.file bytes) =>
        if rest.isEmpty then .ok (.file next bytes) else .error .notADirectory
      | some (.link target) =>
        match links with
        | 0 => .error .tooManyLinks
        | links + 1 =>
          d.follow links (if target.isAbsolute then [] else place) (steps target ++ rest)
termination_by (links, path.length)

/-- **Where a path leads.** -/
def lookup (d : Disk) (p : Path) : Except FileError Lookup :=
  if p.segments = [""] then .error .notFound
  else if p.segments.any (·.toList.contains '\x00') then .error .invalidPath
  else d.follow linkLimit (if p.isAbsolute then [] else d.workingDirectory) (steps p)

/-- What a path leads to. -/
def kind? (d : Disk) (p : Path) : Option EntryKind :=
  match d.lookup p with
  | .ok (.file _ _) => some .file
  | .ok (.directory _) => some .directory
  | _ => none

/-- The text of a file. -/
def read (d : Disk) (p : Path) : Except FileError String := do
  match ← d.lookup p with
  | .file _ bytes =>
    match String.fromUTF8? bytes with
    | some text => .ok text
    | none => .error .invalidText
  | .directory _ => .error .isADirectory
  | .vacant _ => .error .notFound

/-- Puts a text into a file, which is made if there is none. -/
def write (d : Disk) (p : Path) (text : String) : Except FileError Disk := do
  match ← d.lookup p with
  | .file place _ => .ok (d.insert place (.file text.toUTF8))
  | .directory _ => .error .isADirectory
  | .vacant place => .ok (d.insert place (.file text.toUTF8))

/-- The place that a path leads to. -/
def place? (d : Disk) (p : Path) : Option (List String) :=
  match d.lookup p with
  | .ok (.file place _) => some place
  | .ok (.directory place) => some place
  | _ => none

/-- The entries of a directory. -/
def directoryEntries (d : Disk) (p : Path) : List DirectoryEntry :=
  match d.lookup p with
  | .ok (.directory place) =>
    d.entries.filterMap fun (at_, entry) =>
      if at_.dropLast = place then
        at_.getLast?.map fun name => ⟨name, entry matches .link _⟩
      else none
  | _ => []

instance : FileSystem (StateM Disk) where
  kind? p := do return (← get).kind? p
  read p := do return (← get).read p
  write p text := do
    match (← get).write p text with
    | .ok disk => set disk; return .ok ()
    | .error cause => return .error cause
  entries p := do return (← get).directoryEntries p
  place? p := do return (← get).place? p

end Disk

end ScriptLens
