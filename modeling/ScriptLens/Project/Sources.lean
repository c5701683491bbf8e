import ScriptLens.Project.FileSystem

/-!
# Collecting source files

The files that a list of paths stands for: a path to a directory stands for the
source files below it, and every other path for itself. Links are followed,
except into a directory that the search is inside of already.
-/

namespace ScriptLens.Sources

/-- The extensions of source files. -/
def extensions : List String := ["c", "h", "lpc"]

/-- Whether a path ends in the name of a source file. -/
def isSourceName (p : Path) : Bool := p.extension?.any extensions.contains

/-- How deep directories can be: no path has more names. -/
def depthLimit : Nat := 2048

variable {m : Type → Type} [Monad m] [FileSystem m]

/-- Whether an entry may be entered: a link must not lead into one of the
directories around it. -/
def mayEnter (around : List (List String)) (isLink : Bool) (place : List String) : Bool :=
  !isLink || !around.contains place

/-- The source files below a directory, at most so many levels deep. `around` are
the places of the directories that the search is inside of. -/
def below : Nat → List (List String) → Path → m (List Path)
  | 0, _, _ => return []
  | depth + 1, around, directory => do
    let groups ← (← FileSystem.entries directory).mapM fun entry => do
      let path := directory.join (Path.ofText entry.name)
      match ← FileSystem.kind? path, ← FileSystem.place? path with
      | some .file, _ => return if isSourceName path then [path] else []
      | some .directory, some place =>
        if mayEnter around entry.isLink place then below depth (place :: around) path
        else return []
      | _, _ => return []
    return groups.flatten

/-- Leaves out paths that lead to the same place as the one before them. -/
def distinctNeighbours : List Path → List Path
  | [] => []
  | p :: rest =>
    match distinctNeighbours rest with
    | [] => [p]
    | q :: others => if p.sameAs q then p :: others else p :: q :: others

/-- **The source files that paths stand for**, in order and each once. -/
def collect (paths : List Path) : m (List Path) := do
  let groups ← paths.mapM fun path => do
    if ← FileSystem.isDirectory path then
      below depthLimit (← FileSystem.place? path).toList path
    else return [path]
  return distinctNeighbours (groups.flatten.mergeSort Path.precedes)

end ScriptLens.Sources
