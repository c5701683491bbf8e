import ScriptLens.Project.Loader

/-!
# Files below directories

The loader that looks names up in a list of directories. A name never leads to
the root of the disk: slashes at its start say nothing. A name without an
extension also stands for the file with the usual one.
-/

namespace ScriptLens

/-- The directories in which names are looked up, in this order. -/
structure SearchPath where
  /-- The directories. -/
  roots : List Path
deriving DecidableEq, Repr

namespace SearchPath

variable {m : Type → Type} [Monad m] [FileSystem m]

/-- The path that a name stands for below a directory. -/
def relativePath (name : String) : Path :=
  Path.ofText (String.ofList (name.toList.dropWhile (· = '/')))

/-- The extension that names may leave out. -/
def impliedExtension : String := "c"

/-- The paths at which a name is looked up below a directory. -/
def candidates (name : String) (root : Path) : List Path :=
  let path := root.join (relativePath name)
  if (relativePath name).extension?.isNone then [path, path.withExtension impliedExtension]
  else [path]

/-- **The first file among the paths at which a name is looked up.** -/
def find? (s : SearchPath) (name : String) : m (Option Path) :=
  (s.roots.flatMap (candidates name)).findM? FileSystem.isFile

/-- The text of a name. -/
def load (s : SearchPath) (name : String) : m (Except LoadError String) := do
  match ← s.find? name with
  | none => return .error (.notFound name)
  | some path => return (← FileSystem.read path).mapError (.inaccessible name)

/-- Gives a name a text: in the file it stands for or, without one, in a new file
below the first directory. -/
def save (s : SearchPath) (name text : String) : m (Except LoadError Unit) := do
  let found ← s.find? name
  match found.or (s.roots.head?.map (·.join (relativePath name))) with
  | none => return .error (.unsupported "save without a search root")
  | some path => return (← FileSystem.write path text).mapError (.inaccessible name)

end SearchPath

/-- **The loader of files below directories.** -/
def Loader.files {m : Type → Type} [Monad m] [FileSystem m] (s : SearchPath) : Loader m where
  load := s.load
  save := s.save
  canCompile := false
  compile := refuseCompile

end ScriptLens
