import ScriptLens.Json.Reader
import ScriptLens.Json.Record
import ScriptLens.Project.FileSystem
import ScriptLens.Service.Completion

/-!
# Project configuration

A project may have a configuration file in its directory. All of its fields have
defaults. Reading is strict: a field that is not known, that is given twice or
that has a value of another type is an error.
-/

namespace ScriptLens

/-- The configuration of a project. -/
structure ProjectConfig where
  /-- Directories in which texts that other texts name are looked up. -/
  includePaths : List Path
  /-- How long a remote loader may take, in milliseconds. -/
  loaderTimeout : Nat
  /-- Whether token listings show comments. -/
  emitComments : Bool
  /-- How completion is to work. -/
  completion : CompletionOptions
deriving DecidableEq, Repr

/-- Why there is no configuration. -/
inductive ConfigError
  /-- The file cannot be read. -/
  | unreadable (path : Path) (cause : FileError)
  /-- The file holds no configuration. -/
  | malformed (path : Path)
deriving DecidableEq, Repr

/-- The message of an error. -/
def ConfigError.message : ConfigError → String
  | unreadable path cause => "cannot read " ++ path.text ++ ": " ++ cause.message
  | malformed path => "invalid " ++ path.text

namespace ProjectConfig

/-- The name of the configuration file. -/
def fileName : String := "mudz.json"

/-- The configuration of a project that has no file. -/
def default : ProjectConfig := ⟨[], 10000, false, ⟨false, none⟩⟩

/-- Completion options by their fields. -/
def completionOfJson? (value : JsonValue) : Option CompletionOptions := do
  match ← value.record? ["case_sensitive", "max_items"] with
  | [caseSensitive, maxItems] =>
    return ⟨← JsonValue.fieldOr? default.completion.caseSensitive (·.bool?) caseSensitive,
      ← JsonValue.fieldOr? default.completion.maxItems
        (JsonValue.nullable? (·.word?)) maxItems⟩
  | _ => none

/-- A list of paths. -/
def pathsOfJson? (value : JsonValue) : Option (List Path) := do
  (← value.array?).mapM fun item => item.string?.map Path.ofText

/-- A configuration by its fields. -/
def ofJson? (value : JsonValue) : Option ProjectConfig := do
  match ← value.record? ["include_paths", "loader_timeout_ms", "emit_comments", "completion"] with
  | [includePaths, loaderTimeout, emitComments, completion] =>
    return ⟨← JsonValue.fieldOr? default.includePaths pathsOfJson? includePaths,
      ← JsonValue.fieldOr? default.loaderTimeout (·.word?) loaderTimeout,
      ← JsonValue.fieldOr? default.emitComments (·.bool?) emitComments,
      ← JsonValue.fieldOr? default.completion completionOfJson? completion⟩
  | _ => none

/-- **The configuration that a text holds.** -/
def read? (text : List Char) : Option ProjectConfig := (JsonValue.read? text).bind ofJson?

/-- The configuration with its relative paths starting at a directory. -/
def relativeTo (directory : Path) (c : ProjectConfig) : ProjectConfig :=
  { c with includePaths := c.includePaths.map directory.join }

/-- **The configuration of the project in a directory.** Without a file it is the
default. -/
def load {m : Type → Type} [Monad m] [FileSystem m] (directory : Path) :
    m (Except ConfigError ProjectConfig) := do
  let path := directory.join (Path.ofText fileName)
  match ← FileSystem.read path with
  | .error .notFound => return .ok default
  | .error cause => return .error (.unreadable path cause)
  | .ok text =>
    match read? text.toList with
    | some config => return .ok (config.relativeTo directory)
    | none => return .error (.malformed path)

end ProjectConfig

end ScriptLens
