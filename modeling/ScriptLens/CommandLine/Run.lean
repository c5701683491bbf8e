import ScriptLens.CommandLine.Arguments
import ScriptLens.CommandLine.Output
import ScriptLens.Project.Config
import ScriptLens.Project.Resolver
import ScriptLens.Project.SearchPath
import ScriptLens.Project.Sources
import ScriptLens.Service.Cursor
import ScriptLens.Token.Listing
import ScriptLens.Tree.Listing

/-!
# Running the commands

Every command reads what it needs from a file system and gives the text to
print. The paths of the arguments start at a directory, `base`, and are shown
with it.
-/

namespace ScriptLens

/-- Why a command gives no text. -/
inductive CommandError
  /-- The project has no readable configuration. -/
  | config (cause : ConfigError)
  /-- The path that was given for the project leads to none. -/
  | noProject (path : Path)
  /-- A file cannot be read. -/
  | unreadable (path : Path) (cause : FileError)
  /-- The cursor is outside the text. -/
  | cursor (cause : CursorError)
deriving DecidableEq, Repr

/-- The message of an error. -/
def CommandError.message : CommandError → String
  | config cause => cause.message
  | noProject path =>
    "project path " ++ path.text ++ " is not a directory or " ++ ProjectConfig.fileName
  | unreadable path _ => "failed to read " ++ path.text
  | cursor cause => cause.message

/-- What a command gives. -/
structure CommandOutput where
  /-- The text to print. -/
  text : String
  /-- Whether problems were found. -/
  hasErrors : Bool
deriving DecidableEq, Repr

namespace Arguments

variable {m : Type → Type} [Monad m] [FileSystem m]

/-- The directory of the project: the one that was given, or the one that holds
the configuration file that was given, or else the directory at which paths
start. -/
def projectDirectory (a : Arguments) (base : Path) : ExceptT CommandError m Path := do
  match a.project with
  | none => return base
  | some given =>
    let path := base.join given
    if ← FileSystem.isDirectory (m := m) path then return path
    else if path.fileName? = some ProjectConfig.fileName then return path.parent?.getD base
    else throw (.noProject path)

/-- **The configuration** of the project, with the directories of the command
line after its own. -/
def loadConfig (a : Arguments) (base : Path) : ExceptT CommandError m ProjectConfig := do
  let directory ← a.projectDirectory base
  match ← ProjectConfig.load (m := m) directory with
  | .ok config =>
    return { config with includePaths := config.includePaths ++ a.includePaths.map base.join }
  | .error cause => throw (.config cause)

end Arguments

namespace Command

variable {m : Type → Type} [Monad m] [FileSystem m]

/-- The text of a file. -/
def readSource (path : Path) : ExceptT CommandError m (List Char) := do
  match ← FileSystem.read (m := m) path with
  | .ok text => return text.toList
  | .error cause => throw (.unreadable path cause)

/-- The offset of a cursor. Without a place the cursor is at the end of the
text. -/
def cursorIn (source : List Char) (offset line column : Option Nat) :
    Except CommandError Nat :=
  match offset, line, column with
  | some offset, _, _ => .ok offset
  | none, some line, some column => (cursorOffset source line column).mapError .cursor
  | none, _, _ => .ok (Text.byteLength source)

/-- The suggestions at an offset of a file. Names are looked up beside the file
and then in the directories of the configuration. -/
def suggestions (config : ProjectConfig) (path : Path) (source : List Char) (offset : Nat) :
    m CompletionResult := do
  let loader : Loader m := Loader.files ⟨path.parent?.toList ++ config.includePaths⟩
  let file := Analysis.ofText path.text source
  let (dependencies, _) ← Resolver.empty.dependencies loader.load file
  return file.complete dependencies config.completion offset

/-- The problems of a file. -/
def checkFile (path : Path) : ExceptT CommandError m FileReport := do
  let source ← readSource path
  return ⟨path.text, source, (Analysis.ofText path.text source).diagnostics⟩

/-- **Runs a command.** -/
def run (command : Command) (config : ProjectConfig) (base : Path) (reporter : Reporter) :
    ExceptT CommandError m CommandOutput := do
  match command with
  | .tokens file comments =>
    let source ← readSource (base.join file)
    return ⟨Token.listing source (comments || config.emitComments), false⟩
  | .ast file =>
    let source ← readSource (base.join file)
    return ⟨(SourceTree.parse file.text source).root.listing, false⟩
  | .complete file offset line column json =>
    let path := base.join file
    let source ← readSource path
    let cursor ← cursorIn source offset line column
    let result ← suggestions (m := m) config path source cursor
    return ⟨if json then result.toJson.pretty else result.listing, false⟩
  | .check paths json =>
    let files ← Sources.collect (m := m) (paths.map base.join)
    let reports ← files.mapM checkFile
    let text :=
      if json then (JsonValue.array (reports.map FileReport.toJson)).pretty
      else FileReport.listing reporter reports
    return ⟨text, 0 < FileReport.errorCount reports⟩

end Command

/-- **Runs the program** with its arguments. -/
def Arguments.run {m : Type → Type} [Monad m] [FileSystem m] (a : Arguments) (base : Path)
    (reporter : Reporter) : ExceptT CommandError m CommandOutput := do
  a.command.run (← a.loadConfig base) base reporter

end ScriptLens
