import ScriptLens.CommandLine.Run

/-!
# The program

Reads the arguments, runs the command on the disk of the machine and prints what
it gives. The exit code is 0 for success, 1 if problems were found and 2 if the
command failed.
-/

namespace ScriptLens.Main

/-- The cause of an error of the machine. -/
def fileError : IO.Error → FileError
  | .noFileOrDirectory _ _ _ => .notFound
  | .inappropriateType _ _ _ => .isADirectory
  | _ => .other

/-- The names on the way to a place. -/
def placeOf (text : String) : List String :=
  (Path.ofText text).segments.filter (· ≠ "")

instance : FileSystem IO where
  kind? p := do
    try
      let found ← IO.FS.realPath p.text
      match (← found.metadata).type with
      | .file => return some .file
      | .dir => return some .directory
      | _ => return none
    catch _ => return none
  read p := do
    try
      match String.fromUTF8? (← IO.FS.readBinFile p.text) with
      | some text => return .ok text
      | none => return .error .invalidText
    catch cause => return .error (fileError cause)
  write p text := do
    try
      IO.FS.writeFile p.text text
      return .ok ()
    catch cause => return .error (fileError cause)
  entries p := do
    try
      let found ← IO.FS.realPath p.text
      (← found.readDir).toList.mapM fun entry => do
        return ⟨entry.fileName, (← entry.path.symlinkMetadata).type == .symlink⟩
    catch _ => return []
  place? p := do
    try return some (placeOf (← IO.FS.realPath p.text).toString)
    catch _ => return none

/-- Runs the program on words and gives its exit code. -/
def run (words : List String) : IO UInt32 := do
  match Arguments.read words with
  | .error cause =>
    if cause.isRequest then
      IO.println cause.message
      return 0
    else
      IO.eprintln ("error: " ++ cause.message)
      return 2
  | .ok arguments =>
    let color := !arguments.noColor && (← (← IO.getStdout).isTty)
    let base := Path.ofText (← IO.currentDir).toString
    let reporter : Reporter := ⟨color, Report.Style.escaped⟩
    match ← (arguments.run (m := IO) base reporter).run with
    | .ok output =>
      IO.print output.text
      return if output.hasErrors then 1 else 0
    | .error cause =>
      IO.eprintln ("error: " ++ cause.message)
      return 2

end ScriptLens.Main

/-- The entry point. -/
def main (words : List String) : IO UInt32 := ScriptLens.Main.run words
