import ScriptLens.Project.FileSystem

/-!
# Loaders

A loader gives the text that belongs to a name. Where it gets the text from is
up to the loader; so is the monad in which it works, because loading may change
something or may take place elsewhere. There are loaders for texts in memory
(`Loader.memory`), for the files below a list of directories (`Loader.files`)
and for a remote that answers requests (`Loader.remote`).
-/

namespace ScriptLens

/-- A duration in milliseconds as messages show it: in seconds from one second
on, with as many digits as are needed. -/
def durationText (milliseconds : Nat) : String :=
  let seconds := milliseconds / 1000
  let rest := milliseconds % 1000
  if milliseconds = 0 then "0ns"
  else if seconds = 0 then Nat.repr rest ++ "ms"
  else if rest = 0 then Nat.repr seconds ++ "s"
  else
    let digits := (Nat.repr (1000 + rest)).toList.tail
    let needed := (digits.reverse.dropWhile (· = '0')).reverse
    Nat.repr seconds ++ "." ++ String.ofList needed ++ "s"

/-- Why a loader gives no text. -/
inductive LoadError
  /-- The name belongs to no text. -/
  | notFound (name : String)
  /-- The text cannot be read or written. -/
  | inaccessible (name : String) (cause : FileError)
  /-- No answer came in time; the time is in milliseconds. -/
  | timedOut (name : String) (timeout : Nat)
  /-- Nobody is there to answer. -/
  | disconnected (name : String)
  /-- The answer is an error. -/
  | remote (name message : String)
  /-- The loader does not do such things. -/
  | unsupported (what : String)
deriving DecidableEq, Repr

/-- The message of an error. -/
def LoadError.message : LoadError → String
  | notFound name => "file not found: " ++ name
  | inaccessible name cause => "cannot access " ++ name ++ ": " ++ cause.message
  | timedOut name timeout =>
    "timed out after " ++ durationText timeout ++ " waiting for " ++ name
  | disconnected name => "loader disconnected while requesting " ++ name
  | remote name message => "remote error for " ++ name ++ ": " ++ message
  | unsupported what => what ++ " is not supported by this loader"

/-- A loader that works in a monad. -/
structure Loader (m : Type → Type) where
  /-- The text of a name. -/
  load : String → m (Except LoadError String)
  /-- Gives a name a text. -/
  save : String → String → m (Except LoadError Unit)
  /-- Whether texts can be compiled. -/
  canCompile : Bool
  /-- Compiles the text of a name, which gives a text. -/
  compile : String → m (Except LoadError String)

namespace Loader

/-- The answer of a loader that does not compile. -/
def refuseCompile {m : Type → Type} [Monad m] (_ : String) : m (Except LoadError String) :=
  return .error (.unsupported "compile")

end Loader

end ScriptLens
