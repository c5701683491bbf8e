import ScriptLens.Project.Path

/-!
# Command line arguments

The grammar of the command line: options that every command takes, the name of a
command, and the options and operands of the command. Words are read from left
to right. An option's value, and operands, are checked when the next option or
operand shows that they are complete, so that of two mistakes the one that is
noticed first is reported.

Options that every command takes may stand before the name of the command and
after it. The ones after it win.
-/

namespace ScriptLens

/-- What the program is asked to do. -/
inductive Command
  /-- List the tokens of a file. -/
  | tokens (file : Path) (comments : Bool)
  /-- List the tree of a file. -/
  | ast (file : Path)
  /-- List the suggestions at a cursor, which is given by an offset or by a line and a
  column. -/
  | complete (file : Path) (offset line column : Option Nat) (json : Bool)
  /-- Report the problems of files and directories. -/
  | check (paths : List Path) (json : Bool)
deriving DecidableEq, Repr

/-- The arguments of the program. -/
structure Arguments where
  /-- The configuration file or the directory that holds it. -/
  project : Option Path
  /-- Further directories in which names are looked up. -/
  includePaths : List Path
  /-- Whether colours are off. -/
  noColor : Bool
  /-- What to do. -/
  command : Command
deriving DecidableEq, Repr

/-- Why words are no arguments. The first two ask for information. -/
inductive ArgumentError
  | helpAsked
  | versionAsked
  /-- No word was given. -/
  | nothingAsked
  | unknownArgument
  | unknownCommand
  | missingCommand
  | missingArgument
  /-- An option was given twice, or two that exclude each other. -/
  | conflict
  /-- A value is absent or empty. -/
  | emptyValue
  /-- A value is no number of 32 bits. -/
  | invalidNumber
  /-- An option without a value was given one. -/
  | unexpectedValue
deriving DecidableEq, Repr

/-- Whether an error is a request for information. -/
def ArgumentError.isRequest : ArgumentError → Bool
  | helpAsked | versionAsked => true
  | _ => false

/-- The message of an error. -/
def ArgumentError.message : ArgumentError → String
  | helpAsked | nothingAsked =>
    "usage: scriptlens [-p PATH] [-I DIR]... [--no-color] (tokens | ast | complete | check) ..."
  | versionAsked => "scriptlens"
  | unknownArgument => "unexpected argument"
  | unknownCommand => "unrecognized subcommand"
  | missingCommand => "a subcommand is required"
  | missingArgument => "a required argument was not provided"
  | conflict => "arguments cannot be used together or more than once"
  | emptyValue => "a value is required"
  | invalidNumber => "invalid number"
  | unexpectedValue => "a flag takes no value"

namespace CommandLine

/-- The options. -/
inductive Flag
  | help | version | project | includePath | noColor | comments | offset | line | column | json
deriving DecidableEq, Repr

/-- What an option wants. -/
inductive FlagValue
  /-- Nothing. -/
  | none
  /-- A path. -/
  | path
  /-- A number of 32 bits. -/
  | number
deriving DecidableEq, Repr

namespace Flag

/-- The long name of an option. -/
def long : Flag → String
  | help => "help"
  | version => "version"
  | project => "project"
  | includePath => "include"
  | noColor => "no-color"
  | comments => "comments"
  | offset => "offset"
  | line => "line"
  | column => "column"
  | json => "json"

/-- The short name of an option. -/
def short? : Flag → Option Char
  | help => some 'h'
  | version => some 'V'
  | project => some 'p'
  | includePath => some 'I'
  | _ => none

/-- What an option wants. -/
def value : Flag → FlagValue
  | project | includePath => .path
  | offset | line | column => .number
  | _ => .none

/-- Whether an option may be given more than once. -/
def repeatable : Flag → Bool
  | includePath => true
  | _ => false

end Flag

/-- How many operands a command takes. -/
inductive OperandCount
  | none | one | many
deriving DecidableEq, Repr

/-- The options and operands that can stand at one level of the command line. -/
structure Grammar where
  /-- The options. -/
  flags : List Flag
  /-- The operands. -/
  operands : OperandCount
deriving DecidableEq, Repr

/-- The options that every command takes. -/
def globalFlags : List Flag := [.project, .includePath, .noColor]

/-- What can stand before the name of a command. -/
def topGrammar : Grammar := ⟨.help :: .version :: globalFlags, .none⟩

/-- The commands. -/
inductive CommandName
  | tokens | ast | complete | check
deriving DecidableEq, Repr

namespace CommandName

/-- All commands. -/
def all : List CommandName := [tokens, ast, complete, check]

/-- The spelling of a command. -/
def spelling : CommandName → String
  | tokens => "tokens"
  | ast => "ast"
  | complete => "complete"
  | check => "check"

/-- The command with a spelling. -/
def ofSpelling? (word : String) : Option CommandName := all.find? (·.spelling = word)

/-- What can stand after the name of a command. -/
def grammar (c : CommandName) : Grammar :=
  let own : List Flag :=
    match c with
    | tokens => [.comments]
    | ast => []
    | complete => [.offset, .line, .column, .json]
    | check => [.json]
  ⟨.help :: globalFlags ++ own, if c = check then .many else .one⟩

end CommandName

/-- The word that asks for help about a command. -/
def helpWord : String := "help"

/-- Whether a word is the name of a command, or asks for help. -/
def isCommandWord (word : String) : Bool :=
  word = helpWord || (CommandName.ofSpelling? word).isSome

/-! ## Values -/

/-- The value of decimal digits; none where there are no digits or other
characters. -/
def decimal? (digits : List Char) : Option Nat :=
  if digits.isEmpty || !digits.all Char.isDigit then none
  else some (digits.foldl (fun n c => 10 * n + (c.toNat - '0'.toNat)) 0)

/-- The number of 32 bits that a text spells. A sign may stand before the
digits. -/
def number? (text : String) : Option Nat :=
  let value :=
    match text.toList with
    | '+' :: digits => decimal? digits
    | '-' :: digits => (decimal? digits).filter (· = 0)
    | digits => decimal? digits
  value.filter (· ≤ 0xffffffff)

/-- Checks the value of an option. -/
def checkValue (flag : Flag) (text : String) : Except ArgumentError Unit :=
  match flag.value with
  | .none => .ok ()
  | .path => if text = "" then .error .emptyValue else .ok ()
  | .number => if (number? text).isSome then .ok () else .error .invalidNumber

/-! ## Levels -/

/-- What was read last and is not known to be complete yet. -/
inductive Pending
  | nothing
  /-- An option that wants a value. -/
  | option (flag : Flag)
  /-- An option with its value. -/
  | value (flag : Flag) (text : String)
  /-- Operands. -/
  | operands (texts : List String)
deriving DecidableEq, Repr

/-- What was read at one level of the command line. -/
structure Level where
  /-- The options with their values, in order; the value of an option that wants
  none is empty. -/
  given : List (Flag × String)
  /-- The operands, in order. -/
  operands : List String
  /-- What is not known to be complete. -/
  pending : Pending
  /-- Whether only operands follow. -/
  operandsOnly : Bool
deriving DecidableEq, Repr

namespace Level

/-- The level at which nothing was read. -/
def empty : Level := ⟨[], [], .nothing, false⟩

/-- Whether an option was given. -/
def has (l : Level) (flag : Flag) : Bool := l.given.any (·.1 = flag)

/-- The values that an option was given. -/
def values (l : Level) (flag : Flag) : List String :=
  (l.given.filter (·.1 = flag)).map Prod.snd

/-- The number that an option was given. -/
def number? (l : Level) (flag : Flag) : Option Nat :=
  (l.values flag).head?.bind CommandLine.number?

/-- Whether the next word is the value of an option. -/
def wantsValue (l : Level) : Bool := l.pending matches .option _

/-- Takes an option with its value. -/
def accept (l : Level) (flag : Flag) (text : String) : Except ArgumentError Level := do
  if l.has flag && !flag.repeatable then throw .conflict
  checkValue flag text
  return { l with given := l.given ++ [(flag, text)] }

/-- Takes an operand. -/
def acceptOperand (l : Level) (text : String) : Except ArgumentError Level :=
  if text = "" then .error .emptyValue else .ok { l with operands := l.operands ++ [text] }

/-- **Takes what is complete now.** -/
def settle (l : Level) : Except ArgumentError Level :=
  let settled := { l with pending := .nothing }
  match l.pending with
  | .nothing => .ok settled
  | .option _ => .error .emptyValue
  | .value flag text => settled.accept flag text
  | .operands texts => texts.foldlM acceptOperand settled

/-- Reads an option that wants no value. -/
def readSwitch (l : Level) (flag : Flag) : Except ArgumentError Level := do
  let settled ← l.settle
  match flag with
  | .help => throw .helpAsked
  | .version => throw .versionAsked
  | _ => settled.accept flag ""

/-- Reads an option that wants a value, which may be attached to it. -/
def readOption (l : Level) (flag : Flag) (attached : Option String) :
    Except ArgumentError Level := do
  let settled ← l.settle
  match attached with
  | some text => settled.accept flag text
  | none => return { settled with pending := .option flag }

/-- Reads a long option, which may have a value attached by an equals sign. -/
def readLong (g : Grammar) (l : Level) (body : List Char) : Except ArgumentError Level :=
  let name := body.takeWhile (· ≠ '=')
  let attached := (body.drop name.length).tail?.map String.ofList
  match g.flags.find? (·.long = String.ofList name) with
  | none => .error .unknownArgument
  | some flag =>
    if flag.value ≠ .none then l.readOption flag attached
    else if attached.isSome then .error .unexpectedValue
    else l.readSwitch flag

/-- The value that is attached to a short option: what follows its letter,
without an equals sign before it. -/
def attachedToShort : List Char → Option String
  | [] => none
  | '=' :: rest => some (String.ofList rest)
  | rest => some (String.ofList rest)

/-- Reads the letters of short options. The first one that wants a value takes
what follows it. -/
def readShort (g : Grammar) (l : Level) : List Char → Except ArgumentError Level
  | [] => .ok l
  | letter :: rest =>
    match g.flags.find? (·.short? = some letter) with
    | none => .error .unknownArgument
    | some flag =>
      if flag.value ≠ .none then l.readOption flag (attachedToShort rest)
      else do readShort g (← l.readSwitch flag) rest

/-- Reads an operand. Before the name of a command there is none, and what
stands there is taken for a command that is not known. -/
def readOperand (g : Grammar) (l : Level) (word : String) : Except ArgumentError Level := do
  match g.operands, l.pending with
  | .none, _ =>
    throw (if l.operandsOnly && isCommandWord word then .unknownArgument else .unknownCommand)
  | .one, .operands _ => throw .unknownArgument
  | .one, _ =>
    if l.operands.isEmpty then return { (← l.settle) with pending := .operands [word] }
    else throw .unknownArgument
  | .many, .operands words => return { l with pending := .operands (words ++ [word]) }
  | .many, _ => return { (← l.settle) with pending := .operands [word] }

/-- Reads a word that is no option. -/
def readWord (g : Grammar) (l : Level) (word : String) : Except ArgumentError Level :=
  match l.pending, l.operandsOnly with
  | .option flag, false => .ok { l with pending := .value flag word }
  | _, _ => l.readOperand g word

/-- **Reads one word** of a level. -/
def read (g : Grammar) (l : Level) (word : String) : Except ArgumentError Level :=
  if l.operandsOnly then l.readWord g word
  else
    match word.toList with
    | ['-', '-'] => .ok { l with operandsOnly := true }
    | '-' :: '-' :: body => l.readLong g body
    | ['-'] => l.readWord g word
    | '-' :: letters => l.readShort g letters
    | _ => l.readWord g word

/-- Reads the words of a level that no other one follows. -/
def readAll (g : Grammar) (words : List String) : Except ArgumentError Level := do
  (← words.foldlM (read g) empty).settle

end Level

/-! ## The whole line -/

/-- What a request for help gives: the words after it have to name a command. -/
def helpFor (words : List String) : ArgumentError :=
  match words with
  | [] => .helpAsked
  | [word] => if isCommandWord word then .helpAsked else .unknownCommand
  | _ => .unknownCommand

/-- Reads up to the name of a command. Gives what was read, and the command with
the words after it. -/
def readTop (l : Level) :
    List String → Except ArgumentError (Level × Option (CommandName × List String))
  | [] => .ok (l, none)
  | word :: rest => do
    if !l.operandsOnly && !l.wantsValue then
      if word = helpWord then throw (helpFor rest)
      if let some command := CommandName.ofSpelling? word then return (l, some (command, rest))
    readTop (← l.read topGrammar word) rest

/-- Checks which options a command was given together. An offset excludes a line,
and a line and a column need each other, unless the line is excluded. -/
def checkTogether (command : CommandName) (l : Level) : Except ArgumentError Unit := do
  if l.has .offset && l.has .line then throw .conflict
  if l.operands.isEmpty then throw .missingArgument
  if command = .complete then
    if l.has .line && !l.has .column then throw .missingArgument
    if l.has .column && !l.has .line && !l.has .offset then throw .missingArgument

/-- The command that a level asks for. -/
def commandOf (name : CommandName) (l : Level) : Command :=
  let paths := l.operands.map Path.ofText
  let file := paths.head?.getD Path.empty
  match name with
  | .tokens => .tokens file (l.has .comments)
  | .ast => .ast file
  | .complete =>
    .complete file (l.number? .offset) (l.number? .line) (l.number? .column) (l.has .json)
  | .check => .check paths (l.has .json)

/-- The paths that an option was given: those of the inner level if it has any. -/
def innerPaths (flag : Flag) (outer inner : Level) : List Path :=
  (if inner.has flag then inner.values flag else outer.values flag).map Path.ofText

end CommandLine

open CommandLine in
/-- **The arguments that words stand for.** -/
def Arguments.read (words : List String) : Except ArgumentError Arguments := do
  let (top, rest?) ← readTop Level.empty words
  match rest? with
  | none =>
    let outer ← top.settle
    throw (if outer.given.isEmpty then .nothingAsked else .missingCommand)
  | some (name, rest) =>
    let inner ← Level.readAll name.grammar rest
    checkTogether name inner
    let outer ← top.settle
    return {
      project := (innerPaths .project outer inner).head?
      includePaths := innerPaths .includePath outer inner
      noColor := outer.has .noColor || inner.has .noColor
      command := commandOf name inner }

end ScriptLens
