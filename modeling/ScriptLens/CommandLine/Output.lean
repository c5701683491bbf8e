import ScriptLens.Json.Writer
import ScriptLens.Service.Completion
import ScriptLens.Service.Report
import ScriptLens.Text.Quoted

/-!
# What the commands print

Suggestions and diagnostics, as text for people and as data for programs.
-/

namespace ScriptLens

namespace Report

/-- The control sequence that ends a style on a terminal. -/
def reset : String := "\x1b[0m"

namespace Style

/-- The number of a colour in a control sequence. -/
def colorCode : Color → String
  | .red => "31"
  | .yellow => "33"
  | .blue => "34"
  | .cyan => "36"

/-- The control sequence that starts a style on a terminal. -/
def start (s : Style) : String :=
  "\x1b[" ++ (if s.bold then "1;" else "") ++ colorCode s.color ++ "m"

/-- A text in a style on a terminal, between two control sequences. -/
def escaped (s : Style) (text : List Char) : List Char :=
  s.start.toList ++ text ++ reset.toList

end Style

end Report

namespace CompletionResult

/-- The width of the column in which the inserted texts stand. -/
def insertWidth : Nat := 24

/-- A text filled up with blanks to a width. -/
def padded (width : Nat) (text : String) : String :=
  text ++ String.ofList (List.replicate (width - text.length) ' ')

/-- The line of a suggestion. -/
def suggestionLine (s : Suggestion) : String :=
  let annotation := (s.annotation.map (" : " ++ ·)).getD ""
  "  " ++ padded insertWidth s.insertText ++ " " ++ s.description ++ annotation ++ "\n"

/-- **Suggestions for people**, one a line below a line that says what they are. -/
def listing (r : CompletionResult) : String :=
  let header := r.suggestionType.name ++ " (prefix " ++ Text.quoteString r.word ++ ", "
    ++ Nat.repr r.suggestions.length ++ " suggestions)\n"
  header ++ String.join (r.suggestions.map suggestionLine)

/-- A suggestion as data. -/
def suggestionJson (s : Suggestion) : JsonValue :=
  .object [("insert_text", .string s.insertText), ("description", .string s.description),
    ("cursor_offset", .ofOption .integer s.caretOffset),
    ("right_hand", .ofOption .string s.annotation), ("kind", .string s.kind.name)]

/-- Suggestions as data. -/
def toJson (r : CompletionResult) : JsonValue :=
  .object [("suggestion_type", .string r.suggestionType.name), ("prefix", .string r.word),
    ("suggestions", .array (r.suggestions.map suggestionJson))]

end CompletionResult

/-- A file with its problems. -/
structure FileReport where
  /-- The name of the file. -/
  file : String
  /-- Its text. -/
  source : List Char
  /-- Its problems. -/
  diagnostics : List LocatedDiagnostic
deriving DecidableEq, Repr

namespace FileReport

/-- A position as data. -/
def positionJson (p : Position) : JsonValue :=
  .object [("line", .ofNat p.line), ("character", .ofNat p.column)]

/-- A diagnostic as data. -/
def diagnosticJson (d : LocatedDiagnostic) : JsonValue :=
  .object [
    ("diagnostic", .object [("category", .string d.severity.name), ("file", .string d.file),
      ("start", .ofNat d.start), ("length", .ofNat d.length), ("message_text", .string d.message)]),
    ("range", .object [("start", positionJson d.range.first), ("end", positionJson d.range.last)])]

/-- A report as data. -/
def toJson (r : FileReport) : JsonValue :=
  .object [("file", .string r.file), ("diagnostics", .array (r.diagnostics.map diagnosticJson))]

/-- A report for people; nothing for a file without problems. -/
def text (reporter : Reporter) (r : FileReport) : String :=
  if r.diagnostics.isEmpty then "" else reporter.render r.source r.diagnostics ++ "\n"

/-- How many problems the files have. -/
def errorCount (reports : List FileReport) : Nat := (reports.flatMap (·.diagnostics)).length

/-- A number with a noun, which has an `s` unless the number is one. -/
def counted (n : Nat) (noun : String) : String :=
  Nat.repr n ++ " " ++ noun ++ if n = 1 then "" else "s"

/-- **Reports for people**, with the number of problems below them. -/
def listing (reporter : Reporter) (reports : List FileReport) : String :=
  String.join (reports.map (text reporter)) ++ "Found " ++ counted (errorCount reports) "error"
    ++ " in " ++ counted reports.length "file" ++ ".\n"

end FileReport

end ScriptLens
