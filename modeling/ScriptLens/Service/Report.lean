import ScriptLens.Service.Diagnostic

/-!
# Reports

A report shows every diagnostic with its place, its message and the line it
stands on, underlined. In a coloured report the place, the severity and the
underline stand out. A report says in which style, and what a terminal shows as
this style is left to the painter of the reporter.
-/

namespace ScriptLens

namespace Report

/-- A colour that a report uses. -/
inductive Color
  | red
  | yellow
  | blue
  | cyan
deriving DecidableEq, Repr

/-- How a part of a report stands out. -/
structure Style where
  /-- The colour of the text. -/
  color : Color
  /-- Whether the text is bold. -/
  bold : Bool
deriving DecidableEq, Repr

/-- The style of a place. -/
def placeStyle : Style := ⟨.cyan, false⟩

/-- The style of an underline. -/
def underlineStyle : Style := ⟨.red, false⟩

/-- The style of a severity. -/
def severityStyle : Severity → Style
  | .error => ⟨.red, true⟩
  | .warning => ⟨.yellow, true⟩
  | .suggestion => ⟨.blue, true⟩
  | .message => ⟨.cyan, true⟩

/-- The lines of a text for display: what line feeds separate, without the
return that may stand before a line feed. What follows the last line feed is a
line only if it is not empty. `line` holds the characters of the present line,
last first. -/
def displayLinesFrom (line : List Char) : List Char → List (List Char)
  | [] => if line.isEmpty then [] else [line.reverse]
  | c :: cs =>
    if c = '\n' then
      (if line.head? = some '\r' then line.tail else line).reverse :: displayLinesFrom [] cs
    else displayLinesFrom (c :: line) cs

/-- The lines of a text for display. -/
def displayLines (source : List Char) : List (List Char) := displayLinesFrom [] source

/-- A number at the right end of three columns. -/
def lineNumber (n : Nat) : List Char :=
  let digits := (Nat.repr n).toList
  List.replicate (3 - digits.length) ' ' ++ digits

/-- How many characters of a line a range underlines: at least one, and the rest
of the line where the range ends on another one. -/
def underlineWidth (range : PositionRange) (line : List Char) : Nat :=
  let stop := if range.last.line = range.first.line then range.last.column else line.length
  max (stop - range.first.column) 1

/-- The underline of a range on a line. Tabs before it are kept, so that it
stands below what it underlines. -/
def underline (range : PositionRange) (line : List Char) : List Char :=
  (line.take range.first.column).map (fun c => if c = '\t' then '\t' else ' ')
    ++ List.replicate (underlineWidth range line) '~'

end Report

/-- **A writer of reports.** -/
structure Reporter where
  /-- Whether reports are coloured. -/
  color : Bool
  /-- What is written for a text in a style. -/
  paint : Report.Style → List Char → List Char

namespace Reporter

open Report

/-- A text that stands out in a coloured report; plain in another one. -/
def styled (r : Reporter) (style : Style) (text : List Char) : List Char :=
  if r.color then r.paint style text else text

/-- The line on which a diagnostic starts, underlined; nothing where the text has
no such line. -/
def snippet (r : Reporter) (source : List Char) (d : LocatedDiagnostic) : List Char :=
  match (displayLines source)[d.range.first.line]? with
  | none => []
  | some line =>
    "\n  ".toList ++ lineNumber (d.range.first.line + 1) ++ "   ".toList ++ line
      ++ "\n        ".toList ++ r.styled underlineStyle (underline d.range line)

/-- One diagnostic. -/
def entry (r : Reporter) (source : List Char) (d : LocatedDiagnostic) : List Char :=
  let place := d.file ++ ":" ++ Nat.repr (d.range.first.line + 1) ++ ":"
    ++ Nat.repr (d.range.first.column + 1)
  r.styled placeStyle place.toList ++ " - ".toList
    ++ r.styled (severityStyle d.severity) d.severity.label.toList
    ++ ": ".toList ++ d.message.toList ++ r.snippet source d

/-- **The report of a text's diagnostics**, with a blank line between them. -/
def render (r : Reporter) (source : List Char) (diagnostics : List LocatedDiagnostic) : String :=
  "\n".intercalate (diagnostics.map fun d => String.ofList (r.entry source d) ++ "\n")

end Reporter

end ScriptLens
