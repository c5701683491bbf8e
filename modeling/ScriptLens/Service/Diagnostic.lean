import ScriptLens.Service.Analysis

/-!
# Diagnostics

The problems of a text as a flat list in source order, each with the place it
has in lines and columns.
-/

namespace ScriptLens

/-- How serious a diagnostic is. -/
inductive Severity
  | warning | error | suggestion | message
deriving DecidableEq, Repr

/-- The name of a severity in reports. -/
def Severity.label : Severity → String
  | warning => "warning"
  | error => "error"
  | suggestion => "suggestion"
  | message => "message"

/-- The name of a severity in data. -/
def Severity.name : Severity → String
  | warning => "Warning"
  | error => "Error"
  | suggestion => "Suggestion"
  | message => "Message"

/-- A diagnostic with its place. -/
structure LocatedDiagnostic where
  /-- How serious it is. -/
  severity : Severity
  /-- The name of the text. -/
  file : String
  /-- The offset at which it stands. -/
  start : Nat
  /-- The number of bytes it covers. -/
  length : Nat
  /-- What it says. -/
  message : String
  /-- Its place in lines and columns. -/
  range : PositionRange
deriving DecidableEq, Repr

namespace LocatedDiagnostic

/-- The offset just past what the diagnostic covers. -/
def stop (d : LocatedDiagnostic) : Nat := d.start + d.length

/-- Whether one diagnostic may stand before another: by offset, then by
length. -/
def precedes (d e : LocatedDiagnostic) : Bool :=
  d.start < e.start || (d.start == e.start && d.length ≤ e.length)

end LocatedDiagnostic

namespace Analysis

/-- A problem of the text with its place. -/
def locate (a : Analysis) (d : ParseDiagnostic) : LocatedDiagnostic :=
  ⟨.error, a.fileName, d.start, d.length, d.message,
    a.lineMap.range a.text d.start (d.start + d.length)⟩

/-- **The problems of a text** in source order. Problems at the same place keep
the order in which they were found. -/
def diagnostics (a : Analysis) : List LocatedDiagnostic :=
  (a.tree.diagnostics.map a.locate).mergeSort LocatedDiagnostic.precedes

end Analysis

end ScriptLens
