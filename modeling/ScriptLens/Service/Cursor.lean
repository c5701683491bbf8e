import ScriptLens.Text.LineMap

/-!
# Cursors given by line and column

People count lines and columns from one. A column past the end of its line is
the end of that line; a line past the end of the text is an error.
-/

namespace ScriptLens

/-- Why a line and a column name no place in a text. -/
inductive CursorError
  /-- Lines and columns start at one. -/
  | zeroBased
  /-- The text has fewer lines. -/
  | pastEnd (line : Nat)
deriving DecidableEq, Repr

/-- The message of an error. -/
def CursorError.message : CursorError → String
  | zeroBased => "line and column are 1-based"
  | pastEnd line => "line " ++ Nat.repr line ++ " is past the end of the file"

/-- **The offset of a line and a column** that are both counted from one. -/
def cursorOffset (source : List Char) (line column : Nat) : Except CursorError Nat :=
  if line = 0 || column = 0 then .error .zeroBased
  else
    match (LineMap.ofText source).offset? source ⟨line - 1, column - 1⟩ with
    | some offset => .ok offset
    | none => .error (.pastEnd line)

end ScriptLens
