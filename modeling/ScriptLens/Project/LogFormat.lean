import ScriptLens.Text.Blank

/-!
# Log formats

The formats in which the program can log, by the names that users give them.
-/

namespace ScriptLens

/-- A format for logs. -/
inductive LogFormat
  | tree | json | text
deriving DecidableEq, Repr

namespace LogFormat

/-- The name of a format in listings. -/
def name : LogFormat → String
  | tree => "Tree"
  | json => "Json"
  | text => "Text"

/-- **The format that a user names.** White space around the name and the case
of its ASCII letters do not count, and every other name stands for plain
text. -/
def ofName (given : List Char) : LogFormat :=
  let word := (Text.trim given).map Char.toLower
  if word = "tree".toList then tree
  else if word = "json".toList then json
  else text

end LogFormat

end ScriptLens
