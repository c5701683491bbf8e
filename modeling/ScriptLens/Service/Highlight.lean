import ScriptLens.Token.Scanner

/-!
# Highlighting

Every token of a text belongs to a class that an editor colours.
-/

namespace ScriptLens

/-- The classes that are coloured apart. -/
inductive HighlightClass
  | keyword | type | modifier | identifier | number | string | character | symbol
  | comment | operator | punctuation
deriving DecidableEq, Repr

/-- The name of a class in listings. -/
def HighlightClass.name : HighlightClass → String
  | keyword => "Keyword"
  | type => "Type"
  | modifier => "Modifier"
  | identifier => "Identifier"
  | number => "Number"
  | string => "String"
  | character => "Character"
  | symbol => "Symbol"
  | comment => "Comment"
  | operator => "Operator"
  | punctuation => "Punctuation"

/-- The class of a lexeme. A stray character counts as punctuation. -/
def Lexeme.highlight : Lexeme → HighlightClass
  | stray _ => .punctuation
  | identifier _ => .identifier
  | integer _ => .number
  | string _ _ | docString _ _ => .string
  | character _ _ => .character
  | symbol _ _ => .symbol
  | lineComment _ | blockComment _ _ => .comment
  | keyword (.basicType _) => .type
  | keyword (.modifier _) => .modifier
  | keyword _ => .keyword
  | punctuation mark => if mark.isDelimiter then .punctuation else .operator
  | endOfFile => .operator

/-- **The coloured spans of a text**, in order; the end has none. -/
def highlights (source : List Char) (comments : Bool) : List (HighlightClass × Span) :=
  ((Token.scan source comments).filter (!·.isEnd)).map fun t => (t.lexeme.highlight, t.span)

end ScriptLens
