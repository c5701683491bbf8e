import ScriptLens.Text.Quoted
import ScriptLens.Token.Scanner

/-!
# Listing the tokens of a text

One line for every token, the end included: its span, its kind, the value it
carries and its flags.
-/

namespace ScriptLens

open Text

/-- A lexeme's value in a listing. -/
def LexemeValue.render : LexemeValue → String
  | text s => quoteString s
  | integer value => Nat.repr value
  | character c => String.ofList (quotedChar c)

/-- A lexeme's flags in a listing; nothing where it has none. -/
def LexemeFlag.renderSet? (flags : List LexemeFlag) : Option String :=
  if flags.isEmpty then none
  else some ("TokenFlags(" ++ " | ".intercalate (flags.map name) ++ ")")

namespace Token

/-- The line of a token. -/
def line (t : Token) : String :=
  Nat.repr t.span.start ++ ".." ++ Nat.repr t.span.stop ++ " " ++ t.kind.name
    ++ (t.lexeme.value?.map (" " ++ ·.render)).getD ""
    ++ ((LexemeFlag.renderSet? t.lexeme.flags).map (" " ++ ·)).getD "" ++ "\n"

/-- **The listing of a text's tokens.** -/
def listing (source : List Char) (comments : Bool) : String :=
  String.join ((scan source comments).map line)

end Token

end ScriptLens
