import ScriptLens.Text.Span
import ScriptLens.Token.Kind

/-!
# Tokens

A token is a lexeme with the span of source text it was read from. The lexeme
carries what the text says: the decoded text of a string, the value of an
integer. Nothing is refused: a literal or a comment that the end of the text
cuts off is marked as not closed, and a character that fits nowhere is a
`stray` lexeme, which counts as an identifier of one character.

The span of a token is in natural numbers, as all offsets are: what is said about
tokens is about texts shorter than 2^32 bytes, whose offsets fit in 32 bits.
-/

namespace ScriptLens

/-- What a token says. -/
inductive Lexeme
  /-- The end of the text. -/
  | endOfFile
  /-- A comment from `//` to the end of its line. -/
  | lineComment (text : String)
  /-- A comment between `/*` and `*/`. -/
  | blockComment (text : String) (closed : Bool)
  /-- A word that is neither a keyword nor an integer. -/
  | identifier (name : String)
  /-- A character that starts no other lexeme. -/
  | stray (char : Char)
  /-- A word that spells an integer. -/
  | integer (value : Nat)
  /-- A string between double quotes. -/
  | string (text : String) (closed : Bool)
  /-- A string between `/*!` and `!*/`, taken as it stands. -/
  | docString (text : String) (closed : Bool)
  /-- A character between single quotes. -/
  | character (char : Char) (closed : Bool)
  /-- A symbol, either quoted after `#` or a word after `#:`. -/
  | symbol (name : String) (closed : Bool)
  /-- Punctuation. -/
  | punctuation (mark : Punctuation)
  /-- A keyword. -/
  | keyword (word : Keyword)
deriving DecidableEq, Repr

/-- The value that a lexeme carries beside its kind. -/
inductive LexemeValue
  | text (text : String)
  | integer (value : Nat)
  | character (char : Char)
deriving DecidableEq, Repr

/-- The marks that a listing puts on a token. -/
inductive LexemeFlag
  /-- The end of the text cut the token off. -/
  | unterminated
  /-- The token is a documentation string. -/
  | docString
  /-- The token is a single character that starts no other lexeme. -/
  | degenerate
deriving DecidableEq, Repr

/-- The name of a flag in listings. -/
def LexemeFlag.name : LexemeFlag → String
  | unterminated => "UNTERMINATED"
  | docString => "DOC_STRING"
  | degenerate => "DEGENERATE"

namespace Lexeme

/-- The kind of a lexeme. -/
def kind : Lexeme → TokenKind
  | endOfFile => .endOfFile
  | lineComment _ => .lineComment
  | blockComment _ _ => .blockComment
  | identifier _ => .identifier
  | stray _ => .identifier
  | integer _ => .integer
  | string _ _ => .string
  | docString _ _ => .string
  | character _ _ => .character
  | symbol _ _ => .symbol
  | punctuation p => .punctuation p
  | keyword k => .keyword k

/-- The value of a lexeme, if it carries one. -/
def value? : Lexeme → Option LexemeValue
  | lineComment text | blockComment text _ | identifier text | string text _
  | docString text _ | symbol text _ => some (.text text)
  | stray c => some (.text (String.ofList [c]))
  | integer n => some (.integer n)
  | character c _ => some (.character c)
  | endOfFile | punctuation _ | keyword _ => none

/-- The flags of a lexeme, in the order in which listings give them. -/
def flags : Lexeme → List LexemeFlag
  | blockComment _ closed | string _ closed | character _ closed | symbol _ closed =>
    if closed then [] else [.unterminated]
  | docString _ closed => if closed then [.docString] else [.unterminated, .docString]
  | stray _ => [.degenerate]
  | _ => []

/-- The text that a lexeme carries; empty where it carries none. -/
def text (l : Lexeme) : String :=
  match l.value? with
  | some (.text text) => text
  | _ => ""

/-- Whether a lexeme is a comment. -/
def isComment : Lexeme → Bool
  | lineComment _ | blockComment _ _ => true
  | _ => false

/-- Whether a lexeme is a character that fits nowhere. -/
def isStray : Lexeme → Bool
  | stray _ => true
  | _ => false

end Lexeme

/-- A lexeme and the span it was read from. -/
structure Token where
  /-- What the token says. -/
  lexeme : Lexeme
  /-- Where it stands. -/
  span : Span
deriving DecidableEq, Repr

/-- The kind of a token. -/
def Token.kind (t : Token) : TokenKind := t.lexeme.kind

/-- The token at the end of a text of `length` bytes. -/
def Token.endOfFile (length : Nat) : Token := ⟨.endOfFile, .emptyAt length⟩

/-- Whether a token is the end of its text. -/
def Token.isEnd (t : Token) : Bool := t.lexeme = .endOfFile

end ScriptLens
