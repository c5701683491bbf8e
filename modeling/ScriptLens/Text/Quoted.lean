import ScriptLens.Text.Printable

/-!
# Quoted output

Listings print texts and characters between quotes so that every character can
be told apart. A line feed, a return, a tab, a zero, a backslash and the quote
itself have short escapes. A character that does not show, or that would merge
with its neighbour, is written by its code point in hexadecimal. All others
stand for themselves.
-/

namespace ScriptLens.Text

/-- The hexadecimal digits of a number, without leading zeros. -/
def hexDigits (n : Nat) : List Char := Nat.toDigits 16 n

/-- A character by its code point: `\u` and the number in braces. -/
def codePointEscape (c : Char) : List Char :=
  ['\\', 'u', '\x7b'] ++ hexDigits c.toNat ++ ['\x7d']

/-- One character of a text that stands between a pair of `quote`s. -/
def quoteChar (quote c : Char) : List Char :=
  if c = '\x00' then ['\\', '0']
  else if c = '\t' then ['\\', 't']
  else if c = '\r' then ['\\', 'r']
  else if c = '\n' then ['\\', 'n']
  else if c = '\\' then ['\\', '\\']
  else if c = quote then ['\\', quote]
  else if isPrintable c && !extendsGrapheme c then [c]
  else codePointEscape c

/-- A text between double quotes. -/
def quotedText (cs : List Char) : List Char :=
  '"' :: cs.flatMap (quoteChar '"') ++ ['"']

/-- A character between single quotes. -/
def quotedChar (c : Char) : List Char :=
  '\'' :: quoteChar '\'' c ++ ['\'']

/-- A string between double quotes. -/
def quoteString (s : String) : String := String.ofList (quotedText s.toList)

end ScriptLens.Text
