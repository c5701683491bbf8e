import ScriptLens.Text.Alphanumeric
import ScriptLens.Text.Blank
import ScriptLens.Token.Basic
import ScriptLens.Token.Integer
import ScriptLens.Token.Quoted

/-!
# Reading one lexeme

One function for each form that a lexeme can take, each of which looks at a
text and answers with the lexeme that starts there and the number of characters
it covers. `Reading.first` tries them in order: comments and documentation
strings, quoted literals, punctuation, words, and last a stray character. The
stray character makes sure that every text other than the empty one starts with
a lexeme, and that a lexeme covers at least one character (`length_first_pos`).
-/

namespace ScriptLens

/-- Whether a character can stand inside a word. The hash sign can, so that
`#include` is one word. -/
def isWordChar (c : Char) : Bool :=
  Text.isAlphanumeric c || c = '_' || c = '$' || c = '#'

/-- A lexeme and the number of characters it covers. -/
structure Reading where
  /-- The lexeme. -/
  lexeme : Lexeme
  /-- The number of characters it covers. -/
  length : Nat
deriving DecidableEq, Repr

namespace Reading

/-- The part of a text before the first occurrence of a mark, where the mark
occurs. -/
def before? (mark : List Char) : List Char → Option (List Char)
  | [] => if mark.isPrefixOf [] then some [] else none
  | c :: cs =>
    if mark.isPrefixOf (c :: cs) then some [] else (before? mark cs).map (c :: ·)

/-- What stands between an opening mark, which starts the text, and a closing
one: the text between them, the characters covered together with the marks, and
whether there is a closing mark. Without one, everything up to the end of the
text is between the marks. -/
def between (opening closing cs : List Char) : String × Nat × Bool :=
  let content := cs.drop opening.length
  match before? closing content with
  | some inner =>
    (String.ofList inner, opening.length + inner.length + closing.length, true)
  | none => (String.ofList content, opening.length + content.length, false)

/-- A documentation string. -/
def docString? (cs : List Char) : Option Reading :=
  if ['/', '*', '!'].isPrefixOf cs then
    let (text, length, closed) := between ['/', '*', '!'] ['!', '*', '/'] cs
    some ⟨.docString text closed, length⟩
  else none

/-- A comment that marks bracket. -/
def blockComment? (cs : List Char) : Option Reading :=
  if ['/', '*'].isPrefixOf cs then
    let (text, length, closed) := between ['/', '*'] ['*', '/'] cs
    some ⟨.blockComment text closed, length⟩
  else none

/-- The content of a line comment: the rest of the line without the return that
may end it. -/
def lineCommentText (cs : List Char) : List Char :=
  let line := cs.takeWhile (· ≠ '\n')
  if line.getLast? = some '\r' then line.dropLast else line

/-- A comment up to the end of its line. -/
def lineComment? (cs : List Char) : Option Reading :=
  if ['/', '/'].isPrefixOf cs then
    let text := lineCommentText (cs.drop 2)
    some ⟨.lineComment (String.ofList text), 2 + text.length⟩
  else none

/-- A string. -/
def string? : List Char → Option Reading
  | '"' :: cs =>
    let content := Quoted.read '"' cs
    some ⟨.string (String.ofList content.decoded) content.closed, 1 + content.length⟩
  | _ => none

/-- A character literal. It stands for the first character between its quotes,
and for zero where there is none. -/
def character? : List Char → Option Reading
  | '\'' :: cs =>
    let content := Quoted.read '\'' cs
    some ⟨.character (content.decoded.head?.getD '\x00') content.closed, 1 + content.length⟩
  | _ => none

/-- A symbol: quoted, or a word that may be empty. -/
def symbol? : List Char → Option Reading
  | '#' :: '\'' :: cs =>
    let content := Quoted.read '\'' cs
    some ⟨.symbol (String.ofList content.decoded) content.closed, 2 + content.length⟩
  | '#' :: ':' :: cs =>
    let name := cs.takeWhile isWordChar
    some ⟨.symbol (String.ofList name) true, 2 + name.length⟩
  | _ => none

/-- The longest punctuation that starts the text. -/
def punctuation? (cs : List Char) : Option Reading :=
  (Punctuation.longest? cs).map fun p => ⟨.punctuation p, p.spelling.length⟩

/-- What a word says: a keyword, else an integer, else an identifier. -/
def wordLexeme (word : List Char) : Lexeme :=
  match Keyword.ofSpelling? (String.ofList word) with
  | some k => .keyword k
  | none =>
    match Integer.decode? word with
    | some value => .integer value
    | none => .identifier (String.ofList word)

/-- A word: the longest run of word characters. -/
def word? (cs : List Char) : Option Reading :=
  let word := cs.takeWhile isWordChar
  if word.isEmpty then none else some ⟨wordLexeme word, word.length⟩

/-- **The lexeme that starts a text.** The text is not empty and its first
character, given apart, is no blank. -/
def first (c : Char) (cs : List Char) : Reading :=
  (docString? (c :: cs)
    <|> blockComment? (c :: cs)
    <|> lineComment? (c :: cs)
    <|> string? (c :: cs)
    <|> character? (c :: cs)
    <|> symbol? (c :: cs)
    <|> punctuation? (c :: cs)
    <|> word? (c :: cs)).getD ⟨.stray c, 1⟩

/-! ## A lexeme covers a character -/

theorem length_between_pos (c : Char) (opening closing cs : List Char) :
    0 < (between (c :: opening) closing cs).2.1 := by
  dsimp only [between]
  split <;> simp only [List.length_cons] <;> omega

theorem length_docString?_pos {cs : List Char} {r : Reading} (h : docString? cs = some r) :
    0 < r.length := by
  unfold docString? at h
  split at h
  · obtain rfl := Option.some.inj h
    exact length_between_pos _ _ _ _
  · cases h

theorem length_blockComment?_pos {cs : List Char} {r : Reading}
    (h : blockComment? cs = some r) : 0 < r.length := by
  unfold blockComment? at h
  split at h
  · obtain rfl := Option.some.inj h
    exact length_between_pos _ _ _ _
  · cases h

theorem length_lineComment?_pos {cs : List Char} {r : Reading}
    (h : lineComment? cs = some r) : 0 < r.length := by
  unfold lineComment? at h
  split at h
  · obtain rfl := Option.some.inj h
    exact Nat.add_pos_left (by decide) _
  · cases h

theorem length_string?_pos {cs : List Char} {r : Reading} (h : string? cs = some r) :
    0 < r.length := by
  unfold string? at h
  split at h
  · obtain rfl := Option.some.inj h
    exact Nat.add_pos_left Nat.one_pos _
  · cases h

theorem length_character?_pos {cs : List Char} {r : Reading} (h : character? cs = some r) :
    0 < r.length := by
  unfold character? at h
  split at h
  · obtain rfl := Option.some.inj h
    exact Nat.add_pos_left Nat.one_pos _
  · cases h

theorem length_symbol?_pos {cs : List Char} {r : Reading} (h : symbol? cs = some r) :
    0 < r.length := by
  unfold symbol? at h
  split at h
  · obtain rfl := Option.some.inj h
    exact Nat.add_pos_left (by decide) _
  · obtain rfl := Option.some.inj h
    exact Nat.add_pos_left (by decide) _
  · cases h

theorem length_spelling_pos (p : Punctuation) : 0 < p.spelling.length := by
  cases p <;> decide

theorem length_punctuation?_pos {cs : List Char} {r : Reading}
    (h : punctuation? cs = some r) : 0 < r.length := by
  obtain ⟨p, -, rfl⟩ := Option.map_eq_some_iff.1 h
  exact length_spelling_pos p

theorem length_word?_pos {cs : List Char} {r : Reading} (h : word? cs = some r) :
    0 < r.length := by
  dsimp only [word?] at h
  split at h
  · cases h
  · next hne =>
    obtain rfl := Option.some.inj h
    exact List.length_pos_iff.2 fun hnil => hne (by simp [hnil])

/-- **A lexeme covers at least one character.** -/
theorem length_first_pos (c : Char) (cs : List Char) : 0 < (first c cs).length := by
  unfold first
  cases h : (docString? (c :: cs)
      <|> blockComment? (c :: cs)
      <|> lineComment? (c :: cs)
      <|> string? (c :: cs)
      <|> character? (c :: cs)
      <|> symbol? (c :: cs)
      <|> punctuation? (c :: cs)
      <|> word? (c :: cs)) with
  | none => exact Nat.one_pos
  | some r =>
    simp only [Option.orElse_eq_orElse, Option.orElse_eq_or, Option.or_eq_some_iff] at h
    rcases h with h | ⟨-, h | ⟨-, h | ⟨-, h | ⟨-, h | ⟨-, h | ⟨-, h | ⟨-, h⟩⟩⟩⟩⟩⟩⟩
    · exact length_docString?_pos h
    · exact length_blockComment?_pos h
    · exact length_lineComment?_pos h
    · exact length_string?_pos h
    · exact length_character?_pos h
    · exact length_symbol?_pos h
    · exact length_punctuation?_pos h
    · exact length_word?_pos h

end Reading

end ScriptLens
