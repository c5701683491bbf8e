import ScriptLens.Token.Reading

/-!
# Scanning a text

A cursor stands between two characters of a text. `Cursor.next` skips blanks,
and comments unless they are asked for, and reads the token that follows; at
the end of the text it answers with the end token again and again.
`Token.scan` lists all tokens of a text up to and including one end token.

A `Scanner` adds what a reader needs that changes its mind: it takes back one
token, and it can be put back to an earlier state, which is simply an earlier
value of it.
-/

namespace ScriptLens

/-- A place in a text: its byte offset and the characters that follow. -/
structure Cursor where
  /-- The byte offset. -/
  offset : Nat
  /-- What follows. -/
  rest : List Char
deriving DecidableEq, Repr

namespace Cursor

/-- The cursor at the start of a text. -/
def atStart (source : List Char) : Cursor := ⟨0, source⟩

/-- Moves a cursor over `n` characters. -/
def advance (c : Cursor) (n : Nat) : Cursor :=
  ⟨c.offset + Text.byteLength (c.rest.take n), c.rest.drop n⟩

/-- Moves a cursor over the blanks that follow it. -/
def skipBlanks (c : Cursor) : Cursor :=
  c.advance (c.rest.takeWhile Text.isBlank).length

/-- The token at a cursor that stands before `char`, which is no blank, and the
cursor behind that token. -/
def read (offset : Nat) (char : Char) (rest : List Char) : Token × Cursor :=
  let reading := Reading.first char rest
  let after := advance ⟨offset, char :: rest⟩ reading.length
  (⟨reading.lexeme, ⟨offset, after.offset⟩⟩, after)

@[simp] theorem rest_advance (c : Cursor) (n : Nat) : (c.advance n).rest = c.rest.drop n := rfl

theorem length_rest_skipBlanks_le (c : Cursor) :
    c.skipBlanks.rest.length ≤ c.rest.length := by
  simp [skipBlanks]

/-- Reading a token leaves less of the text. -/
theorem length_rest_read_lt (offset : Nat) (char : Char) (rest : List Char) :
    (read offset char rest).2.rest.length < (char :: rest).length := by
  have h := Reading.length_first_pos char rest
  simp only [read, rest_advance, List.length_drop, List.length_cons]
  omega

/-- **The next token**, and the cursor behind it. Comments are tokens only if
`comments` says so; otherwise they are skipped like blanks. -/
def next (comments : Bool) (c : Cursor) : Token × Cursor :=
  match _ : c.skipBlanks with
  | ⟨offset, []⟩ => (.endOfFile offset, ⟨offset, []⟩)
  | ⟨offset, char :: rest⟩ =>
    let result := read offset char rest
    if result.1.lexeme.isComment && !comments then next comments result.2 else result
termination_by c.rest.length
decreasing_by
  have hread := length_rest_read_lt offset char rest
  have hskip := c.length_rest_skipBlanks_le
  rename_i heq _
  rw [heq] at hskip
  exact Nat.lt_of_lt_of_le hread hskip

/-- The next token leaves less of the text, unless it is the end. -/
theorem length_rest_next_lt {comments : Bool} {c : Cursor}
    (h : (c.next comments).1.isEnd = false) :
    (c.next comments).2.rest.length < c.rest.length := by
  fun_induction next comments c with
  | case1 => simp [Token.isEnd, Token.endOfFile] at h
  | case2 c offset char rest heq result hskip ih =>
    have hread := length_rest_read_lt offset char rest
    have hblank := c.length_rest_skipBlanks_le
    rw [heq] at hblank
    exact Nat.lt_trans (ih h) (Nat.lt_of_lt_of_le hread hblank)
  | case3 c offset char rest heq result hkeep =>
    have hread := length_rest_read_lt offset char rest
    have hblank := c.length_rest_skipBlanks_le
    rw [heq] at hblank
    exact Nat.lt_of_lt_of_le hread hblank

/-- The tokens from a cursor on, up to and including one end token. -/
def tokens (comments : Bool) (c : Cursor) : List Token :=
  let step := c.next comments
  if _ : step.1.isEnd then [step.1] else step.1 :: tokens comments step.2
termination_by c.rest.length
decreasing_by
  rename_i hend
  exact length_rest_next_lt (Bool.eq_false_iff.2 hend)

end Cursor

/-- **The tokens of a text**, the last of which is its end. -/
def Token.scan (source : List Char) (comments : Bool) : List Token :=
  (Cursor.atStart source).tokens comments

/-- A reader of tokens that can take one back. -/
structure Scanner where
  /-- Whether comments are tokens. -/
  comments : Bool
  /-- Where it reads on. -/
  cursor : Cursor
  /-- A token that was taken back and comes next. -/
  pending : Option Token
  /-- Whether the end of the text was listed already. -/
  finished : Bool
deriving DecidableEq, Repr

namespace Scanner

/-- A scanner at the start of a text. -/
def ofText (source : List Char) (comments : Bool) : Scanner :=
  ⟨comments, .atStart source, none, false⟩

/-- The next token: the one that was taken back, or else the next one of the
text. -/
def next (s : Scanner) : Token × Scanner :=
  match s.pending with
  | some token => (token, { s with pending := none })
  | none =>
    let (token, cursor) := s.cursor.next s.comments
    (token, { s with cursor })

/-- The next token of a listing, which ends with the first end token. -/
def list (s : Scanner) : Option Token × Scanner :=
  if s.finished then (none, s)
  else
    let (token, s) := s.next
    (some token, { s with finished := token.isEnd })

/-- Takes a token back, so that it comes next. -/
def pushBack (s : Scanner) (token : Token) : Scanner := { s with pending := some token }

end Scanner

/-- What can be asked of a scanning session. -/
inductive ScanRequest
  /-- Read the next token. -/
  | next
  /-- List the next token. -/
  | list
  /-- Take back the token that was read or listed last. -/
  | pushBack
  /-- Keep the present state. -/
  | save
  /-- Go back to a kept state. -/
  | restore (index : Nat)
deriving DecidableEq, Repr

/-- What a scanning session answers. -/
inductive ScanReply
  /-- A token. -/
  | token (token : Token)
  /-- The listing is over. -/
  | exhausted
  /-- Done. -/
  | done
  /-- The number of the state that was kept. -/
  | saved (index : Nat)
  /-- There is no token to take back. -/
  | noToken
  /-- No state was kept under this number. -/
  | noSnapshot
deriving DecidableEq, Repr

/-- A scanner with the token it gave last and the states kept so far. -/
structure ScanSession where
  /-- The scanner. -/
  scanner : Scanner
  /-- The token that was read or listed last. Going back to a kept state does
  not change it. -/
  last : Option Token
  /-- The kept states, in the order of their numbers. -/
  saved : List Scanner

namespace ScanSession

/-- A session on a text. -/
def start (source : List Char) (comments : Bool) : ScanSession :=
  ⟨.ofText source comments, none, []⟩

/-- Answers one request. -/
def step (s : ScanSession) : ScanRequest → ScanReply × ScanSession
  | .next =>
    let (token, scanner) := s.scanner.next
    (.token token, { s with scanner, last := some token })
  | .list =>
    match s.scanner.list with
    | (some token, scanner) => (.token token, { s with scanner, last := some token })
    | (none, scanner) => (.exhausted, { s with scanner })
  | .pushBack =>
    match s.last with
    | some token => (.done, { s with scanner := s.scanner.pushBack token })
    | none => (.noToken, s)
  | .save => (.saved s.saved.length, { s with saved := s.saved ++ [s.scanner] })
  | .restore index =>
    match s.saved[index]? with
    | some scanner => (.done, { s with scanner })
    | none => (.noSnapshot, s)

/-- Answers requests one after the other. -/
def run (s : ScanSession) : List ScanRequest → List ScanReply
  | [] => []
  | request :: requests =>
    let (reply, s) := s.step request
    reply :: run s requests

end ScanSession

end ScriptLens
