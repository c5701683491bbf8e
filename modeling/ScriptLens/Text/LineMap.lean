import ScriptLens.Text.Bytes

/-!
# Lines and columns

Editors talk in lines and columns while the analysis works on byte offsets.
A line map lists the offset at which every line starts. A line ends at `\n`, at
`\r\n` or at a lone `\r`; columns count characters.

`LineMap.position` goes from offsets to positions and `LineMap.offset?` back.
Both clamp: an offset past the text has the position of its end on the line it
falls on, and a column past a line means the end of that line.
-/

namespace ScriptLens

/-- A place in a text by line and column, both counted from zero. -/
structure Position where
  /-- The line. -/
  line : Nat
  /-- The number of characters before the place on its line. -/
  column : Nat
deriving DecidableEq, Repr

/-- Two places, the first and the last of a range. -/
structure PositionRange where
  /-- Where the range starts. -/
  first : Position
  /-- Where the range ends. -/
  last : Position
deriving DecidableEq, Repr

/-- The offsets at which the lines of a text start, in order. -/
structure LineMap where
  /-- The start of every line. -/
  starts : List Nat
deriving DecidableEq, Repr

namespace LineMap

/-- The starts of the lines that follow the first line break of a text whose
first character stands at `offset`. A `\r` that a `\n` follows breaks no line;
that `\n` does. -/
def startsAfter (offset : Nat) : List Char → List Nat
  | [] => []
  | c :: cs =>
    if c = '\n' ∨ (c = '\r' ∧ cs.head? ≠ some '\n') then
      (offset + 1) :: startsAfter (offset + 1) cs
    else
      startsAfter (offset + c.utf8Size) cs

/-- The line map of a text. Its first line starts at zero. -/
def ofText (source : List Char) : LineMap := ⟨0 :: startsAfter 0 source⟩

/-- The number of lines. A text has at least one. -/
def lineCount (m : LineMap) : Nat := m.starts.length

/-- The last line that starts at or before an offset. -/
def lineOf (m : LineMap) (offset : Nat) : Nat :=
  (m.starts.takeWhile (· ≤ offset)).length - 1

/-- The position of a byte offset. An offset inside a character has column
zero. -/
def position (m : LineMap) (source : List Char) (offset : Nat) : Position :=
  let line := m.lineOf offset
  let stop := min offset (Text.byteLength source)
  let start := min (m.starts.getD line 0) stop
  ⟨line, (Text.slice start stop source).length⟩

/-- Whether a character ends a line. -/
def isBreak (c : Char) : Bool := c = '\n' || c = '\r'

/-- The text of a line without the characters that end it. -/
def lineText (m : LineMap) (source : List Char) (line : Nat) : List Char :=
  match m.starts[line]? with
  | none => []
  | some start =>
    let stop := m.starts.getD (line + 1) (Text.byteLength source)
    (Text.slice start stop source).takeWhile (!isBreak ·)

/-- The byte offset of a position; none where the text has no such line. -/
def offset? (m : LineMap) (source : List Char) (p : Position) : Option Nat :=
  m.starts[p.line]?.map fun start =>
    start + Text.byteLength ((m.lineText source p.line).take p.column)

/-- The positions of the two ends of a range of offsets. -/
def range (m : LineMap) (source : List Char) (start stop : Nat) : PositionRange :=
  ⟨m.position source start, m.position source stop⟩

@[simp] theorem starts_ofText (source : List Char) :
    (ofText source).starts = 0 :: startsAfter 0 source := rfl

theorem lineCount_pos (source : List Char) : 0 < (ofText source).lineCount := by
  simp [lineCount]

end LineMap

end ScriptLens
