import ScriptLens.Text.Bytes

/-!
# Spans of a source text

A span is a half-open range of byte offsets. Tokens and tree nodes own one
each. Containment between nodes is half-open, while a cursor that sits on
either edge of a node still touches it, so both tests are here.

Offsets are natural numbers. A program that keeps them in 32 bits computes the
same ones as long as the text is shorter than 2^32 bytes, and all results about
offsets are to be read for such texts.
-/

namespace ScriptLens

/-- A range `[start, stop)` of byte offsets into one source text. Nothing
forces the two offsets into order: a span whose `stop` does not lie past its
`start` is empty. -/
structure Span where
  /-- The offset of the first byte. -/
  start : Nat
  /-- The offset just past the last byte. -/
  stop : Nat
deriving DecidableEq, Repr

namespace Span

/-- The span of no bytes at an offset. -/
def emptyAt (offset : Nat) : Span := ⟨offset, offset⟩

/-- The number of bytes covered. -/
def length (s : Span) : Nat := s.stop - s.start

/-- Whether the span covers no byte. -/
def isEmpty (s : Span) : Bool := s.stop ≤ s.start

/-- Whether the byte at an offset is covered. -/
def contains (s : Span) (offset : Nat) : Bool := s.start ≤ offset && offset < s.stop

/-- Whether a cursor at an offset touches the span; both edges count. -/
def touches (s : Span) (offset : Nat) : Bool := s.start ≤ offset && offset ≤ s.stop

/-- Whether another span lies inside this one. -/
def covers (s t : Span) : Bool := s.start ≤ t.start && t.stop ≤ s.stop

/-- Whether two spans share a byte. An empty span shares none. -/
def overlaps (s t : Span) : Bool :=
  !s.isEmpty && !t.isEmpty && s.start < t.stop && t.start < s.stop

/-- The least span that covers two spans. -/
def join (s t : Span) : Span := ⟨min s.start t.start, max s.stop t.stop⟩

/-- The text under a span; empty where the span is no part of the text. -/
def text (s : Span) (source : List Char) : List Char := Text.slice s.start s.stop source

@[simp] theorem length_emptyAt (offset : Nat) : (emptyAt offset).length = 0 := by
  simp [emptyAt, length]

end Span

/-- An offset into a named source text. -/
structure SourcePosition where
  /-- The name of the text. -/
  file : String
  /-- The byte offset into it. -/
  offset : Nat
deriving DecidableEq, Repr

/-- A source position is written as its file name and its offset, joined by
`@`. -/
def SourcePosition.render (p : SourcePosition) : String :=
  p.file ++ "@" ++ Nat.repr p.offset

end ScriptLens
