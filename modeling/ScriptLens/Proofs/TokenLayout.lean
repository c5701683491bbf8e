import Mathlib.Data.List.Chain
import ScriptLens.Proofs.Comments
import ScriptLens.Proofs.TokenOrder

/-!
# How tokens lie in their text

A scan cuts a text into tokens and what is skipped between them, and loses nothing.
`Cursor.next_eq` says this of one token: what follows a cursor is something that may
be skipped and then the text that the token is read from, or nothing. `Token.LaidOut`
strings these steps together up to the end of the text. Whatever holds of the tokens
of a text because of the place they were read at is an induction on it; the spans of
tokens and of the gaps between them (`Scanner.lists_partition`) are the first such
result.

Offsets count bytes while a text is read by characters, so "at a character boundary"
is a statement of its own. It holds because every cursor that a scan comes to stands
in the text (`Cursor.In`): the characters before it take as many bytes as its offset
says.
-/

namespace ScriptLens

/-! ## Parts of a text -/

/-- Whether an offset lies between two characters of a text, or at one of its ends. -/
def Text.IsBoundary (source : List Char) (offset : Nat) : Prop :=
  ∃ before after, source = before ++ after ∧ Text.byteLength before = offset

theorem Text.byteLength_pos {part : List Char} (h : part ≠ []) : 0 < Text.byteLength part :=
  Nat.pos_of_ne_zero fun hzero => h (Text.byteLength_eq_zero_iff.1 hzero)

/-- **A span cuts a part out of a text**, before what comes `after` it. -/
def Span.Cuts (source : List Char) (span : Span) (part after : List Char) : Prop :=
  ∃ before, source = before ++ (part ++ after)
    ∧ span = ⟨Text.byteLength before, Text.byteLength before + Text.byteLength part⟩

namespace Span.Cuts

variable {source part after : List Char} {span : Span}

theorem start_le_stop (h : Span.Cuts source span part after) : span.start ≤ span.stop := by
  obtain ⟨before, -, rfl⟩ := h
  exact Nat.le_add_right _ _

theorem start_lt_stop (h : Span.Cuts source span part after) (hpart : part ≠ []) :
    span.start < span.stop := by
  obtain ⟨before, -, rfl⟩ := h
  exact Nat.lt_add_of_pos_right (Text.byteLength_pos hpart)

theorem isBoundary (h : Span.Cuts source span part after) :
    Text.IsBoundary source span.start ∧ Text.IsBoundary source span.stop := by
  obtain ⟨before, rfl, rfl⟩ := h
  refine ⟨⟨before, part ++ after, rfl, rfl⟩, ⟨before ++ part, after, ?_, ?_⟩⟩
  · rw [List.append_assoc]
  · rw [Text.byteLength_append]

theorem slice?_eq (h : Span.Cuts source span part after) :
    Text.slice? span.start span.stop source = some part := by
  obtain ⟨before, rfl, rfl⟩ := h
  exact Text.slice?_append before part after

theorem length_eq (h : Span.Cuts source span part after) :
    span.length = Text.byteLength part := by
  obtain ⟨before, -, rfl⟩ := h
  exact Nat.add_sub_cancel_left _ _

/-- The span reaches to the end of the text if nothing comes after the part. -/
theorem stop_eq_iff (h : Span.Cuts source span part after) :
    span.stop = Text.byteLength source ↔ after = [] := by
  obtain ⟨before, rfl, rfl⟩ := h
  rw [Text.byteLength_append, Text.byteLength_append, ← Text.byteLength_eq_zero_iff]
  dsimp only
  omega

end Span.Cuts

/-! ## Cursors in a text -/

namespace Cursor

/-- **A cursor stands in a text**: what follows it is the rest of the text, and what
comes before takes as many bytes as the offset says. -/
def In (source : List Char) (c : Cursor) : Prop :=
  ∃ before, source = before ++ c.rest ∧ Text.byteLength before = c.offset

variable {source : List Char} {c : Cursor}

theorem atStart_in (source : List Char) : (atStart source).In source := ⟨[], rfl, rfl⟩

theorem In.advance (h : c.In source) (n : Nat) : (c.advance n).In source := by
  obtain ⟨before, hsource, hoffset⟩ := h
  refine ⟨before ++ c.rest.take n, ?_, ?_⟩
  · rw [rest_advance, List.append_assoc, List.take_append_drop, hsource]
  · rw [Text.byteLength_append, hoffset]
    rfl

/-- What follows a cursor starts with a part that the span from there cuts out. -/
theorem In.cuts {part after : List Char} (h : c.In source) (hrest : c.rest = part ++ after) :
    Span.Cuts source ⟨c.offset, c.offset + Text.byteLength part⟩ part after := by
  obtain ⟨before, hsource, hoffset⟩ := h
  exact ⟨before, by rw [hsource, hrest], by rw [hoffset]⟩

theorem advance_length {xs ys : List Char} (h : c.rest = xs ++ ys) :
    c.advance xs.length = ⟨c.offset + Text.byteLength xs, ys⟩ := by
  rw [Cursor.advance, h, List.take_left' rfl, List.drop_left' rfl]

theorem isEnd_read (offset : Nat) (char : Char) (rest : List Char) :
    (read offset char rest).1.isEnd = false :=
  decide_eq_false (Reading.lexeme_first_ne char rest)

/-- The span of a token that is read cuts out the characters that it covers. -/
theorem In.cuts_read {offset : Nat} {char : Char} {rest : List Char}
    (h : (⟨offset, char :: rest⟩ : Cursor).In source) :
    Span.Cuts source (read offset char rest).1.span
      ((char :: rest).take (Reading.first char rest).length)
      ((char :: rest).drop (Reading.first char rest).length) :=
  h.cuts (List.take_append_drop _ _).symm

/-! ## One token after another -/

/-- Skipping blanks stops at the first character that is none. -/
theorem skipBlanks_append {offset : Nat} {rest : List Char}
    (h : c.skipBlanks = ⟨offset, rest⟩) :
    ∃ blanks, c.rest = blanks ++ rest ∧ offset = c.offset + Text.byteLength blanks
      ∧ (∀ b ∈ blanks, Text.isBlank b = true)
      ∧ ∀ char ∈ rest.head?, Text.isBlank char = false := by
  have hsplit : c.rest.takeWhile Text.isBlank ++ c.rest.dropWhile Text.isBlank = c.rest :=
    List.takeWhile_append_dropWhile
  have hmove : c.skipBlanks = ⟨c.offset + Text.byteLength (c.rest.takeWhile Text.isBlank),
      c.rest.dropWhile Text.isBlank⟩ := advance_length hsplit.symm
  rw [hmove] at h
  obtain ⟨hoffset, hrest⟩ := Cursor.mk.inj h
  refine ⟨c.rest.takeWhile Text.isBlank, by rw [← hrest, hsplit], hoffset.symm,
    fun b hb => List.mem_takeWhile_imp hb, fun char hchar => ?_⟩
  have hnot := List.head?_dropWhile_not Text.isBlank c.rest
  rw [hrest, Option.mem_def.1 hchar] at hnot
  exact hnot

/-- Where only blanks are left, the end is read. -/
theorem next_of_end {comments : Bool} {offset : Nat} (h : c.skipBlanks = ⟨offset, []⟩) :
    c.next comments = (.endOfFile offset, ⟨offset, []⟩) := by
  rw [next]
  split
  · next heq =>
    cases h.symm.trans heq
    rfl
  · next heq => cases h.symm.trans heq

/-- Behind the blanks a token is read, and skipped if it is a comment that is not asked
for. -/
theorem next_of_read {comments : Bool} {offset : Nat} {char : Char} {rest : List Char}
    (h : c.skipBlanks = ⟨offset, char :: rest⟩) :
    c.next comments =
      if (read offset char rest).1.lexeme.isComment && !comments
      then (read offset char rest).2.next comments else read offset char rest := by
  rw [next]
  split
  · next heq => cases h.symm.trans heq
  · next heq =>
    cases h.symm.trans heq
    rfl

/-- What is read at an offset from the text that follows it: a token, or the end. -/
def readAt (offset : Nat) : List Char → Token × Cursor
  | [] => (.endOfFile offset, ⟨offset, []⟩)
  | char :: rest => read offset char rest

/-- **The next token** is read behind something that may be skipped, and is a comment
only if comments are tokens. -/
theorem next_eq (comments : Bool) (c : Cursor) :
    ∃ gap tail, c.rest = gap ++ tail ∧ Skipped comments gap tail
      ∧ c.next comments = readAt (c.offset + Text.byteLength gap) tail
      ∧ ((c.next comments).1.lexeme.isComment = true → comments = true) := by
  fun_induction next comments c with
  | case1 c offset heq =>
    obtain ⟨blanks, hrest, hoffset, hblanks, hhead⟩ := skipBlanks_append heq
    refine ⟨blanks, [], hrest, ⟨.of_blanks hblanks, hhead⟩, ?_,
      fun hcomment => absurd hcomment Bool.false_ne_true⟩
    rw [← hoffset]
    rfl
  | case2 c offset char rest heq result hskip ih =>
    -- blanks and a comment come before what is skipped from behind the comment on
    obtain ⟨blanks, hrest, hoffset, hblanks, -⟩ := skipBlanks_append heq
    obtain ⟨gap, tail, hbehind, hgap, hnext, hcomment⟩ := ih
    obtain ⟨hread, hno⟩ := Bool.and_eq_true_iff.1 hskip
    obtain rfl : comments = false := by simpa using hno
    replace hbehind : (char :: rest).drop (Reading.first char rest).length = gap ++ tail := hbehind
    have htrivia := Reading.skips_comment hread hbehind hgap
    refine ⟨blanks ++ ((char :: rest).take (Reading.first char rest).length ++ gap), tail, ?_,
      ⟨Trivia.blanks_append hblanks htrivia, hgap.head⟩, ?_, hcomment⟩
    · rw [hrest, List.append_assoc, List.append_assoc, ← hbehind, List.take_append_drop]
    · have hstop : result.2.offset
          = offset + Text.byteLength ((char :: rest).take (Reading.first char rest).length) := rfl
      rw [hnext, hstop, hoffset, Text.byteLength_append, Text.byteLength_append, ← Nat.add_assoc,
        ← Nat.add_assoc]
  | case3 c offset char rest heq result hkeep =>
    obtain ⟨blanks, hrest, hoffset, hblanks, hhead⟩ := skipBlanks_append heq
    refine ⟨blanks, char :: rest, hrest, ⟨.of_blanks hblanks, hhead⟩, ?_, fun hcomment => ?_⟩
    · rw [← hoffset]
      rfl
    · by_contra hno
      exact hkeep (by rw [hcomment, Bool.eq_false_iff.2 hno]; rfl)

end Cursor

namespace Token

/-- **Tokens laid out over the text behind a cursor**: each is read behind what may be
skipped before it, and the last one is the end of the text. -/
inductive LaidOut (comments : Bool) : Cursor → List Token → Prop
  | stop {c : Cursor} :
    Skipped comments c.rest [] → LaidOut comments c [.endOfFile c.textLength]
  | token {c : Cursor} {gap : List Char} {char : Char} {rest : List Char} {tokens : List Token} :
    c.rest = gap ++ char :: rest → Skipped comments gap (char :: rest) →
    ((Reading.first char rest).lexeme.isComment = true → comments = true) →
    LaidOut comments (Cursor.read (c.offset + Text.byteLength gap) char rest).2 tokens →
      LaidOut comments c ((Cursor.read (c.offset + Text.byteLength gap) char rest).1 :: tokens)

/-- The spans before each of some tokens, the first of which starts at an offset. -/
def gaps : Nat → List Token → List Span
  | _, [] => []
  | offset, token :: tokens => ⟨offset, token.span.start⟩ :: gaps token.span.stop tokens

end Token

/-- The tokens from a cursor on are laid out over the text behind it. -/
theorem Cursor.tokens_laidOut (comments : Bool) (c : Cursor) :
    Token.LaidOut comments c (c.tokens comments) := by
  fun_induction tokens comments c with
  | case1 c step hend =>
    obtain ⟨gap, tail, hrest, hgap, hnext, -⟩ := next_eq comments c
    have hstep : step = c.next comments := rfl
    cases tail with
    | nil =>
      rw [List.append_nil] at hrest
      rw [hstep, hnext, ← hrest]
      exact .stop (hrest ▸ hgap)
    | cons char rest =>
      rw [hstep, hnext] at hend
      have hnot := isEnd_read (c.offset + Text.byteLength gap) char rest
      exact absurd hend (Bool.eq_false_iff.1 hnot)
  | case2 c step hend ih =>
    obtain ⟨gap, tail, hrest, hgap, hnext, hcomment⟩ := next_eq comments c
    have hstep : step = c.next comments := rfl
    cases tail with
    | nil =>
      rw [hstep, hnext] at hend
      exact absurd rfl hend
    | cons char rest =>
      rw [hnext] at hcomment
      rw [hstep, hnext] at ih ⊢
      exact .token hrest hgap hcomment ih

namespace Token

namespace LaidOut

variable {comments : Bool} {source : List Char} {c : Cursor} {tokens : List Token}

/-- The end of the text comes last, and only once. -/
theorem eq_append (h : LaidOut comments c tokens) :
    ∃ front, tokens = front ++ [.endOfFile c.textLength] ∧ ∀ t ∈ front, t.isEnd = false := by
  induction h with
  | stop _ => exact ⟨[], rfl, nofun⟩
  | @token c gap char rest tokens hrest _ _ _ ih =>
    obtain ⟨front, htokens, hfront⟩ := ih
    have hlength : (Cursor.read (c.offset + Text.byteLength gap) char rest).2.textLength
        = c.textLength := by
      rw [Cursor.read, Cursor.textLength_advance, ← Cursor.advance_length hrest,
        Cursor.textLength_advance]
    rw [hlength] at htokens
    refine ⟨(Cursor.read (c.offset + Text.byteLength gap) char rest).1 :: front, ?_, ?_⟩
    · rw [htokens, List.cons_append]
    · exact List.forall_mem_cons.2 ⟨Cursor.isEnd_read _ _ _, hfront⟩

/-- **Where a token is read**: at a cursor in the text, before a character that is no
blank. -/
theorem exists_read (h : LaidOut comments c tokens) (hc : c.In source) {t : Token}
    (ht : t ∈ tokens) (hend : t.isEnd = false) :
    ∃ offset char rest, (⟨offset, char :: rest⟩ : Cursor).In source
      ∧ Text.isBlank char = false
      ∧ ((Reading.first char rest).lexeme.isComment = true → comments = true)
      ∧ t = (Cursor.read offset char rest).1 := by
  induction h with
  | stop _ =>
    obtain rfl := List.mem_singleton.1 ht
    cases hend
  | @token c gap char rest tokens hrest hgap hcomment _ ih =>
    have hat : (⟨c.offset + Text.byteLength gap, char :: rest⟩ : Cursor).In source :=
      Cursor.advance_length hrest ▸ hc.advance gap.length
    rcases List.mem_cons.1 ht with rfl | ht
    · exact ⟨_, char, rest, hat, hgap.head char rfl, hcomment, rfl⟩
    · exact ih (hat.advance _) ht

/-- **What stands before a token may be skipped**, and nothing comes after what stands
before the end. -/
theorem exists_gap (h : LaidOut comments c tokens) (hc : c.In source) {span : Span}
    (hspan : span ∈ gaps c.offset tokens) :
    ∃ gap after, Span.Cuts source span gap after ∧ Filler comments (after = []) gap := by
  induction h with
  | @stop c hgap =>
    obtain rfl := List.mem_singleton.1 hspan
    exact ⟨c.rest, [], hc.cuts (List.append_nil _).symm, hgap.filler⟩
  | @token c gap char rest tokens hrest hgap _ _ ih =>
    rcases List.mem_cons.1 hspan with rfl | hspan
    · exact ⟨gap, char :: rest, hc.cuts hrest, hgap.filler⟩
    · have hat : (⟨c.offset + Text.byteLength gap, char :: rest⟩ : Cursor).In source :=
        Cursor.advance_length hrest ▸ hc.advance gap.length
      exact ih (hat.advance _) hspan

end LaidOut

/-- Tokens follow one another where no gap ends before it starts. -/
theorem isChain_of_gaps {offset : Nat} {tokens : List Token}
    (h : ∀ span ∈ gaps offset tokens, span.start ≤ span.stop) :
    tokens.IsChain fun t u => t.span.stop ≤ u.span.start := by
  induction tokens generalizing offset with
  | nil => exact .nil
  | cons t tokens ih =>
    have htail := ih fun span hspan => h span (List.mem_cons_of_mem _ hspan)
    cases tokens with
    | nil => exact .singleton _
    | cons u tokens =>
      exact .cons_cons (h _ (List.mem_cons_of_mem _ List.mem_cons_self)) htail

/-- **The parts of a text that tokens stand on** are not empty. -/
theorem exists_cuts_of_mem_scan {source : List Char} {comments : Bool} {t : Token}
    (ht : t ∈ scan source comments) (hend : t.isEnd = false) :
    ∃ part after, Span.Cuts source t.span part after ∧ part ≠ [] := by
  have hlaid := Cursor.tokens_laidOut comments (Cursor.atStart source)
  obtain ⟨offset, char, rest, hat, -, -, rfl⟩ :=
    hlaid.exists_read (Cursor.atStart_in source) ht hend
  refine ⟨_, _, hat.cuts_read, fun hnil => ?_⟩
  have hpos := Reading.length_first_pos char rest
  rcases List.take_eq_nil_iff.1 hnil with hzero | hnil
  · omega
  · cases hnil

end Token

/-! ## Listing -/

/-- **A scanner lists tokens** one after the other, until it lists none. -/
inductive Scanner.Lists : Scanner → List Token → Prop
  | done {s : Scanner} : s.list.1 = none → Lists s []
  | token {s : Scanner} {t : Token} {tokens : List Token} :
    s.list.1 = some t → Lists s.list.2 tokens → Lists s (t :: tokens)

/-- A scanner that took no token back lists the tokens from its cursor on. -/
theorem Scanner.lists_tokens (comments : Bool) (c : Cursor) :
    Scanner.Lists ⟨comments, c, none, false⟩ (c.tokens comments) := by
  have hlist : ∀ c : Cursor, Scanner.list ⟨comments, c, none, false⟩
      = (some (c.next comments).1,
        ⟨comments, (c.next comments).2, none, (c.next comments).1.isEnd⟩) := fun _ => rfl
  fun_induction Cursor.tokens comments c with
  | case1 c step hend =>
    refine .token (by rw [hlist]) (.done ?_)
    rw [hlist, hend]
    rfl
  | case2 c step hend ih =>
    refine .token (by rw [hlist]) ?_
    rw [hlist, Bool.eq_false_iff.2 hend]
    exact ih

/-- **Tokens partition their text.** A scanner lists finitely many tokens, of which
the last and no other is the end of the text; the others are not empty. All start and
end at character boundaries, each ends before the next one starts, and what stands
before a token is blanks, together with comments unless these are tokens. -/
theorem Scanner.lists_partition (source : List Char) (comments : Bool) :
    (Scanner.ofText source comments).Lists (Token.scan source comments)
      ∧ (∃ tokens, Token.scan source comments
          = tokens ++ [Token.endOfFile (Text.byteLength source)]
        ∧ ∀ t ∈ tokens, t.isEnd = false ∧ t.span.start < t.span.stop)
      ∧ (∀ t ∈ Token.scan source comments,
        Text.IsBoundary source t.span.start ∧ Text.IsBoundary source t.span.stop)
      ∧ (Token.scan source comments).IsChain (fun t u => t.span.stop ≤ u.span.start)
      ∧ ∀ span ∈ Token.gaps 0 (Token.scan source comments),
        ∃ gap, Text.slice? span.start span.stop source = some gap
          ∧ Filler comments (span.stop = Text.byteLength source) gap := by
  have hlaid : Token.LaidOut comments (Cursor.atStart source) (Token.scan source comments) :=
    Cursor.tokens_laidOut comments _
  have hgap : ∀ span ∈ Token.gaps 0 (Token.scan source comments),
      ∃ gap after, Span.Cuts source span gap after ∧ Filler comments (after = []) gap :=
    fun _ hspan => hlaid.exists_gap (Cursor.atStart_in source) hspan
  obtain ⟨front, heq, hfront⟩ := hlaid.eq_append
  rw [show (Cursor.atStart source).textLength = Text.byteLength source from Nat.zero_add _] at heq
  refine ⟨Scanner.lists_tokens comments _, ⟨front, heq, fun t ht => ⟨hfront t ht, ?_⟩⟩,
    fun t ht => ?_, ?_, fun span hspan => ?_⟩
  · have hmem : t ∈ Token.scan source comments := heq ▸ List.mem_append_left _ ht
    obtain ⟨part, after, hcuts, hpart⟩ := Token.exists_cuts_of_mem_scan hmem (hfront t ht)
    exact hcuts.start_lt_stop hpart
  · rcases List.mem_append.1 (heq ▸ ht) with hmem | hmem
    · obtain ⟨part, after, hcuts, -⟩ := Token.exists_cuts_of_mem_scan ht (hfront t hmem)
      exact hcuts.isBoundary
    · obtain rfl := List.mem_singleton.1 hmem
      have hlast : Text.IsBoundary source (Text.byteLength source) :=
        ⟨source, [], (List.append_nil _).symm, rfl⟩
      exact ⟨hlast, hlast⟩
  · have hle : ∀ span ∈ Token.gaps 0 (Token.scan source comments), span.start ≤ span.stop := by
      intro span hspan
      obtain ⟨gap, after, hcuts, -⟩ := hgap span hspan
      exact hcuts.start_le_stop
    exact Token.isChain_of_gaps hle
  · obtain ⟨gap, after, hcuts, hfiller⟩ := hgap span hspan
    refine ⟨gap, hcuts.slice?_eq, ?_⟩
    rwa [propext hcuts.stop_eq_iff]

end ScriptLens
