import ScriptLens.Proofs.Rescan

/-!
# Scanning the text of one comment

Where comments are tokens, a comment says what its own text says, as other tokens do, but
for one case (`Token.scan_comment_text`). A block comment ends with its closing mark, or with
the text if there is none, and both are there again when it stands alone. A line comment ends
before the break of its line, and a return is taken for the first half of this break. Alone,
a comment has no break behind it. It stays the same unless it ends with a return of its own,
which is now taken for half of a break and left out.
-/

namespace ScriptLens

namespace Reading

/-! ## The forms of comments -/

/-- The first lexeme behind `//` is the comment. -/
theorem first_lineComment (cs : List Char) :
    first '/' ('/' :: cs)
      = ⟨.lineComment (String.ofList (lineCommentText cs)), 2 + (lineCommentText cs).length⟩ :=
  rfl

/-- On a text of one line, a comment leaves out the return that ends the text. -/
theorem lineCommentText_of_notMem {cs : List Char} (h : '\n' ∉ cs) :
    lineCommentText cs = if cs.getLast? = some '\r' then cs.dropLast else cs := by
  have hline : cs.takeWhile (· ≠ '\n') = cs := by
    refine List.takeWhile_eq_self_iff.2 fun c hc => ?_
    exact decide_eq_true fun heq => h (heq ▸ hc)
  rw [lineCommentText, hline]

end Reading

namespace Token

/-! ## Comments that stand alone -/

/-- The text of a line comment is one comment exactly if it does not end with a return. -/
theorem scan_lineComment_iff {body : List Char} (hbody : '\n' ∉ body) :
    scan ('/' :: '/' :: body) true
        = [⟨.lineComment (String.ofList body), ⟨0, Text.byteLength ('/' :: '/' :: body)⟩⟩,
          .endOfFile (Text.byteLength ('/' :: '/' :: body))]
      ↔ body.getLast? ≠ some '\r' := by
  have htext := Reading.lineCommentText_of_notMem hbody
  have hfirst := Reading.first_lineComment body
  rw [htext] at hfirst
  by_cases hreturn : body.getLast? = some '\r'
  · rw [if_pos hreturn] at hfirst
    refine iff_of_false (fun hscan => ?_) (not_not_intro hreturn)
    -- the comment that is read is shorter by the return
    rw [scan, Cursor.atStart, Cursor.tokens_cons (by decide) fun _ => rfl] at hscan
    have hlexeme := congrArg Token.lexeme (List.cons.inj hscan).1
    rw [Cursor.read, hfirst] at hlexeme
    have hshort : body.dropLast = body := String.ofList_injective (Lexeme.lineComment.inj hlexeme)
    obtain ⟨front, rfl⟩ := List.getLast?_eq_some_iff.1 hreturn
    rw [List.dropLast_concat] at hshort
    simp at hshort
  · rw [if_neg hreturn] at hfirst
    have hcovers : ('/' :: '/' :: body).length ≤ (Reading.first '/' ('/' :: body)).length := by
      rw [hfirst]
      exact Nat.le_of_eq (Nat.add_comm body.length 2)
    refine iff_of_true ?_ hreturn
    rw [scan_of_covers (by decide) (fun _ => rfl) hcovers, hfirst]

/-- **A comment is the only token of its own text**, where comments are tokens, unless it is a
line comment that ends with a return. Such a comment is not: scanned alone, it leaves the
return out. -/
theorem scan_comment_text {source : List Char} {t : Token} (ht : t ∈ scan source true)
    (hcomment : t.lexeme.isComment = true) :
    ∃ part, Text.slice? t.span.start t.span.stop source = some part
      ∧ (scan part true = [⟨t.lexeme, ⟨0, t.span.length⟩⟩, .endOfFile t.span.length]
        ↔ ¬ (t.kind = .lineComment ∧ part.getLast? = some '\r')) := by
  have hlaid := Cursor.tokens_laidOut true (Cursor.atStart source)
  have hend : t.isEnd = false := by
    refine decide_eq_false fun hlast => ?_
    rw [hlast] at hcomment
    cases hcomment
  obtain ⟨offset, char, rest, hat, hblank, -, rfl⟩ :=
    hlaid.exists_read (Cursor.atStart_in source) ht hend
  refine ⟨_, hat.cuts_read.slice?_eq, ?_⟩
  rw [hat.cuts_read.length_eq]
  rcases Reading.first_plain_or char rest with hplain | ⟨-, hblock⟩ | hline
  · exact absurd hcomment (Bool.eq_false_iff.1 hplain.1)
  · obtain ⟨text, closed, hlexeme⟩ := Reading.lexeme_blockComment? hblock
    have hkind : (Reading.first char rest).lexeme.kind ≠ .lineComment := by
      rw [hlexeme]
      nofun
    obtain ⟨inner, hcut, hagain⟩ := Reading.first_take_of_ne hkind
    have hall : (char :: inner).length ≤ (Reading.first char inner).length := by
      rw [hagain, ← hcut]
      exact List.length_take_le _ _
    rw [hcut]
    refine iff_of_true ?_ fun hline => hkind hline.1
    rw [scan_of_covers hblank (fun _ => rfl) hall, hagain]
    rfl
  · obtain ⟨content, hcontent, hreading⟩ := Reading.lineComment?_eq_some hline
    obtain ⟨rfl, rfl⟩ := List.cons.inj hcontent
    obtain ⟨ret, after, hsplit, -, hbody, -⟩ := Reading.lineCommentText_append content
    have htext : '/' :: '/' :: content
        = ('/' :: '/' :: Reading.lineCommentText content) ++ (ret ++ after) :=
      congrArg (fun cs => '/' :: '/' :: cs) hsplit
    have hlength : ('/' :: '/' :: Reading.lineCommentText content).length
        = (Reading.first '/' ('/' :: content)).length := Nat.add_comm _ 2
    have hcut : ('/' :: '/' :: content).take (Reading.first '/' ('/' :: content)).length
        = '/' :: '/' :: Reading.lineCommentText content := by
      rw [htext]
      exact List.take_left' hlength
    have hlast : ('/' :: '/' :: Reading.lineCommentText content).getLast? = some '\r'
        ↔ (Reading.lineCommentText content).getLast? = some '\r' := by
      cases Reading.lineCommentText content with
      | nil => decide
      | cons c cs => rfl
    have hkind : (Cursor.read offset '/' ('/' :: content)).1.kind = .lineComment := rfl
    rw [hcut, hkind, hlast]
    exact (scan_lineComment_iff hbody).trans (by simp)

/-- A comment behind a stray character, at the end of whose line one return stands. -/
theorem scan_comment_text_line :
    let source := "@//é\r\n".toList
    let t : Token := ⟨.lineComment "é", ⟨1, 5⟩⟩
    t ∈ scan source true ∧ t.lexeme.isComment = true
      ∧ ∃ part, Text.slice? t.span.start t.span.stop source = some part
        ∧ (scan part true = [⟨t.lexeme, ⟨0, t.span.length⟩⟩, .endOfFile t.span.length]
          ↔ ¬ (t.kind = .lineComment ∧ part.getLast? = some '\r')) := by
  intro source t
  have hmem : t ∈ scan source true := by decide +kernel
  exact ⟨hmem, rfl, scan_comment_text hmem rfl⟩

/-- **Of two returns at the end of a line a comment keeps the first**, which it loses when its
text is scanned alone. -/
theorem comment_loses_return :
    let source := "//a\r\r\n".toList
    let t : Token := ⟨.lineComment "a\r", ⟨0, 4⟩⟩
    t ∈ scan source true ∧ t.lexeme.isComment = true
      ∧ Text.slice? t.span.start t.span.stop source = some "//a\r".toList
      ∧ scan "//a\r".toList true = [⟨.lineComment "a", ⟨0, 3⟩⟩, .endOfFile 4]
      ∧ scan "//a\r".toList true ≠ [⟨t.lexeme, ⟨0, t.span.length⟩⟩, .endOfFile t.span.length] := by
  decide +kernel

end Token

end ScriptLens
