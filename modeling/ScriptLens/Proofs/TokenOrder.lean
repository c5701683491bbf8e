import ScriptLens.Parser.SourceFile

/-!
# Tokens in source order

The tokens of a text stand one behind the other: none is empty, each starts at
or behind the end of the one before it, and all lie inside the text. This is all
that the parser's spans rest on, so it is one predicate, `Token.InOrder`, which a
suffix of the tokens inherits together with the end of what comes before it.
-/

namespace ScriptLens

/-- **Tokens between two offsets**: they are not empty, do not overlap and come
in order, and the end of the text is none of them. -/
def Token.InOrder : Nat → List Token → Nat → Prop
  | lower, [], upper => lower ≤ upper
  | lower, token :: tokens, upper =>
    lower ≤ token.span.start ∧ token.span.start < token.span.stop
      ∧ token.kind ≠ .endOfFile ∧ InOrder token.span.stop tokens upper

/-- Where tokens end that follow an offset: at the end of the last of them. -/
def Token.endOf (lower : Nat) (tokens : List Token) : Nat :=
  tokens.foldl (fun _ token => token.span.stop) lower

/-- Where tokens end is where one of them does, or where they begin if there are none. -/
theorem Token.endOf_of_forall {P : Nat → Prop} {lower : Nat} {tokens : List Token} (h : P lower)
    (hall : ∀ t ∈ tokens, P t.span.stop) : P (endOf lower tokens) := by
  induction tokens generalizing lower with
  | nil => exact h
  | cons t tokens ih =>
    exact ih (hall t List.mem_cons_self) fun u hu => hall u (List.mem_cons_of_mem _ hu)

namespace Token.InOrder

theorem le {lower upper : Nat} {tokens : List Token} (h : InOrder lower tokens upper) :
    lower ≤ upper := by
  induction tokens generalizing lower with
  | nil => exact h
  | cons token tokens ih =>
    obtain ⟨hlow, hpos, -, hrest⟩ := h
    have := ih hrest
    omega

/-- Each of the tokens lies between the two offsets and is not empty. -/
theorem mem {lower upper : Nat} {tokens : List Token} (h : InOrder lower tokens upper)
    {t : Token} (ht : t ∈ tokens) :
    lower ≤ t.span.start ∧ t.span.start < t.span.stop ∧ t.span.stop ≤ upper := by
  induction tokens generalizing lower with
  | nil => simp at ht
  | cons token tokens ih =>
    obtain ⟨hlow, hpos, -, hrest⟩ := h
    rcases List.mem_cons.1 ht with rfl | ht
    · exact ⟨hlow, hpos, hrest.le⟩
    · obtain ⟨hlow', hpos', hup⟩ := ih hrest ht
      exact ⟨by omega, hpos', hup⟩

/-- What follows some of the tokens is in order behind them. -/
theorem append_right {lower upper : Nat} {past tokens : List Token}
    (h : InOrder lower (past ++ tokens) upper) : InOrder (endOf lower past) tokens upper := by
  induction past generalizing lower with
  | nil => exact h
  | cons token past ih => exact ih h.2.2.2

/-- The first of the tokens are in order up to where they end. -/
theorem append_left {lower upper : Nat} {past tokens : List Token}
    (h : InOrder lower (past ++ tokens) upper) : InOrder lower past (endOf lower past) := by
  induction past generalizing lower with
  | nil => exact Nat.le_refl _
  | cons token past ih => exact ⟨h.1, h.2.1, h.2.2.1, ih h.2.2.2⟩

/-- Tokens that are in order end at or behind the offset they follow. -/
theorem le_endOf {lower upper : Nat} {past tokens : List Token}
    (h : InOrder lower (past ++ tokens) upper) : lower ≤ endOf lower past :=
  h.append_left.le

/-- **Tokens in order start at different offsets**, so a token's offset says which one it
is. -/
theorem cons_eq {lower upper : Nat} {xs xs' ys ys' : List Token} {t t' : Token}
    (h : InOrder lower (xs ++ t :: ys) upper) (heq : xs ++ t :: ys = xs' ++ t' :: ys')
    (hstart : t.span.start = t'.span.start) : t :: ys = t' :: ys' := by
  induction xs generalizing xs' lower with
  | nil =>
    cases xs' with
    | nil => exact heq
    | cons u us =>
      obtain ⟨rfl, hys⟩ := List.cons.inj heq
      have hlt : t.span.start < t.span.stop := h.2.1
      have hle := (h.2.2.2.mem (t := t') (by rw [hys]; simp)).1
      omega
  | cons x xs ih =>
    cases xs' with
    | nil =>
      obtain ⟨rfl, hys⟩ := List.cons.inj heq
      have hlt : x.span.start < x.span.stop := h.2.1
      have hle := (h.2.2.2.mem (t := t) (by simp)).1
      omega
    | cons u us => exact ih h.2.2.2 (List.cons.inj heq).2

end Token.InOrder

namespace Cursor

/-- The length of the text that a cursor stands in. -/
def textLength (c : Cursor) : Nat := c.offset + Text.byteLength c.rest

@[simp] theorem textLength_advance (c : Cursor) (n : Nat) :
    (c.advance n).textLength = c.textLength := by
  have hsplit : Text.byteLength (c.rest.take n) + Text.byteLength (c.rest.drop n)
      = Text.byteLength c.rest := by
    rw [← Text.byteLength_append, List.take_append_drop]
  simp only [textLength, advance]
  omega

theorem offset_le_advance (c : Cursor) (n : Nat) : c.offset ≤ (c.advance n).offset :=
  Nat.le_add_right _ _

/-- Moving over a character moves the offset. -/
theorem lt_offset_advance (offset : Nat) (char : Char) (rest : List Char) {n : Nat} (hn : 0 < n) :
    offset < (advance ⟨offset, char :: rest⟩ n).offset := by
  obtain ⟨m, rfl⟩ := Nat.exists_eq_succ_of_ne_zero (Nat.ne_of_gt hn)
  have := char.utf8Size_pos
  simp only [advance, List.take_succ_cons, Text.byteLength_cons]
  omega

/-- Skipping blanks moves a cursor ahead in the same text. -/
theorem skipBlanks_eq {c : Cursor} {offset : Nat} {rest : List Char}
    (h : c.skipBlanks = ⟨offset, rest⟩) :
    c.offset ≤ offset ∧ (⟨offset, rest⟩ : Cursor).textLength = c.textLength := by
  rw [← h]
  refine ⟨?_, textLength_advance _ _⟩
  have hle : c.offset ≤ c.skipBlanks.offset := offset_le_advance _ _
  rwa [h] at hle

/-- A token that is read is not empty and ends where the cursor moves to. -/
theorem read_inOrder (offset : Nat) (char : Char) (rest : List Char) :
    offset < (read offset char rest).2.offset
      ∧ (read offset char rest).2.textLength = (⟨offset, char :: rest⟩ : Cursor).textLength :=
  ⟨lt_offset_advance offset char rest (Reading.length_first_pos char rest),
    textLength_advance _ _⟩

/-- What is known of the next token, unless it is the end: it is not empty, it
starts at the cursor or behind it, and the cursor moves to its end. -/
theorem next_inOrder {comments : Bool} {c : Cursor} (h : (c.next comments).1.isEnd = false) :
    c.offset ≤ (c.next comments).1.span.start
      ∧ (c.next comments).1.span.start < (c.next comments).1.span.stop
      ∧ (c.next comments).2.offset = (c.next comments).1.span.stop
      ∧ (c.next comments).2.textLength = c.textLength := by
  fun_induction next comments c with
  | case1 => simp [Token.isEnd, Token.endOfFile] at h
  | case2 c offset char rest heq result hskip ih =>
    obtain ⟨hblank, hlength⟩ := skipBlanks_eq heq
    obtain ⟨hread, htotal⟩ := read_inOrder offset char rest
    obtain ⟨hstart, hpos, hstop, hnext⟩ := ih h
    refine ⟨?_, hpos, hstop, hnext.trans (htotal.trans hlength)⟩
    exact Nat.le_trans hblank (Nat.le_trans (Nat.le_of_lt hread) hstart)
  | case3 c offset char rest heq result hkeep =>
    obtain ⟨hblank, hlength⟩ := skipBlanks_eq heq
    obtain ⟨hread, htotal⟩ := read_inOrder offset char rest
    exact ⟨hblank, hread, rfl, htotal.trans hlength⟩

/-- The tokens from a cursor on are in order behind it. -/
theorem tokens_inOrder (comments : Bool) (c : Cursor) :
    Token.InOrder c.offset ((c.tokens comments).filter (!·.isEnd)) c.textLength := by
  fun_induction tokens comments c with
  | case1 c step hend =>
    have hle : c.offset ≤ c.textLength := Nat.le_add_right _ _
    simpa [hend, Token.InOrder] using hle
  | case2 c step hend ih =>
    have hnot : step.1.isEnd = false := Bool.eq_false_iff.2 hend
    obtain ⟨hstart, hpos, hstop, htotal⟩ := next_inOrder hnot
    rw [List.filter_cons_of_pos (by simp [hnot])]
    refine ⟨hstart, hpos, ?_, ?_⟩
    · intro hkind
      have hlexeme : step.1.lexeme ≠ .endOfFile := by simpa [Token.isEnd] using hnot
      unfold Token.kind at hkind
      cases hl : step.1.lexeme <;> simp_all [Lexeme.kind]
    · rw [← hstop, ← htotal]
      exact ih

end Cursor

/-- **The tokens of a text are in order**, and fill no more than the text. -/
theorem Parser.tokensOf_inOrder (text : List Char) :
    Token.InOrder 0 (tokensOf text) (Text.byteLength text) := by
  have h := Cursor.tokens_inOrder false (Cursor.atStart text)
  rwa [Cursor.textLength, Cursor.atStart, Nat.zero_add] at h

end ScriptLens
