import ScriptLens.Proofs.Lookahead

/-!
# Comments are blanks

Overwritten with blanks, one for each of their bytes, the comments of a text leave the tokens
that the parser reads as they are (`Token.scan_blankOut`). What could go wrong is at the edges
of a comment. In front of it, a token loses the slash that it ended before; behind it, nothing
changes, because a token is read from where it starts on. The slash is all that a token in
front can see of the comment, and a blank ends a token as well as a slash does
(`Reading.first_alike`).

A text and its comments are taken apart together, token by token: what is overwritten behind a
token is told by the tokens from there on (`Cursor.uncommented_read`).
-/

namespace ScriptLens

namespace Text

/-! ## Overwriting -/

/-- **A text with blanks at some offsets**. A character there gives way to one blank for each of
its bytes, so that nothing else moves. -/
def blankOut (p : Nat → Bool) : Nat → List Char → List Char
  | _, [] => []
  | offset, c :: cs =>
    (if p offset then List.replicate c.utf8Size ' ' else [c]) ++ blankOut p (offset + c.utf8Size) cs

variable {p q : Nat → Bool} {offset : Nat} {cs : List Char}

theorem blankOut_append (p : Nat → Bool) (offset : Nat) (xs ys : List Char) :
    blankOut p offset (xs ++ ys)
      = blankOut p offset xs ++ blankOut p (offset + byteLength xs) ys := by
  induction xs generalizing offset with
  | nil => rfl
  | cons c xs ih =>
    rw [List.cons_append, blankOut, ih, blankOut, List.append_assoc, byteLength_cons, Nat.add_assoc]

/-- Offsets outside of a text do not matter for it. -/
theorem blankOut_congr
    (h : ∀ x, offset ≤ x → x < offset + byteLength cs → p x = q x) :
    blankOut p offset cs = blankOut q offset cs := by
  induction cs generalizing offset with
  | nil => rfl
  | cons c cs ih =>
    have hpos := c.utf8Size_pos
    rw [byteLength_cons] at h
    rw [blankOut, blankOut, h offset (Nat.le_refl _) (by omega),
      ih fun x hlow hup => h x (by omega) (by omega)]

/-- A text is overwritten as a whole or not at all. -/
theorem blankOut_const (blank : Bool) (offset : Nat) (cs : List Char) :
    blankOut (fun _ => blank) offset cs
      = if blank then List.replicate (byteLength cs) ' ' else cs := by
  induction cs generalizing offset with
  | nil => cases blank <;> rfl
  | cons c cs ih =>
    rw [blankOut, ih]
    cases blank with
    | true => exact List.replicate_append_replicate
    | false => rfl

end Text

/-- **Whether the byte at an offset belongs to a comment.** -/
def Token.inComment (tokens : List Token) (offset : Nat) : Bool :=
  tokens.any fun t => t.lexeme.isComment && t.span.contains offset

/-- A comment starts with a slash. -/
theorem Reading.eq_slash_of_isComment {c : Char} {cs : List Char}
    (h : (first c cs).lexeme.isComment = true) : c = '/' := by
  rcases first_plain_or c cs with hplain | ⟨-, hblock⟩ | hline
  · exact absurd h (Bool.eq_false_iff.1 hplain.1)
  · unfold blockComment? at hblock
    split at hblock
    · next hmark =>
      obtain ⟨content, hcontent⟩ := exists_of_isPrefixOf hmark
      exact (List.cons.inj hcontent).1
    · cases hblock
  · obtain ⟨content, hcontent, -⟩ := lineComment?_eq_some hline
    exact (List.cons.inj hcontent).1

namespace Cursor

/-! ## Comments behind a cursor -/

/-- What follows a cursor, with blanks in place of the comments there. -/
def uncommented (c : Cursor) : List Char :=
  Text.blankOut (Token.inComment (c.tokens true)) c.offset c.rest

variable {char : Char} {rest : List Char} {offset : Nat}

/-- No comment behind a cursor goes back in front of it. -/
theorem inComment_of_lt {c : Cursor} (h : offset < c.offset) :
    Token.inComment (c.tokens true) offset = false := by
  refine List.any_eq_false.2 fun t ht hin => ?_
  obtain ⟨hcomment, hcontains⟩ := Bool.and_eq_true_iff.1 hin
  have hend : t.isEnd = false := by
    refine Bool.eq_false_iff.2 fun hlast => ?_
    rw [of_decide_eq_true hlast] at hcomment
    cases hcomment
  have hstart := ((tokens_inOrder true c).mem (List.mem_filter.2 ⟨ht, by rw [hend]; rfl⟩)).1
  have hle := of_decide_eq_true (Bool.and_eq_true_iff.1 hcontains).1
  omega

/-- **A part of the text behind a cursor is overwritten as a whole or not at all** if the tokens
read from it are a comment over all of it or none. -/
theorem uncommented_append {c c' : Cursor} (before : List Token) (part : List Char) (blank : Bool)
    (htokens : c.tokens true = before ++ c'.tokens true) (hrest : c.rest = part ++ c'.rest)
    (hoffset : c'.offset = c.offset + Text.byteLength part)
    (hpart : ∀ x, c.offset ≤ x → x < c'.offset → Token.inComment before x = blank)
    (hbehind : ∀ x, c'.offset ≤ x → Token.inComment before x = false) :
    c.uncommented = (if blank then List.replicate (Text.byteLength part) ' ' else part)
      ++ c'.uncommented := by
  have hin : ∀ x, Token.inComment (c.tokens true) x
      = (Token.inComment before x || Token.inComment (c'.tokens true) x) := by
    intro x
    rw [htokens, Token.inComment, List.any_append]
    rfl
  rw [uncommented, hrest, Text.blankOut_append, ← hoffset, ← Text.blankOut_const blank c.offset]
  congr 1
  · refine Text.blankOut_congr fun x hlow hup => ?_
    rw [← hoffset] at hup
    rw [hin, hpart x hlow hup, inComment_of_lt hup, Bool.or_false]
  · refine Text.blankOut_congr fun x hlow _ => ?_
    rw [hin, hbehind x hlow, Bool.false_or]

theorem uncommented_blank (h : Text.isBlank char = true) :
    uncommented ⟨offset, char :: rest⟩
      = char :: uncommented ⟨offset + Text.byteLength [char], rest⟩ :=
  uncommented_append [] [char] false (tokens_blank true offset h rest) rfl rfl
    (fun _ _ _ => rfl) fun _ _ => rfl

/-- **A comment is overwritten**, any other token is not, and the text behind it is overwritten
as its own tokens say. -/
theorem uncommented_read (h : Text.isBlank char = false) :
    uncommented ⟨offset, char :: rest⟩
      = (if (Reading.first char rest).lexeme.isComment
          then List.replicate
            (Text.byteLength ((char :: rest).take (Reading.first char rest).length)) ' '
          else (char :: rest).take (Reading.first char rest).length)
        ++ uncommented (read offset char rest).2 := by
  have hin : ∀ x, Token.inComment [(read offset char rest).1] x
      = ((Reading.first char rest).lexeme.isComment
        && (read offset char rest).1.span.contains x) := fun _ => Bool.or_false _
  refine uncommented_append [(read offset char rest).1] _ _ (tokens_read offset h rest)
    (List.take_append_drop _ _).symm rfl (fun x hlow hup => ?_) fun x hlow => ?_
  · have hcontains : (read offset char rest).1.span.contains x = true :=
      Bool.and_eq_true_iff.2 ⟨decide_eq_true hlow, decide_eq_true hup⟩
    rw [hin, hcontains, Bool.and_true]
  · have hbeyond : (read offset char rest).1.span.contains x = false :=
      Bool.and_eq_false_iff.2 (.inr (decide_eq_false (Nat.not_lt.2 hlow)))
    rw [hin, hbeyond, Bool.and_false]

/-- What follows a cursor starts as it did, or with a blank where a comment did. -/
theorem alike_uncommented (c : Cursor) : Alike c.rest c.uncommented := by
  obtain ⟨offset, rest⟩ := c
  cases rest with
  | nil => exact .refl _
  | cons char rest =>
    cases hblank : Text.isBlank char with
    | true =>
      rw [uncommented_blank hblank]
      exact .inl rfl
    | false =>
      obtain ⟨n, hn⟩ := Reading.length_first_eq_succ char rest
      rw [uncommented_read hblank, hn, List.take_succ_cons]
      cases hcomment : (Reading.first char rest).lexeme.isComment with
      | false => exact .inl rfl
      | true =>
        obtain ⟨m, hm⟩ := Nat.exists_eq_succ_of_ne_zero (Nat.ne_of_gt
          (Text.byteLength_pos (List.cons_ne_nil char (rest.take n))))
        rw [if_pos rfl, hm]
        exact .inr ⟨congrArg some (Reading.eq_slash_of_isComment hcomment), rfl⟩

/-! ## Scanning -/

/-- A run of blanks is skipped. -/
theorem tokens_replicate_blank (comments : Bool) (offset n : Nat) (text : List Char) :
    tokens comments ⟨offset, List.replicate n ' ' ++ text⟩
      = tokens comments ⟨offset + n, text⟩ := by
  induction n generalizing offset with
  | zero => rfl
  | succ n ih =>
    have hone : Text.byteLength [' '] = 1 := rfl
    rw [List.replicate_succ, List.cons_append, tokens_blank comments offset (by decide), ih, hone,
      Nat.add_right_comm, Nat.add_assoc]

/-- Behind a token that is no comment other text that is alike may stand. -/
theorem exists_read_alike (offset : Nat) {b : List Char}
    (hplain : (Reading.first char rest).lexeme.isComment = false)
    (halike : Alike (read offset char rest).2.rest b) :
    ∃ cs, (char :: rest).take (Reading.first char rest).length = char :: cs
      ∧ read offset char (cs ++ b)
        = ((read offset char rest).1, ⟨(read offset char rest).2.offset, b⟩) := by
  by_cases hall : (char :: rest).length ≤ (Reading.first char rest).length
  · have hnil : (read offset char rest).2.rest = [] := List.drop_eq_nil_of_le hall
    rw [hnil] at halike
    refine ⟨rest, List.take_of_length_le hall, ?_⟩
    rw [halike.eq_nil, List.append_nil, ← hnil]
  · obtain ⟨n, hn⟩ := Reading.length_first_eq_succ char rest
    have hread := @read_alike (rest.take n) (rest.drop n) b offset char
    rw [List.take_append_drop] at hread
    refine ⟨rest.take n, by rw [hn, List.take_succ_cons],
      hread ?_ (Lexeme.kind_ne_lineComment hplain) ?_⟩
    · have hdrop : (read offset char rest).2.rest = rest.drop n := by
        rw [read, rest_advance, hn, List.drop_succ_cons]
      exact hdrop ▸ halike
    · rw [hn, List.length_cons] at hall
      rw [hn, List.length_take_of_le (by omega)]

theorem tokens_plain (hblank : Text.isBlank char = false)
    (hplain : (Reading.first char rest).lexeme.isComment = false) :
    tokens false ⟨offset, char :: rest⟩
      = (read offset char rest).1 :: tokens false (read offset char rest).2 :=
  tokens_cons hblank fun hcomment => absurd hcomment (Bool.eq_false_iff.1 hplain)

/-- Where comments are none, a comment is skipped. -/
theorem tokens_comment (hblank : Text.isBlank char = false)
    (hcomment : (Reading.first char rest).lexeme.isComment = true) :
    tokens false ⟨offset, char :: rest⟩ = tokens false (read offset char rest).2 := by
  refine tokens_congr ?_
  rw [next_false, next_eq_read hblank fun _ => rfl]
  exact if_pos hcomment

/-- **Overwritten comments are skipped as the comments were.** By induction on what follows the
cursor, one blank or one token at a time. -/
theorem tokens_uncommented (c : Cursor) :
    tokens false ⟨c.offset, c.uncommented⟩ = tokens false c := by
  obtain ⟨offset, rest⟩ := c
  induction hlength : rest.length using Nat.strong_induction_on generalizing offset rest with
  | _ n ih =>
    subst hlength
    cases rest with
    | nil => rfl
    | cons char rest =>
      cases hblank : Text.isBlank char with
      | true =>
        rw [uncommented_blank hblank, tokens_blank false offset hblank,
          tokens_blank false offset hblank]
        exact ih _ (Nat.lt_succ_self _) _ _ rfl
      | false =>
        have hbehind := ih _ (length_rest_read_lt offset char rest) (read offset char rest).2.offset
          _ rfl
        rw [uncommented_read hblank]
        cases hcomment : (Reading.first char rest).lexeme.isComment with
        | true =>
          rw [if_pos rfl, tokens_replicate_blank, tokens_comment hblank hcomment]
          exact hbehind
        | false =>
          obtain ⟨cs, hcs, hread⟩ := exists_read_alike offset hcomment (alike_uncommented _)
          have hlexeme : (Reading.first char (cs ++ (read offset char rest).2.uncommented)).lexeme
              = (Reading.first char rest).lexeme := congrArg (·.1.lexeme) hread
          rw [if_neg Bool.false_ne_true, hcs, List.cons_append,
            tokens_plain hblank (hlexeme ▸ hcomment), hread, tokens_plain hblank hcomment, hbehind]

end Cursor

/-- **To the parser a comment is a run of blanks.** The comments of a text overwritten, byte by
byte, its tokens are the same, with the same kinds, values and flags at the same places. -/
theorem Token.scan_blankOut (source : List Char) :
    scan (Text.blankOut (inComment (scan source true)) 0 source) false = scan source false :=
  Cursor.tokens_uncommented (.atStart source)

example :
    let source := "a/*é*//b//c\n".toList
    Text.blankOut (Token.inComment (Token.scan source true)) 0 source
      = "a      /b   \n".toList := by
  decide +kernel

end ScriptLens
