import Mathlib.Data.Set.Image
import ScriptLens.Proofs.TokenLayout

/-!
# Scanning the text of one token

A token says what its own text says: scanned alone, that text gives the token again
and nothing else (`Token.scan_text`). This is a statement about every form that a
lexeme can take, and about the order in which the forms are tried. Cut off behind what
a form covers, a text still has that form, with the same lexeme; and cutting off
characters never makes a form appear that is tried before (`Reading.Local`). Neither
is clear where a form looks further than it covers, as an escape does that takes up to
two digits, or where it runs to the end of a text without a closing mark.

Line comments are left out. Of a line that ends with two returns, the comment covers the
first one, and the text of this comment has a shorter comment.
-/

namespace ScriptLens

/-! ## Quoted literals -/

namespace Quoted

/-- An escape is the same wherever the text stops behind what it takes. -/
theorem readEscape_take {letter : Char} {cs : List Char} {n : Nat}
    (h : (readEscape letter cs).2 ≤ n) : readEscape letter (cs.take n) = readEscape letter cs := by
  unfold readEscape at h ⊢
  by_cases hx : letter = 'x'
  swap
  · rw [if_neg hx, if_neg hx]
  have htail : (cs.take n).tail = cs.tail.take (n - 1) := by
    rw [← List.drop_one, List.drop_take, List.drop_one]
  rw [if_pos hx, if_pos hx, htail, List.head?_take, List.head?_take]
  rw [if_pos hx] at h
  -- a digit that is taken lies before the cut, and a character that is none stays none
  cases hhigh : cs.head?.bind hexValue? with
  | none =>
    have hcut : (if n = 0 then none else cs.head?).bind hexValue? = none := by
      split
      · rfl
      · exact hhigh
    rw [hcut]
  | some high =>
    cases hlow : cs.tail.head?.bind hexValue? with
    | none =>
      rw [hhigh, hlow] at h
      have hpos : ¬ n = 0 := Nat.ne_of_gt h
      have hcut : (if n - 1 = 0 then none else cs.tail.head?).bind hexValue? = none := by
        split
        · rfl
        · exact hlow
      rw [if_neg hpos, hhigh, hcut]
    | some low =>
      rw [hhigh, hlow] at h
      replace h : 2 ≤ n := h
      rw [if_neg (by omega), if_neg (by omega), hhigh, hlow]

/-- **Quoted content is the same** wherever the text stops behind its end. -/
theorem read_take (quote : Char) (cs : List Char) :
    read quote (cs.take (read quote cs).length) = read quote cs := by
  fun_induction read quote cs with
  | case1 => rw [List.take_nil, read]
  | case2 cs =>
    rw [List.take_succ_cons, read.eq_def]
    exact if_pos rfl
  | case3 hquote => rw [List.take_succ_cons, List.take_nil, read, if_neg hquote, if_pos rfl]
  | case4 letter cs value taken hescape hquote ih =>
    have hcut : ('\\' :: letter :: cs).take
          ((read quote (cs.drop taken)).push value (2 + taken)).length
        = '\\' :: letter :: cs.take (taken + (read quote (cs.drop taken)).length) := by
      rw [Content.length_push, Nat.add_assoc, Nat.add_comm 2]
      rfl
    have hagain : readEscape letter (cs.take (taken + (read quote (cs.drop taken)).length))
        = (value, taken) := by
      rw [readEscape_take (by rw [hescape]; exact Nat.le_add_right _ _), hescape]
    rw [hcut, read, if_neg hquote, if_pos rfl]
    simp only [hagain]
    rw [List.drop_take, Nat.add_sub_cancel_left, ih]
  | case5 c cs hquote hescape ih =>
    rw [Content.length_push, Nat.add_comm, List.take_succ_cons, read.eq_def]
    dsimp only
    rw [if_neg hquote, if_neg hescape, ih]

end Quoted

namespace Punctuation

theorem mem_longestFirst (p : Punctuation) : p ∈ longestFirst := by
  cases p <;> decide

theorem longest?_spelling (p : Punctuation) : longest? p.spelling = some p := by
  cases p <;> decide

end Punctuation

theorem Lexeme.kind_ne_lineComment {l : Lexeme} (h : l.isComment = false) :
    l.kind ≠ .lineComment := by
  intro hkind
  cases l <;> cases hkind
  cases h

namespace Reading

/-! ## Forms that depend on what they cover -/

/-- **A form depends only on the text that it covers**: it does not appear where
characters are cut off at the end, and stays as it is where they are cut off behind
it, unless it is a line comment. -/
structure Local (form : List Char → Option Reading) : Prop where
  absent : ∀ {cs : List Char} (n : Nat), form cs = none → form (cs.take n) = none
  again : ∀ {cs : List Char} {r : Reading}, form cs = some r → r.lexeme.kind ≠ .lineComment →
    form (cs.take r.length) = some r

/-- Of two forms the second is read only where the first does not appear. -/
theorem Local.orElse {f g : List Char → Option Reading} (hf : Local f) (hg : Local g) :
    Local fun cs => f cs <|> g cs where
  absent n h := by
    simp only [Option.orElse_eq_orElse, Option.orElse_eq_or, Option.or_eq_none_iff] at h ⊢
    exact ⟨hf.absent n h.1, hg.absent n h.2⟩
  again h hline := by
    simp only [Option.orElse_eq_orElse, Option.orElse_eq_or, Option.or_eq_some_iff] at h ⊢
    rcases h with h | ⟨hnone, h⟩
    · exact .inl (hf.again h hline)
    · exact .inr ⟨hf.absent _ hnone, hg.again h hline⟩

/-- A form that marks open does not appear where characters are cut off. -/
theorem absent_of_marks {form : List Char → Option Reading} (marks : Set (List Char))
    (hform : ∀ cs, form cs = none ↔ ∀ mark ∈ marks, ¬ mark <+: cs)
    {cs : List Char} (n : Nat) (h : form cs = none) : form (cs.take n) = none := by
  rw [hform] at h ⊢
  intro mark hmark hbegins
  exact h mark hmark (hbegins.trans (List.take_prefix n cs))

/-! ## Text between marks -/

theorem before?_take {mark cs inner : List Char} (h : before? mark cs = some inner) :
    before? mark (cs.take (inner.length + mark.length)) = some inner := by
  fun_induction before? mark cs generalizing inner with
  | case1 hmark =>
    obtain rfl := Option.some.inj h
    rw [List.take_nil, before?, if_pos hmark]
  | case2 => cases h
  | case3 c cs hmark =>
    obtain rfl := Option.some.inj h
    have hcut : mark.isPrefixOf ((c :: cs).take mark.length) = true := by
      rw [List.isPrefixOf_iff_prefix] at hmark ⊢
      exact List.prefix_take_iff.2 ⟨hmark, Nat.le_refl _⟩
    rw [List.length_nil, Nat.zero_add]
    unfold before?
    split
    · next hnil => rw [if_pos (hnil ▸ hcut)]
    · next hcons => rw [if_pos (hcons ▸ hcut)]
  | case4 c cs hmark ih =>
    obtain ⟨inner, hinner, rfl⟩ := Option.map_eq_some_iff.1 h
    have hcut : ¬ mark.isPrefixOf (c :: cs.take (inner.length + mark.length)) = true := by
      rw [List.isPrefixOf_iff_prefix] at hmark ⊢
      exact fun hbegins => hmark (hbegins.trans (List.take_prefix (_ + 1) (c :: cs)))
    rw [List.length_cons, Nat.succ_add, List.take_succ_cons, before?, if_neg hcut, ih hinner]
    rfl

/-- **What stands between marks is the same** wherever the text stops behind it. -/
theorem between_take (opening closing cs : List Char) :
    between opening closing (cs.take (between opening closing cs).2.1)
      = between opening closing cs := by
  have hcut : ∀ n, (cs.take (opening.length + n)).drop opening.length
      = (cs.drop opening.length).take n := by
    intro n
    rw [List.drop_take, Nat.add_sub_cancel_left]
  cases hbefore : before? closing (cs.drop opening.length) with
  | some inner => simp only [between, hbefore, Nat.add_assoc, hcut, before?_take hbefore]
  | none => simp only [between, hbefore, hcut, List.take_length]

theorem length_opening_le_between (opening closing cs : List Char) :
    opening.length ≤ (between opening closing cs).2.1 := by
  unfold between
  dsimp only
  split
  · exact Nat.le_trans (Nat.le_add_right _ _) (Nat.le_add_right _ _)
  · exact Nat.le_add_right _ _

/-- A form that stands between two marks is the same wherever the text stops behind it. -/
theorem again_of_between {form : List Char → Option Reading} {opening closing : List Char}
    (lexeme : String → Bool → Lexeme)
    (hform : ∀ cs, form cs = if opening.isPrefixOf cs
      then some ⟨lexeme (between opening closing cs).1 (between opening closing cs).2.2,
        (between opening closing cs).2.1⟩
      else none)
    {cs : List Char} {r : Reading} (h : form cs = some r) : form (cs.take r.length) = some r := by
  rw [hform] at h ⊢
  split at h
  · next hmark =>
    obtain rfl := Option.some.inj h
    have hcut : opening.isPrefixOf (cs.take (between opening closing cs).2.1) = true := by
      rw [List.isPrefixOf_iff_prefix] at hmark ⊢
      exact List.prefix_take_iff.2 ⟨hmark, length_opening_le_between _ _ _⟩
    dsimp only
    rw [if_pos hcut, between_take]
  · cases h

theorem docString?_local : Local docString? where
  absent := absent_of_marks {['/', '*', '!']} fun cs => by simp [docString?]
  again h _ := again_of_between .docString (fun _ => rfl) h

theorem blockComment?_local : Local blockComment? where
  absent := absent_of_marks {['/', '*']} fun cs => by simp [blockComment?]
  again h _ := again_of_between .blockComment (fun _ => rfl) h

theorem lineComment?_local : Local lineComment? where
  absent := absent_of_marks {['/', '/']} fun cs => by simp [lineComment?]
  again h hline := by
    obtain ⟨content, -, rfl⟩ := lineComment?_eq_some h
    exact absurd rfl hline

/-! ## Literals, punctuation and words -/

/-- A form that a mark opens and whose lexeme depends on quoted content. -/
theorem again_of_quoted {form : List Char → Option Reading} {quote : Char} (mark : List Char)
    (lexeme : Quoted.Content → Lexeme)
    (hform : ∀ cs, form (mark ++ cs)
      = some ⟨lexeme (Quoted.read quote cs), mark.length + (Quoted.read quote cs).length⟩)
    (cs : List Char) :
    form ((mark ++ cs).take (mark.length + (Quoted.read quote cs).length))
      = some ⟨lexeme (Quoted.read quote cs), mark.length + (Quoted.read quote cs).length⟩ := by
  rw [List.take_length_add_append, hform, Quoted.read_take]

/-- A form that is read behind a quote, and only there. -/
theorem Local.of_quote {form : List Char → Option Reading} (quote : Char)
    (lexeme : Quoted.Content → Lexeme)
    (hquote : ∀ cs, form (quote :: cs)
      = some ⟨lexeme (Quoted.read quote cs), 1 + (Quoted.read quote cs).length⟩)
    (hother : ∀ cs, ¬ [quote] <+: cs → form cs = none) : Local form where
  absent := absent_of_marks {[quote]} fun cs => by
    refine ⟨fun hnone mark hmark hbegins => ?_, fun h => hother cs (h _ rfl)⟩
    obtain ⟨rest, rfl⟩ := hmark ▸ hbegins
    rw [List.singleton_append, hquote] at hnone
    cases hnone
  again {cs r} h _ := by
    by_cases hbegins : [quote] <+: cs
    · obtain ⟨rest, rfl⟩ := hbegins
      rw [List.singleton_append, hquote] at h
      obtain rfl := Option.some.inj h
      exact again_of_quoted [quote] lexeme hquote rest
    · rw [hother cs hbegins] at h
      cases h

theorem string?_local : Local string? := by
  refine .of_quote '"' (fun content => .string (.ofList content.decoded) content.closed)
    (fun _ => rfl) fun cs hother => ?_
  unfold string?
  split
  · exact absurd ⟨_, rfl⟩ hother
  · rfl

theorem character?_local : Local character? := by
  refine .of_quote '\''
    (fun content => .character (content.decoded.head?.getD '\x00') content.closed)
    (fun _ => rfl) fun cs hother => ?_
  unfold character?
  split
  · exact absurd ⟨_, rfl⟩ hother
  · rfl

theorem symbol?_local : Local symbol? where
  absent := absent_of_marks {['#', '\''], ['#', ':']} fun cs => by
    unfold symbol?
    split
    · simp
    · simp
    · next hquoted hword =>
      refine iff_of_true rfl fun mark hmark hbegins => ?_
      rcases hmark with rfl | rfl
      · obtain ⟨rest, rfl⟩ := hbegins
        exact hquoted rest rfl
      · obtain ⟨rest, rfl⟩ := hbegins
        exact hword rest rfl
  again h _ := by
    unfold symbol? at h
    split at h
    · next cs =>
      obtain rfl := Option.some.inj h
      exact again_of_quoted ['#', '\'']
        (fun content => .symbol (.ofList content.decoded) content.closed) (fun _ => rfl) cs
    · next cs =>
      obtain rfl := Option.some.inj h
      have hcut : ('#' :: ':' :: cs).take (2 + (cs.takeWhile isWordChar).length)
          = '#' :: ':' :: cs.takeWhile isWordChar := by
        rw [Nat.add_comm, List.take_succ_cons, List.take_succ_cons,
          ← List.prefix_iff_eq_take.1 (List.takeWhile_prefix isWordChar)]
      dsimp only
      rw [hcut, symbol?, List.takeWhile_takeWhile]
      simp
    · cases h

theorem punctuation?_local : Local punctuation? where
  absent := absent_of_marks (Set.range Punctuation.spelling) fun cs => by
    simp [punctuation?, Punctuation.longest?, Punctuation.mem_longestFirst]
  again {cs r} h _ := by
    obtain ⟨p, hlongest, rfl⟩ := Option.map_eq_some_iff.1 h
    have hmark := List.find?_some hlongest
    rw [List.isPrefixOf_iff_prefix] at hmark
    rw [← List.prefix_iff_eq_take.1 hmark, punctuation?, Punctuation.longest?_spelling]
    rfl

theorem word?_local : Local word? where
  absent := absent_of_marks (Set.image (fun c => [c]) {c | isWordChar c = true}) fun cs => by
    rw [Set.forall_mem_image]
    cases cs with
    | nil => simp [word?]
    | cons c cs =>
      by_cases hc : isWordChar c
      · simp [word?, hc]
      · have hne : ∀ ⦃d⦄, isWordChar d = true → d ≠ c := fun d hd hdc => hc (hdc ▸ hd)
        simpa [word?, hc] using hne
  again {cs r} h _ := by
    have hcut := List.prefix_iff_eq_take.1 (List.takeWhile_prefix isWordChar (l := cs))
    dsimp only [word?] at h ⊢
    split at h
    · cases h
    · next hne =>
      obtain rfl := Option.some.inj h
      dsimp only
      rw [← hcut, List.takeWhile_takeWhile]
      simp [hne]

/-- All forms, in the order in which they are tried. -/
theorem forms_local : Local fun cs => docString? cs <|> blockComment? cs <|> lineComment? cs
    <|> string? cs <|> character? cs <|> symbol? cs <|> punctuation? cs <|> word? cs :=
  docString?_local.orElse (blockComment?_local.orElse (lineComment?_local.orElse
    (string?_local.orElse (character?_local.orElse (symbol?_local.orElse
      (punctuation?_local.orElse word?_local))))))

theorem length_first_eq_succ (c : Char) (cs : List Char) : ∃ n, (first c cs).length = n + 1 :=
  Nat.exists_eq_succ_of_ne_zero (Nat.ne_of_gt (length_first_pos c cs))

/-- **The lexeme that starts a text is the one that starts its own text**, unless it
is a line comment. -/
theorem first_take_of_ne {c : Char} {cs : List Char}
    (hline : (first c cs).lexeme.kind ≠ .lineComment) :
    ∃ rest, (c :: cs).take (first c cs).length = c :: rest ∧ first c rest = first c cs := by
  obtain ⟨n, hn⟩ := length_first_eq_succ c cs
  have hcut : (c :: cs).take (first c cs).length = c :: cs.take n := by
    rw [hn, List.take_succ_cons]
  refine ⟨cs.take n, hcut, ?_⟩
  conv_lhs => unfold first
  rw [← hcut]
  cases hforms : (docString? (c :: cs) <|> blockComment? (c :: cs) <|> lineComment? (c :: cs)
      <|> string? (c :: cs) <|> character? (c :: cs) <|> symbol? (c :: cs)
      <|> punctuation? (c :: cs) <|> word? (c :: cs)) with
  | none => rw [forms_local.absent _ hforms, first, hforms]
  | some r =>
    have hfirst : first c cs = r := by rw [first, hforms]; rfl
    rw [hfirst] at hline ⊢
    rw [forms_local.again hforms hline]
    rfl

theorem first_take {c : Char} {cs : List Char} (hplain : (first c cs).lexeme.isComment = false) :
    ∃ rest, (c :: cs).take (first c cs).length = c :: rest ∧ first c rest = first c cs :=
  first_take_of_ne (Lexeme.kind_ne_lineComment hplain)

end Reading

/-! ## Tokens -/

namespace Cursor

/-- Where no comment follows the blanks, the next token is read right behind them. -/
theorem next_of_skipBlanks {comments : Bool} {c : Cursor} {offset : Nat} {char : Char}
    {rest : List Char} (hskip : c.skipBlanks = ⟨offset, char :: rest⟩)
    (hplain : (Reading.first char rest).lexeme.isComment = false) :
    next comments c = read offset char rest := by
  have hread : (read offset char rest).1.lexeme.isComment = false := hplain
  rw [next_of_read hskip, hread, Bool.false_and, if_neg Bool.false_ne_true]

/-- Before a character that is no blank the next token is read at once, if it is a comment
only where comments are tokens. -/
theorem next_eq_read {comments : Bool} {offset : Nat} {char : Char} {rest : List Char}
    (hblank : Text.isBlank char = false)
    (hcomment : (Reading.first char rest).lexeme.isComment = true → comments = true) :
    next comments ⟨offset, char :: rest⟩ = read offset char rest := by
  have hskip : skipBlanks ⟨offset, char :: rest⟩ = ⟨offset, char :: rest⟩ := by
    rw [skipBlanks, List.takeWhile_cons_of_neg (by rw [hblank]; decide)]
    rfl
  have hkeep : ((read offset char rest).1.lexeme.isComment && !comments) = false := by
    cases hc : (read offset char rest).1.lexeme.isComment with
    | false => rfl
    | true => rw [hcomment hc]; rfl
  rw [next_of_read hskip, hkeep, if_neg Bool.false_ne_true]

/-- Before a character that is no blank and starts no comment, the next token is read
at once. -/
theorem next_cons {comments : Bool} {offset : Nat} {char : Char} {rest : List Char}
    (hblank : Text.isBlank char = false)
    (hplain : (Reading.first char rest).lexeme.isComment = false) :
    next comments ⟨offset, char :: rest⟩ = read offset char rest :=
  next_eq_read hblank fun hcomment => absurd hcomment (Bool.eq_false_iff.1 hplain)

theorem tokens_cons {comments : Bool} {offset : Nat} {char : Char} {rest : List Char}
    (hblank : Text.isBlank char = false)
    (hcomment : (Reading.first char rest).lexeme.isComment = true → comments = true) :
    tokens comments ⟨offset, char :: rest⟩
      = (read offset char rest).1 :: tokens comments (read offset char rest).2 := by
  rw [tokens, next_eq_read hblank hcomment,
    dif_neg (Bool.eq_false_iff.1 (isEnd_read offset char rest))]

theorem tokens_nil (comments : Bool) (offset : Nat) :
    tokens comments ⟨offset, []⟩ = [.endOfFile offset] := by
  have hlaid := tokens_laidOut comments ⟨offset, []⟩
  generalize tokens comments ⟨offset, []⟩ = tokens at hlaid ⊢
  cases hlaid with
  | stop _ => rfl
  | token hrest => exact absurd hrest.symm (List.append_ne_nil_of_right_ne_nil _ nofun)

end Cursor

namespace Token

/-- **A text that its first lexeme covers** is one token, if it is scanned with comments or
the lexeme is none. -/
theorem scan_of_covers {comments : Bool} {char : Char} {rest : List Char}
    (hblank : Text.isBlank char = false)
    (hcomment : (Reading.first char rest).lexeme.isComment = true → comments = true)
    (hall : (char :: rest).length ≤ (Reading.first char rest).length) :
    scan (char :: rest) comments
      = [⟨(Reading.first char rest).lexeme, ⟨0, Text.byteLength (char :: rest)⟩⟩,
        .endOfFile (Text.byteLength (char :: rest))] := by
  have hread : Cursor.read 0 char rest
      = (⟨(Reading.first char rest).lexeme, ⟨0, Text.byteLength (char :: rest)⟩⟩,
        ⟨Text.byteLength (char :: rest), []⟩) := by
    rw [Cursor.read, Cursor.advance, List.take_of_length_le hall, List.drop_eq_nil_of_le hall,
      Nat.zero_add]
  rw [scan, Cursor.atStart, Cursor.tokens_cons hblank hcomment, hread, Cursor.tokens_nil]

/-- **A token is the only one of its own text.** The span of a token other than the
end cuts a part out of the text, and that part alone scans to the same lexeme, over
all of it, and the end. -/
theorem scan_text {source : List Char} {t : Token} (ht : t ∈ scan source false)
    (hend : t.isEnd = false) :
    ∃ part, Text.slice? t.span.start t.span.stop source = some part
      ∧ scan part false = [⟨t.lexeme, ⟨0, t.span.length⟩⟩, .endOfFile t.span.length] := by
  have hlaid := Cursor.tokens_laidOut false (Cursor.atStart source)
  obtain ⟨offset, char, rest, hat, hblank, hcomment, rfl⟩ :=
    hlaid.exists_read (Cursor.atStart_in source) ht hend
  have hplain : (Reading.first char rest).lexeme.isComment = false :=
    Bool.eq_false_iff.2 fun h => nomatch hcomment h
  refine ⟨_, hat.cuts_read.slice?_eq, ?_⟩
  obtain ⟨inner, hcut, hagain⟩ := Reading.first_take hplain
  rw [hat.cuts_read.length_eq, hcut]
  -- alone, the token is read first, and it takes the whole text
  have hread : Cursor.read 0 char inner
      = (⟨(Reading.first char rest).lexeme, ⟨0, Text.byteLength (char :: inner)⟩⟩,
        ⟨Text.byteLength (char :: inner), []⟩) := by
    have hall : (char :: inner).length ≤ (Reading.first char rest).length := by
      rw [← hcut]
      exact List.length_take_le _ _
    rw [Cursor.read, hagain, Cursor.advance, List.take_of_length_le hall,
      List.drop_eq_nil_of_le hall, Nat.zero_add]
  have hnext : Cursor.next false (.atStart (char :: inner)) = Cursor.read 0 char inner :=
    Cursor.next_cons hblank (hagain ▸ hplain)
  rw [scan, Cursor.tokens, hnext, dif_neg (Bool.eq_false_iff.1 (Cursor.isEnd_read _ _ _)), hread,
    Cursor.tokens_nil]
  rfl

/-- An open string, the escape in which the end of the text cuts off. -/
theorem scan_text_open_string :
    (⟨.string "a\x04" false, ⟨2, 7⟩⟩ : Token) ∈ scan "(;\"a\\x4".toList false
      ∧ ∃ part, Text.slice? 2 7 "(;\"a\\x4".toList = some part
        ∧ scan part false = [⟨.string "a\x04" false, ⟨0, 5⟩⟩, .endOfFile 5] := by
  have hmem : (⟨.string "a\x04" false, ⟨2, 7⟩⟩ : Token) ∈ scan "(;\"a\\x4".toList false := by
    decide +kernel
  exact ⟨hmem, scan_text hmem rfl⟩

end Token

end ScriptLens
