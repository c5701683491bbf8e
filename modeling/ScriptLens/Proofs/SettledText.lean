import ScriptLens.Proofs.Lookahead

/-!
# Text that a following word does not change

Where a word follows a blank, what stands before it is read without regard to what comes
after that word. A lexeme looks at one character behind itself, so it does not see past the
word (`Reading.first_alike`), and a line comment ends with its line. This does not hold of
everything: a string, a symbol or a comment that is open before the word goes on into it, and
how far depends on the rest of the text. So what is said of a lexeme is said where it ends
before the word (`Reading.first_settled`), and a text is split in front of the word only where
a token starts there (`Cursor.splits_of_token`).

The word is `x`, with which the type of a variable and that of a parameter are followed.
-/

namespace ScriptLens

variable {cs a b : List Char}

namespace Reading

/-! ## Line comments -/

/-- A mark without a blank lies before the blank. -/
theorem prefix_append_blank {mark : List Char} (hmark : ' ' ∉ mark) :
    mark <+: cs ++ ' ' :: a ↔ mark <+: cs := by
  refine ⟨fun h => ?_, fun h => h.trans (List.prefix_append ..)⟩
  by_cases hle : mark.length ≤ cs.length
  · exact List.prefix_of_prefix_length_le h (List.prefix_append ..) hle
  · have hblank : cs ++ [' '] <+: mark := by
      refine List.prefix_of_prefix_length_le ?_ h ?_
      · exact ⟨a, List.append_assoc ..⟩
      · rw [List.length_append]
        exact Nat.lt_of_not_le hle
    exact absurd (hblank.subset (by simp)) hmark

/-- What follows a line does not matter for it. -/
theorem lineCommentText_append_of_mem (h : '\n' ∈ cs) :
    lineCommentText (cs ++ a) = lineCommentText cs := by
  have hline : (cs ++ a).takeWhile (· ≠ '\n') = cs.takeWhile (· ≠ '\n') := by
    rw [List.takeWhile_append, if_neg]
    intro hall
    have hcs := (List.takeWhile_prefix (· ≠ '\n') (l := cs)).eq_of_length hall
    rw [← hcs] at h
    simpa using List.mem_takeWhile_imp h
  rw [lineCommentText, hline, ← lineCommentText]

/-- A line that goes on up to the word contains it. -/
theorem lt_length_lineCommentText (h : '\n' ∉ cs) :
    cs.length + 1 < (lineCommentText (cs ++ ' ' :: 'x' :: a)).length := by
  have hline : (cs ++ ' ' :: 'x' :: a).takeWhile (· ≠ '\n')
      = cs ++ ' ' :: 'x' :: a.takeWhile (· ≠ '\n') := by
    rw [List.takeWhile_append_of_pos]
    · rfl
    · intro c hc
      exact decide_eq_true fun heq => h (heq ▸ hc)
  rw [lineCommentText, hline]
  generalize a.takeWhile (· ≠ '\n') = line
  split
  · next hlast =>
    -- the return is none of the characters of the word
    cases line with
    | nil => simp at hlast
    | cons c line =>
      simp only [List.length_dropLast, List.length_append, List.length_cons]
      omega
  · simp only [List.length_append, List.length_cons]
    omega

/-- A line comment that ends before the word is the same, whatever comes after the word. -/
theorem lineComment?_settled {r : Reading} (b : List Char)
    (h : lineComment? (cs ++ ' ' :: 'x' :: a) = some r) (hle : r.length ≤ cs.length + 1) :
    lineComment? (cs ++ ' ' :: 'x' :: b) = some r := by
  obtain ⟨content, hcontent, rfl⟩ := lineComment?_eq_some h
  obtain ⟨line, rfl⟩ : ['/', '/'] <+: cs :=
    (prefix_append_blank (by decide)).1 ⟨content, hcontent.symm⟩
  obtain rfl : line ++ ' ' :: 'x' :: a = content :=
    (List.cons.inj (List.cons.inj hcontent).2).2
  have hmem : '\n' ∈ line := by
    by_contra hnot
    have hlt := lt_length_lineCommentText (a := a) hnot
    simp only [List.length_append, List.length_cons, List.length_nil] at hle
    omega
  have hread : lineComment? (['/', '/'] ++ line ++ ' ' :: 'x' :: b)
      = some ⟨.lineComment (String.ofList (lineCommentText (line ++ ' ' :: 'x' :: b))),
        2 + (lineCommentText (line ++ ' ' :: 'x' :: b)).length⟩ := rfl
  rw [hread, lineCommentText_append_of_mem hmem, lineCommentText_append_of_mem hmem]

theorem lineComment?_of_kind {c : Char} (h : (first c cs).lexeme.kind = .lineComment) :
    lineComment? (c :: cs) = some (first c cs) := by
  rcases first_plain_or c cs with hplain | ⟨-, hblock⟩ | hline
  · exact absurd h (Lexeme.kind_ne_lineComment hplain.1)
  · obtain ⟨text, closed, hlexeme⟩ := lexeme_blockComment? hblock
    rw [hlexeme] at h
    cases h
  · exact hline

theorem first_of_lineComment? {c : Char} {r : Reading} (h : lineComment? (c :: cs) = some r) :
    first c cs = r := by
  obtain ⟨content, hcontent, rfl⟩ := lineComment?_eq_some h
  obtain ⟨rfl, rfl⟩ := List.cons.inj hcontent
  rfl

/-- **What is read where a text starts** is settled before a word that follows a blank. -/
theorem first_settled {c : Char} (b : List Char)
    (h : (first c (cs ++ ' ' :: 'x' :: a)).length ≤ cs.length + 2) :
    first c (cs ++ ' ' :: 'x' :: b) = first c (cs ++ ' ' :: 'x' :: a) := by
  by_cases hline : (first c (cs ++ ' ' :: 'x' :: a)).lexeme.kind = .lineComment
  · refine first_of_lineComment? ?_
    rw [← List.cons_append]
    exact lineComment?_settled b (lineComment?_of_kind hline) h
  · obtain ⟨n, hn⟩ := length_first_eq_succ c (cs ++ ' ' :: 'x' :: a)
    have hsplit : ∀ b, cs ++ ' ' :: 'x' :: b
        = (cs ++ [' ']).take n ++ ((cs ++ [' ']).drop n ++ 'x' :: b) := fun b => by
      rw [← List.append_assoc, List.take_append_drop, List.append_assoc]
      rfl
    rw [hn] at h
    have hlength : ((cs ++ [' ']).take n).length = n :=
      List.length_take_of_le (by rw [List.length_append]; exact Nat.le_of_succ_le_succ h)
    -- the word starts behind the lexeme, or a character in front of it does
    have halike : Alike ((cs ++ [' ']).drop n ++ 'x' :: a) ((cs ++ [' ']).drop n ++ 'x' :: b) := by
      cases (cs ++ [' ']).drop n <;> exact .inl rfl
    rw [hsplit a] at hline hn ⊢
    rw [hsplit b]
    exact first_alike halike hline (by rw [hn, hlength])

end Reading

namespace Cursor

/-- A token that ends before the word is the same whatever comes after the word. -/
theorem read_settled (offset : Nat) {c : Char} {n : Nat}
    (hn : (Reading.first c (cs ++ ' ' :: 'x' :: a)).length = n) (hle : n ≤ cs.length + 2) :
    ∃ t : Token, t.span.start = offset ∧ ∀ b, read offset c (cs ++ ' ' :: 'x' :: b)
      = (t, ⟨offset + Text.byteLength ((c :: cs ++ [' ']).take n),
          (c :: cs ++ [' ']).drop n ++ 'x' :: b⟩) := by
  refine ⟨⟨(Reading.first c (cs ++ ' ' :: 'x' :: a)).lexeme,
    ⟨offset, offset + Text.byteLength ((c :: cs ++ [' ']).take n)⟩⟩, rfl, fun b => ?_⟩
  have hsplit : c :: (cs ++ ' ' :: 'x' :: b) = c :: cs ++ [' '] ++ 'x' :: b := by simp
  have hlength : n ≤ (c :: cs ++ [' ']).length := by simpa using hle
  rw [read, Reading.first_settled b (hn ▸ hle), hn, advance, hsplit]
  dsimp only
  rw [List.take_append_of_le_length hlength, List.drop_append_of_le_length hlength]

/-- A token that does not end before the word ends behind where it starts. -/
theorem lt_offset_read (offset : Nat) {c : Char}
    (h : cs.length + 2 < (Reading.first c (cs ++ ' ' :: 'x' :: a)).length) :
    offset + Text.byteLength (c :: cs) + 1 < (read offset c (cs ++ ' ' :: 'x' :: a)).2.offset := by
  obtain ⟨m, hm⟩ := Nat.exists_eq_add_of_lt h
  have hsplit : c :: (cs ++ ' ' :: 'x' :: a) = c :: cs ++ [' ', 'x'] ++ a := by simp
  have hlength : (Reading.first c (cs ++ ' ' :: 'x' :: a)).length
      = (c :: cs ++ [' ', 'x']).length + m := by
    rw [hm]
    simp only [List.length_append, List.length_cons, List.length_nil]
    omega
  show _ < offset + Text.byteLength ((c :: (cs ++ ' ' :: 'x' :: a)).take _)
  rw [hlength, hsplit, List.take_length_add_append, Text.byteLength_append, Text.byteLength_append]
  have hword : Text.byteLength [' ', 'x'] = 2 := rfl
  omega

/-- **A text is split before the word**: its tokens are those of the part before, which are
the same whatever comes after the word, and those from the word on. -/
def Splits (offset : Nat) (cs : List Char) : Prop :=
  ∃ before : List Token, (∀ t ∈ before, t.span.start < offset + Text.byteLength cs + 1)
    ∧ ∀ b, tokens true ⟨offset, cs ++ ' ' :: 'x' :: b⟩
      = before ++ tokens true ⟨offset + Text.byteLength cs + 1, 'x' :: b⟩

variable {offset : Nat} {c : Char}

theorem Splits.nil (offset : Nat) : Splits offset [] := by
  refine ⟨[], by simp, fun b => ?_⟩
  rw [List.nil_append, tokens_blank true offset (by decide)]
  rfl

theorem Splits.blank (hblank : Text.isBlank c = true)
    (h : Splits (offset + Text.byteLength [c]) cs) : Splits offset (c :: cs) := by
  obtain ⟨before, hbefore, hsplit⟩ := h
  have hbytes : offset + Text.byteLength (c :: cs)
      = offset + Text.byteLength [c] + Text.byteLength cs := (Nat.add_assoc ..).symm
  refine ⟨before, hbytes ▸ hbefore, fun b => ?_⟩
  rw [List.cons_append, tokens_blank true offset hblank, hsplit, hbytes]

/-- What follows the first characters of a text stands behind their bytes. -/
theorem add_byteLength_drop (offset n : Nat) (cs : List Char) :
    offset + Text.byteLength (cs.take n) + Text.byteLength (cs.drop n)
      = offset + Text.byteLength cs := by
  rw [Nat.add_assoc, ← Text.byteLength_append, List.take_append_drop]

/-- A token comes first, and then a text that is split. -/
theorem Splits.token {n : Nat} (hblank : Text.isBlank c = false)
    (hn : (Reading.first c (cs ++ ' ' :: 'x' :: a)).length = n) (hle : n ≤ cs.length + 1)
    (h : Splits (offset + Text.byteLength ((c :: cs).take n)) ((c :: cs).drop n)) :
    Splits offset (c :: cs) := by
  obtain ⟨before, hbefore, hsplit⟩ := h
  obtain ⟨t, hstart, hread⟩ := read_settled offset hn (Nat.le_succ_of_le hle)
  rw [add_byteLength_drop] at hbefore hsplit
  refine ⟨t :: before, List.forall_mem_cons.2 ⟨?_, hbefore⟩, fun b => ?_⟩
  · rw [hstart]
    omega
  · rw [List.cons_append, tokens_read offset hblank, hread, List.take_append_of_le_length hle,
      List.drop_append_of_le_length hle, List.append_assoc, List.singleton_append, hsplit]
    rfl

/-- A token comes first that takes the blank. -/
theorem Splits.last (hblank : Text.isBlank c = false)
    (hn : (Reading.first c (cs ++ ' ' :: 'x' :: a)).length = cs.length + 2) :
    Splits offset (c :: cs) := by
  obtain ⟨t, hstart, hread⟩ := read_settled offset hn (Nat.le_refl _)
  have hlength : cs.length + 2 = (c :: cs ++ [' ']).length := by simp
  refine ⟨[t], List.forall_mem_singleton.2 ?_, fun b => ?_⟩
  · rw [hstart]
    omega
  · rw [List.cons_append, tokens_read offset hblank, hread, hlength, List.take_length,
      List.drop_length, Text.byteLength_append]
    rfl

/-- **A text is split before the word if a token starts there.** By induction on what is
left of it, one token at a time. -/
theorem splits_of_token (h : ∃ t ∈ tokens true ⟨offset, cs ++ ' ' :: 'x' :: a⟩,
    t.isEnd = false ∧ t.span.start = offset + Text.byteLength cs + 1) : Splits offset cs := by
  induction hlength : cs.length using Nat.strong_induction_on generalizing cs offset with
  | _ n ih =>
    subst hlength
    obtain ⟨t, ht, hend, hstart⟩ := h
    cases cs with
    | nil => exact .nil offset
    | cons c cs =>
      cases hblank : Text.isBlank c with
      | true =>
        rw [List.cons_append, tokens_blank true offset hblank] at ht
        refine .blank hblank (ih _ (Nat.lt_succ_self _) ⟨t, ht, hend, ?_⟩ rfl)
        simp only [hstart, Text.byteLength_cons, Text.byteLength_nil]
        omega
      | false =>
        rw [List.cons_append, tokens_read offset hblank] at ht
        rcases List.mem_cons.1 ht with rfl | ht
        · -- the first token starts before
          have hfirst : (read offset c (cs ++ ' ' :: 'x' :: a)).1.span.start = offset := rfl
          omega
        have hafter := ((tokens_inOrder true _).mem (List.mem_filter.2 ⟨ht, by rw [hend]; rfl⟩)).1
        rcases Nat.lt_trichotomy (Reading.first c (cs ++ ' ' :: 'x' :: a)).length (cs.length + 2)
          with hlt | heq | hgt
        · obtain ⟨u, -, hread⟩ := read_settled offset (a := a) rfl (Nat.le_of_lt hlt)
          have hpos := Reading.length_first_pos c (cs ++ ' ' :: 'x' :: a)
          have hle : (Reading.first c (cs ++ ' ' :: 'x' :: a)).length ≤ (c :: cs).length :=
            Nat.le_of_lt_succ hlt
          rw [hread, List.take_append_of_le_length hle, List.drop_append_of_le_length hle,
            List.append_assoc] at ht
          refine .token hblank rfl hle (ih _ ?_ ⟨t, ht, hend, ?_⟩ rfl)
          · rw [List.length_drop]
            simp only [List.length_cons]
            omega
          · rw [hstart, add_byteLength_drop]
        · exact .last hblank heq
        · have hlong := lt_offset_read offset hgt
          omega

end Cursor

/-- The tokens that start before an offset are the first ones. -/
theorem Token.filter_start_append {before after : List Token} {offset : Nat}
    (hbefore : ∀ t ∈ before, t.span.start < offset) (hafter : ∀ t ∈ after, offset ≤ t.span.start) :
    (before ++ after).filter (·.span.start < offset) = before := by
  have hfirst : before.filter (·.span.start < offset) = before :=
    List.filter_eq_self.2 fun t ht => decide_eq_true (hbefore t ht)
  have hlast : after.filter (·.span.start < offset) = [] :=
    List.filter_eq_nil_iff.2 fun t ht => by simpa using hafter t ht
  rw [List.filter_append, hfirst, hlast, List.append_nil]

/-- **What a text says before a word** does not depend on what comes after the word, if a
token starts where the word does. The tokens that start before say it. -/
theorem lexemesOf_settled (b : List Char) (h : ∃ t ∈ Parser.tokensOf (cs ++ ' ' :: 'x' :: a),
    t.span.start = Text.byteLength cs + 1) :
    lexemesOf (cs ++ ' ' :: 'x' :: b)
      = ((Parser.tokensOf (cs ++ ' ' :: 'x' :: a)).filter
          (·.span.start < Text.byteLength cs + 1)).map (·.lexeme) ++ lexemesOf ('x' :: b) := by
  have hend : ∀ t : Token, t.lexeme.isProper = true → t.isEnd = false := by
    intro t ht
    rw [Lexeme.isProper, Bool.and_eq_true, bne_iff_ne] at ht
    exact decide_eq_false ht.2
  obtain ⟨t, ht, hstart⟩ := h
  rw [Parser.tokensOf_eq] at ht ⊢
  obtain ⟨htoken, hproper⟩ := List.mem_filter.1 ht
  obtain ⟨before, hbefore, hsplit⟩ := Cursor.splits_of_token
    ⟨t, htoken, hend t hproper, by rw [hstart, Nat.zero_add]⟩
  rw [Nat.zero_add] at hbefore hsplit
  -- no token of the rest starts before the word
  have hafter : ∀ t ∈ (Cursor.tokens true ⟨Text.byteLength cs + 1, 'x' :: a⟩).filter
      (·.lexeme.isProper), Text.byteLength cs + 1 ≤ t.span.start := by
    intro t ht
    obtain ⟨hmem, hproper⟩ := List.mem_filter.1 ht
    refine ((Cursor.tokens_inOrder true _).mem (List.mem_filter.2 ⟨hmem, ?_⟩)).1
    rw [hend t hproper]
    rfl
  have hfilter : ((Cursor.tokens true ⟨0, cs ++ ' ' :: 'x' :: a⟩).filter
      (·.lexeme.isProper)).filter (·.span.start < Text.byteLength cs + 1)
        = before.filter (·.lexeme.isProper) := by
    rw [hsplit, List.filter_append]
    exact Token.filter_start_append (fun t ht => hbefore t (List.mem_filter.1 ht).1) hafter
  rw [hfilter, lexemesOf_eq 0, hsplit, List.map_append, List.filter_append, ← lexemesOf_eq,
    List.filter_map]
  rfl

end ScriptLens
