import ScriptLens.Proofs.TokenLayout

/-!
# Lines and marks in a text

A line of a text and a mark in it are found by looking at characters, a token by reading the
text from its start. Both are places in one text, so what a token says of its place can be
compared with what stands on the line: a text that is cut in two ways is cut in three
(`Text.exists_middle`). This is how a `>` token tells that there is a `>` on a line
(`Token.greater_mem`). The converse is not true, since a `>` can be a part of a longer token
or of a comment.
-/

namespace ScriptLens

namespace Text

variable {xs ys zs ws : List Char} {offset stop : Nat}

/-! ## Two cuts of a text -/

/-- Of two cuts of a text, what lies between the earlier and the later one. -/
theorem exists_middle (h : xs ++ ys = zs ++ ws) (hle : byteLength xs ≤ byteLength zs) :
    ∃ mid, zs = xs ++ mid ∧ ys = mid ++ ws := by
  rcases List.append_eq_append_iff.1 h with ⟨mid, hzs, hys⟩ | ⟨mid, hxs, hws⟩
  · exact ⟨mid, hzs, hys⟩
  · rw [hxs, byteLength_append] at hle
    obtain rfl : mid = [] := byteLength_eq_zero_iff.1 (by omega)
    exact ⟨[], by rw [hxs, List.append_nil, List.append_nil], hws.symm⟩

/-- Two cuts of a text at one offset are the same. -/
theorem append_inj (h : xs ++ ys = zs ++ ws) (heq : byteLength xs = byteLength zs) :
    xs = zs ∧ ys = ws := by
  obtain ⟨mid, rfl, rfl⟩ := exists_middle h (Nat.le_of_eq heq)
  rw [byteLength_append, Nat.left_eq_add, byteLength_eq_zero_iff] at heq
  rw [heq, List.append_nil, List.nil_append]
  exact ⟨rfl, rfl⟩

theorem slice_append (xs ys zs : List Char) :
    slice (byteLength xs) (byteLength xs + byteLength ys) (xs ++ (ys ++ zs)) = ys := by
  rw [slice, slice?_append]
  rfl

theorem slice_of_le {start : Nat} (h : stop ≤ start) (cs : List Char) :
    slice start stop cs = [] := by
  rw [slice, slice?, Nat.sub_eq_zero_of_le h]
  split
  · cases dropBytes start cs with
    | none => rfl
    | some rest =>
      rw [Option.bind_some, takeBytes]
      rfl
  · rfl

/-! ## The line behind an offset -/

/-- The rest of the line behind an offset. -/
def restOfLine (offset : Nat) (text : List Char) : List Char :=
  ((dropBytes offset text).getD []).takeWhile (· ≠ '\n')

/-- A text up to an offset, the rest of the line there, and what follows. -/
theorem exists_restOfLine {text : List Char} (h : IsBoundary text offset) :
    ∃ before more, text = before ++ (restOfLine offset text ++ more)
      ∧ byteLength before = offset := by
  obtain ⟨before, tail, rfl, rfl⟩ := h
  refine ⟨before, tail.dropWhile (· ≠ '\n'), ?_, rfl⟩
  rw [restOfLine, dropBytes_append, Option.getD_some, List.takeWhile_append_dropWhile]

/-- White space at the end of a text is trimmed with it. -/
theorem trim_append (hwhite : ∀ c ∈ ys, isWhiteSpace c = true) : trim (xs ++ ys) = trim xs := by
  rw [trim, trim, List.dropWhile_append]
  split
  · next hempty =>
    rw [List.isEmpty_iff.1 hempty, List.dropWhile_eq_nil_iff.2 hwhite]
  · have hback : ∀ c ∈ ys.reverse, isWhiteSpace c = true := by simpa using hwhite
    rw [List.reverse_append, List.dropWhile_append_of_pos hback]

/-- A text that is cut out from an offset on, and has nothing but white space behind the
line, is a part of the line when it is trimmed. -/
theorem exists_trim_slice_eq {text : List Char} (h : IsBoundary text offset)
    (hstop : IsBoundary text stop) (hle : offset ≤ stop)
    (hwhite : ∀ c ∈ slice (offset + byteLength (restOfLine offset text)) stop text,
      isWhiteSpace c = true) :
    ∃ part, part <+: restOfLine offset text ∧ trim (slice offset stop text) = trim part := by
  obtain ⟨before, more, htext, rfl⟩ := exists_restOfLine h
  generalize restOfLine (byteLength before) text = line at htext hwhite ⊢
  subst htext
  obtain ⟨front, back, hfront, rfl⟩ := hstop
  obtain ⟨part, rfl, htail⟩ := exists_middle hfront hle
  rw [byteLength_append] at hwhite ⊢
  have hslice : slice (byteLength before) (byteLength before + byteLength part)
      (before ++ (line ++ more)) = part := by
    rw [htail, slice_append]
  rw [hslice]
  by_cases hpart : byteLength part ≤ byteLength line
  · obtain ⟨rest, hline, -⟩ := exists_middle htail.symm hpart
    exact ⟨part, hline ▸ List.prefix_append _ _, rfl⟩
  · -- what is cut out goes on behind the line
    obtain ⟨white, rfl, rfl⟩ := exists_middle htail (Nat.le_of_not_le hpart)
    have hbehind := slice_append (before ++ line) white back
    rw [byteLength_append, List.append_assoc] at hbehind
    rw [byteLength_append, ← Nat.add_assoc, hbehind] at hwhite
    exact ⟨line, List.prefix_refl _, trim_append hwhite⟩

/-- What begins the rest of the line is cut out again. -/
theorem slice_of_prefix {text part : List Char} (h : IsBoundary text offset)
    (hpart : part <+: restOfLine offset text) :
    slice offset (offset + byteLength part) text = part := by
  obtain ⟨before, more, htext, rfl⟩ := exists_restOfLine h
  obtain ⟨rest, hline⟩ := hpart
  rw [← hline, List.append_assoc] at htext
  conv_lhs => rw [htext, slice_append]

theorem lineEnd_eq {text : List Char} (h : IsBoundary text offset) :
    Parser.lineEnd (.ofText text) offset = offset + byteLength (restOfLine offset text) := by
  obtain ⟨before, tail, rfl, rfl⟩ := h
  rw [Parser.lineEnd, restOfLine, Parser.Setting.ofText, dropBytes_append]
  rfl

theorem newline_notMem_restOfLine (offset : Nat) (text : List Char) :
    '\n' ∉ restOfLine offset text := by
  intro hmem
  simpa using List.mem_takeWhile_imp hmem

theorem mem_of_mem_trim {c : Char} (h : c ∈ trim xs) : c ∈ xs := by
  rw [trim, List.mem_reverse] at h
  have hfront := List.dropWhile_subset _ h
  exact List.dropWhile_subset _ (List.mem_reverse.1 hfront)

end Text

/-! ## Where punctuation stands -/

/-- Whether a lexeme is a word: a keyword, an integer or an identifier. A stray character is
none. -/
def Lexeme.isWord : Lexeme → Bool
  | identifier _ | integer _ | keyword _ => true
  | _ => false

namespace Reading

theorem wordLexeme_ne (word : List Char) (p : Punctuation) : wordLexeme word ≠ .punctuation p := by
  unfold wordLexeme
  split
  · nofun
  · split <;> nofun

/-- **What reads punctuation and words.** Either is read by its own form, and what any other
form reads is neither. -/
theorem first_cases (c : Char) (cs : List Char) :
    punctuation? (c :: cs) = some (first c cs) ∨ word? (c :: cs) = some (first c cs)
      ∨ ((first c cs).lexeme.isWord = false ∧ ∀ p, (first c cs).lexeme ≠ .punctuation p) := by
  unfold first
  cases hforms : (docString? (c :: cs) <|> blockComment? (c :: cs) <|> lineComment? (c :: cs)
      <|> string? (c :: cs) <|> character? (c :: cs) <|> symbol? (c :: cs)
      <|> punctuation? (c :: cs) <|> word? (c :: cs)) with
  | none => exact .inr (.inr ⟨rfl, nofun⟩)
  | some r =>
    show punctuation? (c :: cs) = some r ∨ word? (c :: cs) = some r
      ∨ (r.lexeme.isWord = false ∧ ∀ p, r.lexeme ≠ .punctuation p)
    simp only [Option.orElse_eq_orElse, Option.orElse_eq_or, Option.or_eq_some_iff] at hforms
    rcases hforms with h | ⟨-, h | ⟨-, h | ⟨-, h | ⟨-, h | ⟨-, h | ⟨-, h | ⟨-, h⟩⟩⟩⟩⟩⟩⟩
    · unfold docString? at h
      split at h <;> cases h
      exact .inr (.inr ⟨rfl, nofun⟩)
    · obtain ⟨_, _, hlexeme⟩ := lexeme_blockComment? h
      rw [hlexeme]
      exact .inr (.inr ⟨rfl, nofun⟩)
    · obtain ⟨_, -, rfl⟩ := lineComment?_eq_some h
      exact .inr (.inr ⟨rfl, nofun⟩)
    · unfold string? at h
      split at h <;> cases h
      exact .inr (.inr ⟨rfl, nofun⟩)
    · unfold character? at h
      split at h <;> cases h
      exact .inr (.inr ⟨rfl, nofun⟩)
    · unfold symbol? at h
      split at h <;> cases h <;> exact .inr (.inr ⟨rfl, nofun⟩)
    · exact .inl h
    · exact .inr (.inl h)

/-- Only the form for punctuation reads it. -/
theorem punctuation?_of_first {c : Char} {cs : List Char} {p : Punctuation}
    (h : (first c cs).lexeme = .punctuation p) :
    punctuation? (c :: cs) = some (first c cs) := by
  rcases first_cases c cs with hmark | hword | ⟨-, hother⟩
  · exact hmark
  · dsimp only [word?] at hword
    split at hword
    · cases hword
    · rw [← Option.some.inj hword] at h
      exact absurd h (wordLexeme_ne _ p)
  · exact absurd h (hother p)

/-- Only the form for words reads one. -/
theorem word?_of_first {c : Char} {cs : List Char} (h : (first c cs).lexeme.isWord = true) :
    word? (c :: cs) = some (first c cs) := by
  rcases first_cases c cs with hmark | hword | ⟨hother, -⟩
  · obtain ⟨p, -, hreading⟩ := Option.map_eq_some_iff.1 hmark
    rw [← hreading] at h
    cases h
  · exact hword
  · rw [hother] at h
    cases h

/-- Punctuation is read where it is spelled. -/
theorem spelling_prefix_of_first {c : Char} {cs : List Char} {p : Punctuation}
    (h : (first c cs).lexeme = .punctuation p) : p.spelling <+: c :: cs := by
  obtain ⟨q, hlongest, hreading⟩ := Option.map_eq_some_iff.1 (punctuation?_of_first h)
  rw [← hreading] at h
  obtain rfl : q = p := Lexeme.punctuation.inj h
  have hmark := List.find?_some hlongest
  rwa [List.isPrefixOf_iff_prefix] at hmark

end Reading

theorem Lexeme.kind_eq_punctuation {l : Lexeme} {p : Punctuation}
    (h : l.kind = .punctuation p) : l = .punctuation p := by
  cases l <;> cases h
  rfl

namespace Token

variable {source : List Char} {t : Token}

/-- A token is read where it starts, at a character that is no blank. -/
theorem exists_first (ht : t ∈ Parser.tokensOf source) :
    ∃ before char rest, source = before ++ char :: rest ∧ Text.isBlank char = false
      ∧ t = (Cursor.read (Text.byteLength before) char rest).1 := by
  obtain ⟨hscan, hend⟩ := List.mem_filter.1 ht
  have hlaid := Cursor.tokens_laidOut false (Cursor.atStart source)
  obtain ⟨offset, char, rest, ⟨before, hsource, rfl⟩, hblank, -, hread⟩ :=
    hlaid.exists_read (Cursor.atStart_in source) hscan (by simpa using hend)
  exact ⟨before, char, rest, hsource, hblank, hread⟩

/-- A token of punctuation is spelled in the text where it starts. -/
theorem exists_spelling {p : Punctuation} (ht : t ∈ Parser.tokensOf source)
    (hkind : t.kind = .punctuation p) :
    ∃ before after, source = before ++ (p.spelling ++ after)
      ∧ Text.byteLength before = t.span.start := by
  obtain ⟨before, char, rest, hsource, -, rfl⟩ := exists_first ht
  have hlexeme : (Reading.first char rest).lexeme = .punctuation p :=
    Lexeme.kind_eq_punctuation hkind
  obtain ⟨after, hafter⟩ := Reading.spelling_prefix_of_first hlexeme
  exact ⟨before, after, by rw [hafter, hsource], rfl⟩

/-- A token starts and ends between characters. -/
theorem isBoundary (ht : t ∈ Parser.tokensOf source) :
    Text.IsBoundary source t.span.start ∧ Text.IsBoundary source t.span.stop := by
  obtain ⟨hscan, hend⟩ := List.mem_filter.1 ht
  obtain ⟨part, after, hcuts, -⟩ := exists_cuts_of_mem_scan hscan (by simpa using hend)
  exact hcuts.isBoundary

/-- A part of a text in which a `>` token starts has a `>`. -/
theorem greater_mem {before part more : List Char} (hsource : source = before ++ (part ++ more))
    (ht : t ∈ Parser.tokensOf source) (hkind : t.kind = .punctuation .greater)
    (hlow : Text.byteLength before ≤ t.span.start)
    (hup : t.span.start < Text.byteLength before + Text.byteLength part) : '>' ∈ part := by
  obtain ⟨front, back, hfront, hstart⟩ := exists_spelling ht hkind
  rw [← hstart] at hlow hup
  obtain ⟨mid, rfl, htail⟩ := Text.exists_middle (hsource.symm.trans hfront) hlow
  have hmark : Text.byteLength (mid ++ ['>']) ≤ Text.byteLength part := by
    have hone : '>'.utf8Size = 1 := rfl
    rw [Text.byteLength_append] at hup ⊢
    simp only [Text.byteLength_cons, Text.byteLength_nil, hone]
    omega
  have hcut : (mid ++ ['>']) ++ back = part ++ more := by
    rw [htail, List.append_assoc]
    rfl
  obtain ⟨rest, rfl, -⟩ := Text.exists_middle hcut hmark
  simp

end Token

end ScriptLens
