import ScriptLens.Proofs.Lexemes

/-!
# How far a lexeme looks behind itself

A lexeme depends on what it covers and on the one character behind it. Words and punctuation
look at this character to know that they end, and a slash to know that no comment starts. What
comes later has no say, although the rules for some forms speak of more: a documentation
string is told from a comment by a third character, and punctuation of three characters
competes with one of a single character. The third character of a mark never decides alone,
because the first two are a mark themselves, and so are the first characters of any
punctuation (`Punctuation.exists_of_prefix`). Literals and block comments end with a mark of
their own and look at nothing, unless they are open; then nothing stands behind them.

Neither does it matter whether that character is a blank or the slash of a comment. No word
and no punctuation goes on with either (`Alike`).

Line comments are left out. Before a return they look for a line feed, which is a second
character.
-/

namespace ScriptLens

variable {cs a b : List Char}

/-- **Two texts are alike in front**: they start with the same character, or are both empty,
or the second has a blank where the first has a slash. -/
def Alike (a b : List Char) : Prop :=
  a.head? = b.head? ∨ (a.head? = some '/' ∧ b.head? = some ' ')

namespace Alike

theorem refl (a : List Char) : Alike a a := .inl rfl

theorem eq_nil (h : Alike [] b) : b = [] := by
  rcases h with h | ⟨h, -⟩
  · exact List.head?_eq_none_iff.1 h.symm
  · cases h

/-- What the second text starts with, the first does, unless it is a blank. -/
theorem head {c : Char} (h : Alike a b) (hc : c ∈ b.head?) : c ∈ a.head? ∨ c = ' ' := by
  rcases h with h | ⟨-, h⟩
  · exact .inl (h ▸ hc)
  · exact .inr (Option.some.inj (hc.symm.trans h))

/-- A mark that goes at most one character into the second text is in the first one too. -/
theorem prefix_of_prefix {mark : List Char} (h : Alike a b) (hmark : ' ' ∉ mark)
    (hle : mark.length ≤ cs.length + 1) (hbegins : mark <+: cs ++ b) : mark <+: cs ++ a := by
  by_cases hshort : mark.length ≤ cs.length
  · exact (List.prefix_of_prefix_length_le hbegins (List.prefix_append ..) hshort).trans
      (List.prefix_append ..)
  · obtain ⟨more, rfl⟩ : cs <+: mark :=
      List.prefix_of_prefix_length_le (List.prefix_append ..) hbegins (by omega)
    rw [List.prefix_append_right_inj] at hbegins ⊢
    obtain ⟨d, rfl⟩ : ∃ d, more = [d] := List.length_eq_one_iff.1 (by
      rw [List.length_append] at hle hshort
      omega)
    obtain ⟨tail, rfl⟩ := hbegins
    rcases h.head rfl with hd | rfl
    · obtain ⟨rest, rfl⟩ := List.head?_eq_some_iff.1 hd
      exact ⟨rest, rfl⟩
    · exact absurd (by simp) hmark

end Alike

/-! ## Quoted literals -/

namespace Quoted

theorem taken_le (letter : Char) (cs : List Char) : (readEscape letter cs).2 ≤ cs.length := by
  unfold readEscape
  split
  · rcases cs with _ | ⟨c, _ | ⟨d, cs⟩⟩
    · exact Nat.le_refl _
    · cases hc : hexValue? c <;> simp [hc]
    · cases hc : hexValue? c <;> cases hd : hexValue? d <;> simp [hc, hd]
  · exact Nat.zero_le _

/-- Content without a closing quote takes all of the text. -/
theorem length_of_open {quote : Char} (h : (read quote cs).closed = false) :
    (read quote cs).length = cs.length := by
  fun_induction read quote cs with
  | case1 => rfl
  | case2 => cases h
  | case3 => rfl
  | case4 letter cs value taken hescape _ ih =>
    have hle : taken ≤ cs.length := by
      have hle := taken_le letter cs
      rwa [hescape] at hle
    rw [Content.length_push, ih h, List.length_drop]
    simp only [List.length_cons]
    omega
  | case5 c cs _ _ ih =>
    rw [Content.length_push, ih h, Nat.add_comm]
    rfl

/-- An escape does not look behind the character after what it takes. -/
theorem readEscape_append {letter : Char} (h : (readEscape letter cs).2 < cs.length) :
    readEscape letter (cs ++ a) = readEscape letter cs := by
  unfold readEscape at h ⊢
  by_cases hx : letter = 'x'
  swap
  · rw [if_neg hx, if_neg hx]
  rw [if_pos hx] at h ⊢
  rw [if_pos hx]
  rcases cs with _ | ⟨c, _ | ⟨d, cs⟩⟩
  · cases h
  · -- a digit would be taken, and then no character is left
    cases hc : hexValue? c with
    | none => simp [hc]
    | some high => simp [hc] at h
  · rfl

/-- What follows a closing quote does not matter. -/
theorem read_append {quote : Char} (h : (read quote cs).closed = true) :
    read quote (cs ++ a) = read quote cs := by
  fun_induction read quote cs with
  | case1 => cases h
  | case2 cs =>
    rw [List.cons_append, read.eq_def]
    exact if_pos rfl
  | case3 => cases h
  | case4 letter cs value taken hescape hquote ih =>
    have hshort : taken < cs.length := by
      refine Nat.lt_of_not_le fun hle => ?_
      rw [List.drop_eq_nil_of_le hle, read] at h
      cases h
    have hagain : readEscape letter (cs ++ a) = (value, taken) := by
      rw [readEscape_append (by rw [hescape]; exact hshort), hescape]
    rw [List.cons_append, List.cons_append, read, if_neg hquote, if_pos rfl]
    simp only [hagain]
    rw [List.drop_append_of_le_length (Nat.le_of_lt hshort), ih h]
  | case5 c cs hquote hescape ih =>
    rw [List.cons_append, read.eq_def]
    dsimp only
    rw [if_neg hquote, if_neg hescape, ih h]

/-- **Quoted content that ends before a place** does not depend on what follows there. -/
theorem read_settled {quote : Char} (h : (read quote (cs ++ a)).length ≤ cs.length) (ha : a ≠ []) :
    read quote (cs ++ b) = read quote (cs ++ a) := by
  have hclosed : (read quote (cs ++ a)).closed = true := by
    refine Bool.eq_true_of_not_eq_false fun hopen => ?_
    rw [length_of_open hopen, List.length_append] at h
    exact ha (List.length_eq_zero_iff.1 (by omega))
  have hcut := read_take quote (cs ++ a)
  rw [List.take_append_of_le_length h] at hcut
  generalize (read quote (cs ++ a)).length = n at hcut
  rw [← hcut] at hclosed ⊢
  rw [← read_append (a := cs.drop n ++ b) hclosed, ← List.append_assoc, List.take_append_drop]

end Quoted

/-! ## Punctuation -/

namespace Punctuation

/-- What punctuation begins with is punctuation. -/
theorem exists_of_prefix {p : Punctuation} {part : List Char} (hpart : part ≠ [])
    (h : part <+: p.spelling) : ∃ q : Punctuation, q.spelling = part := by
  have hall : ∀ p : Punctuation, ∀ part ∈ p.spelling.inits,
      part = [] ∨ ∃ q ∈ longestFirst, q.spelling = part := by
    intro p
    cases p <;> decide
  rcases hall p part ((List.mem_inits _ _).2 h) with hnil | ⟨q, -, hq⟩
  · exact absurd hnil hpart
  · exact ⟨q, hq⟩

/-- Punctuation that is found in front of a text does not go on there. -/
theorem continues_of_longest? {p : Punctuation} (h : longest? (p.spelling ++ a) = some p)
    {c : Char} (hc : c ∈ a.head?) : p.continues c = false := by
  rw [continues, List.any_eq_false]
  intro q _ hbegins
  obtain ⟨longer, hlonger⟩ := exists_of_prefix (by simp) (List.isPrefixOf_iff_prefix.1 hbegins)
  obtain ⟨rest, rfl⟩ := List.head?_eq_some_iff.1 hc
  have hlength := length_le_of_longest? (p := longer) (by simp [hlonger]) h
  simp [hlonger] at hlength

theorem continues_blank (p : Punctuation) : p.continues ' ' = false := by
  rw [continues, List.any_eq_false]
  intro q _ hbegins
  exact blank_notMem_spelling q ((List.isPrefixOf_iff_prefix.1 hbegins).subset (by simp))

end Punctuation

namespace Reading

/-! ## Forms that look at one character -/

/-- **A form looks at most at the character behind what it covers.** Other text that is alike
behind some characters does not make it appear there, and if it covers just these characters
it stays as it is, unless it is a line comment. -/
structure LooksAhead (form : List Char → Option Reading) : Prop where
  absent : ∀ {cs a b : List Char}, cs ≠ [] → Alike a b → form (cs ++ a) = none →
    form (cs ++ b) = none
  again : ∀ {cs a b : List Char} {r : Reading}, cs ≠ [] → Alike a b → form (cs ++ a) = some r →
    r.lexeme.kind ≠ .lineComment → r.length = cs.length → form (cs ++ b) = some r

/-- Of two forms the second is read only where the first does not appear. -/
theorem LooksAhead.orElse {f g : List Char → Option Reading} (hf : LooksAhead f)
    (hg : LooksAhead g) : LooksAhead fun cs => f cs <|> g cs where
  absent hne halike h := by
    simp only [Option.orElse_eq_orElse, Option.orElse_eq_or, Option.or_eq_none_iff] at h ⊢
    exact ⟨hf.absent hne halike h.1, hg.absent hne halike h.2⟩
  again hne halike h hline hlength := by
    simp only [Option.orElse_eq_orElse, Option.orElse_eq_or, Option.or_eq_some_iff] at h ⊢
    rcases h with h | ⟨hnone, h⟩
    · exact .inl (hf.again hne halike h hline hlength)
    · exact .inr ⟨hf.absent hne halike hnone, hg.again hne halike h hline hlength⟩

/-- A form that marks of at most two characters open does not appear. -/
theorem absent_of_short_marks {form : List Char → Option Reading} (marks : Set (List Char))
    (hform : ∀ cs, form cs = none ↔ ∀ mark ∈ marks, ¬ mark <+: cs)
    (hshort : ∀ mark ∈ marks, mark.length ≤ 2 ∧ ' ' ∉ mark) (hne : cs ≠ []) (halike : Alike a b)
    (h : form (cs ++ a) = none) : form (cs ++ b) = none := by
  rw [hform] at h ⊢
  intro mark hmark hbegins
  obtain ⟨hlength, hblank⟩ := hshort mark hmark
  have hpos := List.length_pos_iff.2 hne
  exact h mark hmark (halike.prefix_of_prefix hblank (by omega) hbegins)

/-- **A form that a mark opens** stays as it is if what it reads behind the mark does. That
much is clear if nothing stands behind what is covered. -/
theorem again_of_mark {form : List Char → Option Reading} (mark : List Char)
    (inside : List Char → Reading)
    (hform : ∀ content, form (mark ++ content) = some (inside content))
    (hother : ∀ cs, ¬ mark <+: cs → form cs = none)
    (hmark : ∀ content, mark.length ≤ (inside content).length)
    (hinside : ∀ {content a b : List Char}, a ≠ [] → Alike a b →
      (inside (content ++ a)).length = mark.length + content.length →
        inside (content ++ b) = inside (content ++ a))
    {r : Reading} (halike : Alike a b) (h : form (cs ++ a) = some r)
    (hlength : r.length = cs.length) : form (cs ++ b) = some r := by
  by_cases ha : a = []
  · subst ha
    rwa [halike.eq_nil]
  by_cases hbegins : mark <+: cs ++ a
  · obtain ⟨content, hcontent⟩ := id hbegins
    rw [← hcontent, hform] at h
    obtain rfl := Option.some.inj h
    obtain ⟨content, rfl⟩ : mark <+: cs :=
      List.prefix_of_prefix_length_le hbegins (List.prefix_append ..) (hlength ▸ hmark _)
    rw [List.append_assoc, List.append_cancel_left_eq] at hcontent
    subst hcontent
    rw [List.append_assoc, hform, hinside ha halike (hlength.trans List.length_append)]
  · rw [hother _ hbegins] at h
    cases h

/-- A form that a mark of at most two characters opens. -/
theorem LooksAhead.of_mark {form : List Char → Option Reading} (mark : List Char)
    (hshort : mark.length ≤ 2 ∧ ' ' ∉ mark) (inside : List Char → Reading)
    (hform : ∀ content, form (mark ++ content) = some (inside content))
    (hother : ∀ cs, ¬ mark <+: cs → form cs = none)
    (hmark : ∀ content, mark.length ≤ (inside content).length)
    (hinside : ∀ {content a b : List Char}, a ≠ [] → Alike a b →
      (inside (content ++ a)).length = mark.length + content.length →
        inside (content ++ b) = inside (content ++ a)) : LooksAhead form where
  absent := absent_of_short_marks {mark} (fun cs => by
    refine ⟨?_, fun hnot => hother cs (hnot mark rfl)⟩
    rintro hnone _ rfl ⟨content, rfl⟩
    rw [hform] at hnone
    cases hnone) (by simpa using hshort)
  again _ halike h _ hlength :=
    again_of_mark mark inside hform hother hmark hinside halike h hlength

/-! ## Documentation strings and comments -/

theorem before?_append {mark inner : List Char} (hmark : mark ≠ [])
    (h : before? mark cs = some inner) : before? mark (cs ++ a) = some inner := by
  fun_induction before? mark cs generalizing inner with
  | case1 hpre => exact absurd (List.prefix_nil.1 (List.isPrefixOf_iff_prefix.1 hpre)) hmark
  | case2 => cases h
  | case3 c cs hpre =>
    rw [List.cons_append, before?, if_pos, h]
    rw [List.isPrefixOf_iff_prefix] at hpre ⊢
    exact hpre.trans (List.prefix_append (c :: cs) a)
  | case4 c cs hpre ih =>
    obtain ⟨inner, hinner, rfl⟩ := Option.map_eq_some_iff.1 h
    obtain ⟨rest, hcs, -⟩ := before?_eq_some hmark hinner
    have hnot : ¬ mark.isPrefixOf (c :: (cs ++ a)) = true := by
      rw [List.isPrefixOf_iff_prefix] at hpre ⊢
      intro hbegins
      refine hpre (List.prefix_of_prefix_length_le hbegins (List.prefix_append (c :: cs) a) ?_)
      rw [hcs]
      simp only [List.length_cons, List.length_append]
      omega
    rw [List.cons_append, before?, if_neg hnot, ih hinner]
    rfl

theorem between_eq (opening closing content : List Char) :
    between opening closing (opening ++ content) = match before? closing content with
      | some inner => (String.ofList inner, opening.length + inner.length + closing.length, true)
      | none => (String.ofList content, opening.length + content.length, false) := by
  cases hclosing : before? closing content with
  | none => simp [between, hclosing]
  | some inner => simp [between, hclosing]

/-- **Text between marks that ends before a place** does not depend on what follows
there. -/
theorem between_settled {opening closing : List Char} (hclosing : closing ≠ [])
    (h : (between opening closing (opening ++ (cs ++ a))).2.1 ≤ opening.length + cs.length)
    (ha : a ≠ []) :
    between opening closing (opening ++ (cs ++ b))
      = between opening closing (opening ++ (cs ++ a)) := by
  rw [between_eq] at h ⊢
  rw [between_eq]
  cases hbefore : before? closing (cs ++ a) with
  | none =>
    rw [hbefore] at h
    dsimp only at h
    rw [List.length_append] at h
    exact absurd (List.length_eq_zero_iff.1 (by omega)) ha
  | some inner =>
    rw [hbefore] at h
    dsimp only at h
    have hle : inner.length + closing.length ≤ cs.length := by omega
    have hcut := before?_take hbefore
    rw [List.take_append_of_le_length hle] at hcut
    have hagain := before?_append (a := cs.drop (inner.length + closing.length) ++ b) hclosing hcut
    rw [← List.append_assoc, List.take_append_drop] at hagain
    rw [hagain]

/-- A form that stands between two marks stays as it is. -/
theorem alike_of_between {form : List Char → Option Reading} {opening closing : List Char}
    (hclosing : closing ≠ []) (lexeme : String → Bool → Lexeme)
    (hform : ∀ cs, form cs = if opening.isPrefixOf cs
      then some ⟨lexeme (between opening closing cs).1 (between opening closing cs).2.2,
        (between opening closing cs).2.1⟩
      else none)
    {r : Reading} (halike : Alike a b) (h : form (cs ++ a) = some r)
    (hlength : r.length = cs.length) : form (cs ++ b) = some r := by
  refine again_of_mark opening
    (fun content => ⟨lexeme (between opening closing (opening ++ content)).1
        (between opening closing (opening ++ content)).2.2,
      (between opening closing (opening ++ content)).2.1⟩)
    (fun content => ?_) (fun cs hnot => ?_) (fun _ => length_opening_le_between _ _ _)
    (fun ha _ hlength => ?_) halike h hlength
  · rw [hform, if_pos (List.isPrefixOf_iff_prefix.2 (List.prefix_append ..))]
  · rw [hform, if_neg (by rwa [List.isPrefixOf_iff_prefix])]
  · dsimp only at hlength ⊢
    rw [between_settled hclosing hlength.le ha]

theorem docString?_eq_none_iff : docString? cs = none ↔ ¬ ['/', '*', '!'] <+: cs := by
  simp [docString?]

/-- No documentation string and no comment starts where neither mark of a comment does. -/
theorem slash_eq_none : (docString? cs <|> (blockComment? cs <|> lineComment? cs)) = none
    ↔ ∀ mark ∈ ({['/', '*'], ['/', '/']} : Set (List Char)), ¬ mark <+: cs := by
  have hdoc : ¬ ['/', '*'] <+: cs → docString? cs = none := fun hnot =>
    docString?_eq_none_iff.2 fun hbegins => hnot (List.IsPrefix.trans ⟨['!'], rfl⟩ hbegins)
  simp only [Option.orElse_eq_orElse, Option.orElse_eq_or, Option.or_eq_none_iff]
  simpa [blockComment?, lineComment?] using fun hblock _ => hdoc hblock

/-- What starts with a slash, unless it is punctuation. -/
theorem slash_looksAhead :
    LooksAhead fun cs => docString? cs <|> (blockComment? cs <|> lineComment? cs) where
  absent := absent_of_short_marks _ (fun _ => slash_eq_none) (by simp)
  again {cs a b r} _ halike h hline hlength := by
    simp only [Option.orElse_eq_orElse, Option.orElse_eq_or, Option.or_eq_some_iff] at h ⊢
    rcases h with h | ⟨hdoc, h | ⟨-, h⟩⟩
    · exact .inl (alike_of_between (by decide) .docString (fun _ => rfl) halike h hlength)
    · have hblock := alike_of_between (by decide) .blockComment (fun _ => rfl) halike h hlength
      -- the third character of the other mark is not behind what comes after the comment
      have hpos : 2 ≤ cs.length := by
        obtain ⟨-, hread⟩ := Option.ite_none_right_eq_some.1 h
        obtain rfl := Option.some.inj hread
        exact hlength ▸ length_opening_le_between ['/', '*'] ['*', '/'] _
      rw [docString?_eq_none_iff] at hdoc ⊢
      exact .inr ⟨fun hbegins => hdoc (halike.prefix_of_prefix (by decide)
        (Nat.succ_le_succ hpos) hbegins), .inl hblock⟩
    · obtain ⟨_, -, rfl⟩ := lineComment?_eq_some h
      exact absurd rfl hline

/-! ## Literals -/

/-- A form that a short mark opens and whose lexeme depends on quoted content. -/
theorem LooksAhead.of_quoted {form : List Char → Option Reading} {quote : Char}
    (mark : List Char) (hshort : mark.length ≤ 2 ∧ ' ' ∉ mark) (lexeme : Quoted.Content → Lexeme)
    (hform : ∀ cs, form (mark ++ cs)
      = some ⟨lexeme (Quoted.read quote cs), mark.length + (Quoted.read quote cs).length⟩)
    (hother : ∀ cs, ¬ mark <+: cs → form cs = none) : LooksAhead form := by
  refine .of_mark mark hshort _ hform hother (fun _ => Nat.le_add_right _ _)
    fun ha _ hlength => ?_
  rw [Quoted.read_settled (Nat.add_left_cancel hlength).le ha]

theorem string?_looksAhead : LooksAhead string? := by
  refine .of_quoted ['"'] (by decide)
    (fun content => .string (.ofList content.decoded) content.closed) (fun _ => rfl)
    fun cs hother => ?_
  unfold string?
  split
  · exact absurd ⟨_, rfl⟩ hother
  · rfl

theorem character?_looksAhead : LooksAhead character? := by
  refine .of_quoted ['\''] (by decide)
    (fun content => .character (content.decoded.head?.getD '\x00') content.closed) (fun _ => rfl)
    fun cs hother => ?_
  unfold character?
  split
  · exact absurd ⟨_, rfl⟩ hother
  · rfl

/-! ## Words and punctuation -/

/-- A word that ends behind some characters ends there in front of other text. -/
theorem takeWhile_isWordChar_alike (halike : Alike a b)
    (h : ((cs ++ a).takeWhile isWordChar).length = cs.length) :
    (cs ++ a).takeWhile isWordChar = cs ∧ (cs ++ b).takeWhile isWordChar = cs := by
  have hall : (cs ++ a).takeWhile isWordChar = cs :=
    (List.prefix_of_prefix_length_le (List.takeWhile_prefix _) (List.prefix_append ..)
      h.le).eq_of_length h
  have hword : ∀ c ∈ cs, isWordChar c = true := by
    intro c hc
    rw [← hall] at hc
    exact List.mem_takeWhile_imp hc
  refine ⟨hall, takeWhile_isWordChar hword fun c hc => ?_⟩
  rcases halike.head hc with hc | rfl
  · obtain ⟨rest, rfl⟩ := List.head?_eq_some_iff.1 hc
    refine Bool.eq_false_iff.2 fun hmore => ?_
    rw [List.takeWhile_append_of_pos hword, List.takeWhile_cons_of_pos hmore] at h
    simp at h
  · rfl

theorem word?_looksAhead : LooksAhead word? where
  absent {cs a b} hne _ h := by
    obtain ⟨c, cs, rfl⟩ := List.exists_cons_of_ne_nil hne
    by_cases hc : isWordChar c = true
    · simp [word?, hc] at h
    · simp [word?, hc]
  again {cs a b r} hne halike h _ hlength := by
    dsimp only [word?] at h ⊢
    split at h
    · cases h
    · obtain rfl := Option.some.inj h
      obtain ⟨ha, hb⟩ := takeWhile_isWordChar_alike halike hlength
      rw [ha, hb, if_neg (by simpa using hne)]

/-- A symbol is quoted or a word. -/
theorem symbol?_eq : symbol? = fun cs =>
    (if ['#', '\''].isPrefixOf cs then symbol? cs else none)
      <|> (if ['#', ':'].isPrefixOf cs then symbol? cs else none) := by
  funext cs
  unfold symbol?
  split
  · rfl
  · rfl
  · next hquoted hword =>
    rw [if_neg, if_neg]
    · rfl
    · exact fun h => (exists_of_isPrefixOf h).elim hword
    · exact fun h => (exists_of_isPrefixOf h).elim hquoted

theorem symbol?_looksAhead : LooksAhead symbol? := by
  rw [symbol?_eq]
  refine LooksAhead.orElse ?_ ?_
  · refine .of_quoted ['#', '\''] (by decide)
      (fun content => .symbol (.ofList content.decoded) content.closed) (fun _ => rfl)
      fun cs hother => ?_
    rw [if_neg]
    rwa [List.isPrefixOf_iff_prefix]
  · refine .of_mark ['#', ':'] (by decide)
      (fun name => ⟨.symbol (String.ofList (name.takeWhile isWordChar)) true,
        2 + (name.takeWhile isWordChar).length⟩)
      (fun _ => rfl) (fun cs hother => ?_) (fun _ => Nat.le_add_right _ _)
      fun _ halike hlength => ?_
    · rw [if_neg]
      rwa [List.isPrefixOf_iff_prefix]
    · obtain ⟨ha, hb⟩ := takeWhile_isWordChar_alike halike (Nat.add_left_cancel hlength)
      rw [ha, hb]

theorem punctuation?_looksAhead : LooksAhead punctuation? where
  absent {cs a b} hne halike h := by
    obtain ⟨c, cs, rfl⟩ := List.exists_cons_of_ne_nil hne
    rw [punctuation?, Option.map_eq_none_iff, Punctuation.longest?, List.find?_eq_none] at h ⊢
    intro p _ hbegins
    rw [List.isPrefixOf_iff_prefix] at hbegins
    have hfirst : [c] <+: p.spelling :=
      List.prefix_of_prefix_length_le ⟨cs ++ b, rfl⟩ hbegins (length_spelling_pos p)
    obtain ⟨q, hq⟩ := Punctuation.exists_of_prefix (List.cons_ne_nil c []) hfirst
    refine h q q.mem_longestFirst ?_
    rw [hq, List.isPrefixOf_iff_prefix]
    exact ⟨cs ++ a, rfl⟩
  again {cs a b r} _ halike h _ hlength := by
    obtain ⟨p, hlongest, rfl⟩ := Option.map_eq_some_iff.1 h
    have hbegins : p.spelling <+: cs ++ a :=
      List.isPrefixOf_iff_prefix.1 (List.find?_eq_some_iff_append.1 hlongest).1
    obtain rfl : p.spelling = cs :=
      (List.prefix_of_prefix_length_le hbegins (List.prefix_append ..) hlength.le).eq_of_length
        hlength
    have hends : ∀ c ∈ b.head?, p.continues c = false := by
      intro c hc
      rcases halike.head hc with hc | rfl
      · exact Punctuation.continues_of_longest? hlongest hc
      · exact p.continues_blank
    rw [punctuation?, p.longest?_append hends]
    rfl

/-- **A lexeme looks at most at the character behind it**, unless it is a line comment. -/
theorem first_alike {c : Char} (halike : Alike a b)
    (hline : (first c (cs ++ a)).lexeme.kind ≠ .lineComment)
    (hlength : (first c (cs ++ a)).length = cs.length + 1) :
    first c (cs ++ b) = first c (cs ++ a) := by
  obtain ⟨form, hform, hfirst⟩ : ∃ form, LooksAhead form
      ∧ ∀ cs, first c cs = (form (c :: cs)).getD ⟨.stray c, 1⟩ := by
    refine ⟨_, slash_looksAhead.orElse (string?_looksAhead.orElse (character?_looksAhead.orElse
      (symbol?_looksAhead.orElse (punctuation?_looksAhead.orElse word?_looksAhead)))),
      fun cs => ?_⟩
    simp only [first, Option.orElse_eq_orElse, Option.orElse_eq_or, Option.or_assoc]
  rw [hfirst] at hline hlength ⊢
  rw [hfirst]
  have hne : c :: cs ≠ [] := List.cons_ne_nil _ _
  cases hread : form (c :: (cs ++ a)) with
  | none => rw [← List.cons_append, hform.absent hne halike hread]
  | some r =>
    rw [hread] at hline hlength
    rw [← List.cons_append, hform.again hne halike hread hline hlength]

end Reading

/-- **A token that is no line comment is read again** in front of other text that is alike. -/
theorem Cursor.read_alike (offset : Nat) {c : Char} (halike : Alike a b)
    (hline : (Reading.first c (cs ++ a)).lexeme.kind ≠ .lineComment)
    (hlength : (Reading.first c (cs ++ a)).length = cs.length + 1) :
    read offset c (cs ++ b)
      = ((read offset c (cs ++ a)).1, ⟨(read offset c (cs ++ a)).2.offset, b⟩) := by
  have htake : ∀ rest, (c :: (cs ++ rest)).take (cs.length + 1) = c :: cs := fun rest => by
    rw [List.take_succ_cons, List.take_left' rfl]
  have hdrop : (c :: (cs ++ b)).drop (cs.length + 1) = b := by
    rw [List.drop_succ_cons, List.drop_left' rfl]
  rw [read, read, Reading.first_alike halike hline hlength, hlength, advance, advance, htake,
    htake, hdrop]

end ScriptLens
