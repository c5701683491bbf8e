import ScriptLens.Proofs.Rescan
import ScriptLens.Proofs.TokenStream

/-!
# What the tokens of a text say

Where a token stands is one question, what it says another. `lexemesOf` keeps the second
only, so that the lexemes of a text are those of its first token and those of the rest,
whatever the offsets. A blank adds none (`lexemesOf_blank`), a word adds what it spells
(`lexemesOf_word`), and punctuation adds itself (`lexemesOf_mark`). What follows matters:
a word must end there, and punctuation must not go on as a longer one.
-/

namespace ScriptLens

/-- Whether a lexeme is neither a comment nor the end of a text. -/
def Lexeme.isProper (l : Lexeme) : Bool := !l.isComment && l != .endOfFile

/-- **What the tokens of a text say** that the parser reads. -/
def lexemesOf (text : List Char) : List Lexeme := (Parser.tokensOf text).map (·.lexeme)

namespace Cursor

variable {c c' : Cursor}

theorem next_congr {comments : Bool} (h : c.skipBlanks = c'.skipBlanks) :
    c.next comments = c'.next comments := by
  cases h' : c'.skipBlanks with
  | mk offset tail =>
    rw [h'] at h
    cases tail with
    | nil => rw [next_of_end h, next_of_end h']
    | cons char rest => rw [next_of_read h, next_of_read h']

theorem tokens_blank (comments : Bool) (offset : Nat) {blank : Char}
    (h : Text.isBlank blank = true) (text : List Char) :
    tokens comments ⟨offset, blank :: text⟩
      = tokens comments ⟨offset + Text.byteLength [blank], text⟩ := by
  refine tokens_congr (next_congr ?_)
  rw [skipBlanks, skipBlanks, List.takeWhile_cons_of_pos h, advance, advance]
  simp [Text.byteLength_cons, Nat.add_assoc]

/-- If comments are tokens, the next token is read where no blank is. -/
theorem tokens_read (offset : Nat) {char : Char} (h : Text.isBlank char = false)
    (text : List Char) :
    tokens true ⟨offset, char :: text⟩
      = (read offset char text).1 :: tokens true (read offset char text).2 :=
  tokens_cons h fun _ => rfl

/-- What tokens say does not depend on the offset. -/
theorem map_lexeme_tokens (offset offset' : Nat) (text : List Char) :
    (tokens true ⟨offset, text⟩).map (·.lexeme)
      = (tokens true ⟨offset', text⟩).map (·.lexeme) := by
  induction hlength : text.length using Nat.strong_induction_on
    generalizing text offset offset' with
  | _ n ih =>
    subst hlength
    cases text with
    | nil =>
      rw [tokens_nil, tokens_nil]
      rfl
    | cons char rest =>
      cases hblank : Text.isBlank char with
      | true =>
        rw [tokens_blank true _ hblank, tokens_blank true _ hblank]
        exact ih _ (Nat.lt_succ_self _) _ _ _ rfl
      | false =>
        rw [tokens_read _ hblank, tokens_read _ hblank, List.map_cons, List.map_cons]
        exact congrArg _ (ih _ (length_rest_read_lt 0 char rest) _ _ _ rfl)

end Cursor

/-- The parser reads the tokens that are neither comments nor the end of the text. -/
theorem Parser.tokensOf_eq (text : List Char) :
    tokensOf text = (Cursor.tokens true ⟨0, text⟩).filter (·.lexeme.isProper) := by
  rw [tokensOf, Token.scan, Cursor.atStart, ← Cursor.filter_tokens, List.filter_filter]
  refine List.filter_congr fun t _ => ?_
  rw [Lexeme.isProper, Token.isEnd, Bool.and_comm, bne, Bool.beq_eq_decide_eq]

theorem lexemesOf_eq (offset : Nat) (text : List Char) :
    lexemesOf text
      = ((Cursor.tokens true ⟨offset, text⟩).map (·.lexeme)).filter Lexeme.isProper := by
  rw [Cursor.map_lexeme_tokens offset 0, List.filter_map, lexemesOf, Parser.tokensOf_eq]
  rfl

@[simp] theorem lexemesOf_nil : lexemesOf [] = [] := by
  rw [lexemesOf_eq 0, Cursor.tokens_nil]
  rfl

/-- A blank says nothing. -/
theorem lexemesOf_blank {blank : Char} (h : Text.isBlank blank = true) (text : List Char) :
    lexemesOf (blank :: text) = lexemesOf text := by
  rw [lexemesOf_eq 0, Cursor.tokens_blank true _ h, ← lexemesOf_eq]

/-- **A text says what its first token says** and what the rest does. -/
theorem lexemesOf_read {char : Char} (h : Text.isBlank char = false) (text : List Char) :
    lexemesOf (char :: text) = [(Reading.first char text).lexeme].filter Lexeme.isProper
      ++ lexemesOf ((char :: text).drop (Reading.first char text).length) := by
  rw [lexemesOf_eq 0, Cursor.tokens_read _ h, List.map_cons, ← List.singleton_append,
    List.filter_append]
  exact congrArg _ (lexemesOf_eq _ _).symm

/-! ## Words and punctuation -/

namespace Punctuation

/-- Whether punctuation followed by a character begins a longer one. -/
def continues (p : Punctuation) (c : Char) : Bool :=
  all.any fun q => (p.spelling ++ [c]).isPrefixOf q.spelling

/-- The characters of punctuation open nothing else, and no word has one of them. -/
theorem not_open_of_mem_spelling {p : Punctuation} {c : Char} (h : c ∈ p.spelling) :
    isWordChar c = false ∧ Text.isBlank c = false ∧ c ≠ '"' ∧ c ≠ '\'' ∧ c ≠ '#' := by
  have hall : p.spelling.all (fun c => !isWordChar c && !Text.isBlank c && c != '"' && c != '\''
      && c != '#') = true := by
    cases p <;> rfl
  simpa [and_assoc] using List.all_eq_true.1 hall c h

theorem blank_notMem_spelling (p : Punctuation) : ' ' ∉ p.spelling := by
  intro hmem
  cases (not_open_of_mem_spelling hmem).2.1

/-- Punctuation does not go on with a word. -/
theorem continues_of_isWordChar (p : Punctuation) {c : Char} (h : isWordChar c = true) :
    p.continues c = false := by
  rw [continues, List.any_eq_false]
  intro q _ hbegins
  have hmem : c ∈ q.spelling :=
    (List.isPrefixOf_iff_prefix.1 hbegins).subset (List.mem_append_right _ List.mem_cons_self)
  rw [(not_open_of_mem_spelling hmem).1] at h
  cases h

/-- What begins a text is no longer than the punctuation found there. -/
theorem length_le_of_longest? {p q : Punctuation} {text : List Char}
    (h : p.spelling <+: text) (hfind : longest? text = some q) :
    p.spelling.length ≤ q.spelling.length := by
  have hsorted : longestFirst.Pairwise fun p q => q.spelling.length ≤ p.spelling.length := by
    decide +kernel
  obtain ⟨-, before, after, hsplit, hbefore⟩ := List.find?_eq_some_iff_append.1 hfind
  have hp := mem_longestFirst p
  rw [hsplit] at hp hsorted
  rcases List.mem_append.1 hp with hp | hp
  · have hnot := hbefore p hp
    rw [List.isPrefixOf_iff_prefix.2 h] at hnot
    cases hnot
  · rcases List.mem_cons.1 hp with rfl | hp
    · exact Nat.le_refl _
    · exact (List.pairwise_cons.1 (List.pairwise_append.1 hsorted).2.1).1 p hp

/-- What is longer would go on with the next character. -/
theorem length_le_of_not_continues {p q : Punctuation} {rest : List Char}
    (h : ∀ c ∈ rest.head?, p.continues c = false) (hq : q.spelling <+: p.spelling ++ rest) :
    q.spelling.length ≤ p.spelling.length := by
  by_contra hlt
  have hbegins : p.spelling <+: q.spelling :=
    List.prefix_of_prefix_length_le (List.prefix_append ..) hq (Nat.le_of_not_le hlt)
  obtain ⟨more, hmore⟩ := hbegins
  cases more with
  | nil =>
    rw [List.append_nil] at hmore
    exact hlt (Nat.le_of_eq (congrArg _ hmore).symm)
  | cons c more =>
    rw [← hmore, List.prefix_append_right_inj] at hq
    obtain ⟨tail, rfl⟩ := hq
    have hnot := List.any_eq_false.1 (h c rfl) q (mem_all q)
    refine hnot (List.isPrefixOf_iff_prefix.2 ⟨more, ?_⟩)
    rw [List.append_assoc]
    exact hmore

/-- **The longest punctuation is found** where it does not go on. -/
theorem longest?_append (p : Punctuation) {rest : List Char}
    (h : ∀ c ∈ rest.head?, p.continues c = false) : longest? (p.spelling ++ rest) = some p := by
  have hbegins : p.spelling <+: p.spelling ++ rest := List.prefix_append ..
  cases hfind : longest? (p.spelling ++ rest) with
  | none =>
    exact absurd (List.isPrefixOf_iff_prefix.2 hbegins)
      (List.find?_eq_none.1 hfind p (mem_longestFirst p))
  | some q =>
    have hq : q.spelling <+: p.spelling ++ rest :=
      List.isPrefixOf_iff_prefix.1 (List.find?_eq_some_iff_append.1 hfind).1
    have hlength : q.spelling.length = p.spelling.length :=
      Nat.le_antisymm (length_le_of_not_continues h hq) (length_le_of_longest? hbegins hfind)
    have hspelling : q.spelling = p.spelling := by
      rw [List.prefix_iff_eq_take.1 hq, hlength, List.take_left' rfl]
    rw [← longest?_spelling q, hspelling, longest?_spelling]

/-- No punctuation begins a word. -/
theorem longest?_word {c : Char} (h : isWordChar c = true) (text : List Char) :
    longest? (c :: text) = none := by
  refine List.find?_eq_none.2 fun p _ hbegins => ?_
  have hpos := Reading.length_spelling_pos p
  cases hspelling : p.spelling with
  | nil =>
    rw [hspelling] at hpos
    exact absurd hpos (Nat.lt_irrefl 0)
  | cons d ds =>
    rw [hspelling, List.isPrefixOf_iff_prefix, List.cons_prefix_cons] at hbegins
    have hd := (not_open_of_mem_spelling (p := p) (c := d) (by simp [hspelling])).1
    rw [hbegins.1, h] at hd
    cases hd

end Punctuation

namespace Reading

/-- Most characters open nothing but punctuation or a word. -/
theorem first_eq {c : Char} {cs : List Char} (hc : c ≠ '/' ∧ c ≠ '"' ∧ c ≠ '\'')
    (hsymbol : c = '#' → ∀ d ∈ cs.head?, d ≠ '\'' ∧ d ≠ ':') :
    first c cs = (punctuation? (c :: cs) <|> word? (c :: cs)).getD ⟨.stray c, 1⟩ := by
  obtain ⟨hslash, hquote, hcharacter⟩ := hc
  have hsymbol? : symbol? (c :: cs) = none := by
    unfold symbol?
    split
    · next heq =>
      cases heq
      exact absurd rfl (hsymbol rfl _ rfl).1
    · next heq =>
      cases heq
      exact absurd rfl (hsymbol rfl _ rfl).2
    · rfl
  have hstring? : string? (c :: cs) = none := by
    unfold string?
    split
    · next heq =>
      cases heq
      exact absurd rfl hquote
    · rfl
  have hcharacter? : character? (c :: cs) = none := by
    unfold character?
    split
    · next heq =>
      cases heq
      exact absurd rfl hcharacter
    · rfl
  have hmarks : docString? (c :: cs) = none ∧ blockComment? (c :: cs) = none
      ∧ lineComment? (c :: cs) = none := by
    simp [docString?, blockComment?, lineComment?, Ne.symm hslash]
  rw [first, hmarks.1, hmarks.2.1, hmarks.2.2, hstring?, hcharacter?, hsymbol?]
  rfl

end Reading

/-- **Punctuation says itself** where it does not go on. -/
theorem lexemesOf_mark (p : Punctuation) (hslash : '/' ∉ p.spelling) {rest : List Char}
    (h : ∀ c ∈ rest.head?, p.continues c = false) :
    lexemesOf (p.spelling ++ rest) = .punctuation p :: lexemesOf rest := by
  have hlongest := p.longest?_append h
  have hdrop : (p.spelling ++ rest).drop p.spelling.length = rest := List.drop_left' rfl
  have hopens : ∀ c ∈ p.spelling, _ := fun _ => Punctuation.not_open_of_mem_spelling
  have hpos := Reading.length_spelling_pos p
  generalize hspelling : p.spelling = spelling at *
  cases spelling with
  | nil => exact absurd hpos (Nat.lt_irrefl 0)
  | cons c cs =>
    obtain ⟨-, hblank, hquote, hcharacter, hhash⟩ := hopens c List.mem_cons_self
    have hfirst : Reading.first c (cs ++ rest) = ⟨.punctuation p, (c :: cs).length⟩ := by
      rw [Reading.first_eq ⟨fun heq => hslash (heq ▸ List.mem_cons_self), hquote, hcharacter⟩
        fun heq => absurd heq hhash, Reading.punctuation?]
      rw [List.cons_append] at hlongest
      rw [hlongest, ← hspelling]
      rfl
    rw [List.cons_append, lexemesOf_read hblank, hfirst]
    rw [List.cons_append] at hdrop
    rw [hdrop]
    rfl

/-- No word goes on with a blank. -/
theorem isWordChar_of_isBlank {c : Char} (h : Text.isBlank c = true) : isWordChar c = false := by
  simp only [Text.isBlank, Bool.or_eq_true, decide_eq_true_eq] at h
  rcases h with ((((rfl | rfl) | rfl) | rfl) | rfl) | rfl <;> rfl

theorem Reading.isProper_wordLexeme (word : List Char) :
    (wordLexeme word).isProper = true := by
  unfold wordLexeme
  split
  · rfl
  · split <;> rfl

/-- A word ends where the next character is none of its own. -/
theorem takeWhile_isWordChar {word rest : List Char} (hword : ∀ c ∈ word, isWordChar c = true)
    (hrest : ∀ c ∈ rest.head?, isWordChar c = false) :
    (word ++ rest).takeWhile isWordChar = word := by
  rw [List.takeWhile_append_of_pos hword]
  cases rest with
  | nil => exact List.append_nil _
  | cons c rest =>
    rw [List.takeWhile_cons_of_neg (by rw [hrest c rfl]; decide)]
    exact List.append_nil _

/-- **A word says what it spells** where it ends. -/
theorem lexemesOf_word {word : List Char} (hne : word ≠ [])
    (hword : ∀ c ∈ word, isWordChar c = true) {rest : List Char}
    (hrest : ∀ c ∈ rest.head?, isWordChar c = false ∧ c ≠ '\'' ∧ c ≠ ':') :
    lexemesOf (word ++ rest) = Reading.wordLexeme word :: lexemesOf rest := by
  have htake := takeWhile_isWordChar hword fun c hc => (hrest c hc).1
  have hdrop : (word ++ rest).drop word.length = rest := List.drop_left' rfl
  cases word with
  | nil => exact absurd rfl hne
  | cons c cs =>
    have hc := hword c List.mem_cons_self
    have hplain : c ≠ '/' ∧ c ≠ '"' ∧ c ≠ '\'' := by
      refine ⟨?_, ?_, ?_⟩ <;> rintro rfl <;> cases hc
    -- a symbol would start with `#`, and its second character is no part of a word
    have hsymbol : c = '#' → ∀ d ∈ (cs ++ rest).head?, d ≠ '\'' ∧ d ≠ ':' := by
      intro _ d hd
      cases cs with
      | nil => exact (hrest d hd).2
      | cons e cs =>
        cases hd
        have he := hword d (List.mem_cons_of_mem _ List.mem_cons_self)
        refine ⟨?_, ?_⟩ <;> rintro rfl <;> cases he
    rw [List.cons_append] at htake hdrop ⊢
    have hfirst : Reading.first c (cs ++ rest)
        = ⟨Reading.wordLexeme (c :: cs), (c :: cs).length⟩ := by
      rw [Reading.first_eq hplain hsymbol, Reading.punctuation?, Punctuation.longest?_word hc,
        Reading.word?, htake]
      rfl
    have hblank : Text.isBlank c = false := Bool.eq_false_iff.2 fun h => by
      rw [isWordChar_of_isBlank h] at hc
      cases hc
    rw [lexemesOf_read hblank, hfirst, hdrop,
      List.filter_cons_of_pos (Reading.isProper_wordLexeme _)]
    rfl

end ScriptLens
