import ScriptLens.Proofs.SettledText
import ScriptLens.Proofs.TextLines
import ScriptLens.Service.Completion

/-!
# Words at a cursor

The word left of a cursor is found by going back over word characters, without regard to
tokens. A scan goes the other way, and tries comments, quotes, symbols and punctuation before
it looks for a word. The two agree on the words of a text (`Analysis.complete_word`) because
no word goes on across the place where a scan stops: whatever it reads or skips either ends in
a character that is part of no word or takes all word characters that follow (`WordBorder`).

Where a token is read, the border in front of it comes from what was read or skipped before
it, so it is carried along the scan like the place itself (`Token.LaidOut.exists_border`).
-/

namespace ScriptLens

/-- **A border of words** between two texts, one behind the other: no word goes on across
it. -/
def WordBorder (before after : List Char) : Prop :=
  ∀ c ∈ before.getLast?, isWordChar c = true → ∀ d ∈ after.head?, isWordChar d = false

namespace WordBorder

variable {before part after : List Char}

theorem of_getLast? (h : ∀ c ∈ before.getLast?, isWordChar c = false) :
    WordBorder before after := by
  intro c hc hword
  rw [h c hc] at hword
  cases hword

theorem of_head? (h : ∀ d ∈ after.head?, isWordChar d = false) : WordBorder before after :=
  fun _ _ _ => h

theorem nil_left : WordBorder [] after := nofun

theorem nil_right : WordBorder before [] := of_head? nofun

/-- Only the last part before a border matters, if it is not empty. -/
theorem append (before : List Char) (h : WordBorder part after) (hne : part ≠ []) :
    WordBorder (before ++ part) after := by
  intro c hc
  rw [List.getLast?_append_of_ne_nil _ hne] at hc
  exact h c hc

end WordBorder

/-! ## What is skipped -/

/-- **What is skipped ends at a border of words.** -/
theorem Trivia.border {gap tail : List Char} (h : Trivia (tail = []) gap) (hne : gap ≠ []) :
    WordBorder gap tail := by
  induction h with
  | nil => exact absurd rfl hne
  | @blank c cs hblank _ ih =>
    by_cases hcs : cs = []
    · subst hcs
      exact .of_getLast? fun d hd => Option.some.inj hd ▸ isWordChar_of_isBlank hblank
    · exact .append [c] (ih hcs) hcs
  | @lineComment body rest _ hrest _ ih =>
    by_cases hnil : rest = []
    · rcases hrest with hbreak | ⟨-, htail⟩
      · rw [hnil] at hbreak
        cases hbreak
      · rw [htail]
        exact .nil_right
    · exact .append ('/' :: '/' :: body) (ih hnil) hnil
  | @blockComment body rest _ _ _ ih =>
    have hsplit : '/' :: '*' :: (body ++ '*' :: '/' :: rest)
        = ('/' :: '*' :: (body ++ ['*', '/'])) ++ rest := by simp
    rw [hsplit]
    by_cases hnil : rest = []
    · subst hnil
      rw [List.append_nil]
      refine .append ('/' :: '*' :: body) (.of_getLast? fun d hd => ?_) (by simp)
      obtain rfl : '/' = d := Option.some.inj hd
      decide
    · exact .append _ (ih hnil) hnil
  | openComment _ _ htail =>
    rw [htail]
    exact .nil_right

theorem Filler.trivia {comments : Bool} {last : Prop} {gap : List Char}
    (h : Filler comments last gap) : Trivia last gap := by
  cases comments with
  | true => exact .of_blanks h
  | false => exact h

/-! ## What is read -/

/-- A closing quote ends the content that it closes. -/
theorem Quoted.exists_of_closed {quote : Char} {cs : List Char}
    (h : (read quote cs).closed = true) :
    ∃ inner rest, cs = inner ++ quote :: rest ∧ (read quote cs).length = inner.length + 1 := by
  fun_induction read quote cs with
  | case1 => cases h
  | case2 cs => exact ⟨[], cs, rfl, rfl⟩
  | case3 => cases h
  | case4 letter cs value taken hescape _ ih =>
    obtain ⟨inner, rest, hcs, hlength⟩ := ih h
    have hle : taken ≤ cs.length := by
      have hle := taken_le letter cs
      rwa [hescape] at hle
    refine ⟨'\\' :: letter :: (cs.take taken ++ inner), rest, ?_, ?_⟩
    · rw [List.cons_append, List.cons_append, List.append_assoc, ← hcs, List.take_append_drop]
    · rw [Content.length_push, hlength, List.length_cons, List.length_cons, List.length_append,
        List.length_take_of_le hle]
      omega
  | case5 c cs _ _ ih =>
    obtain ⟨inner, rest, hcs, hlength⟩ := ih h
    refine ⟨c :: inner, rest, by rw [List.cons_append, ← hcs], ?_⟩
    rw [Content.length_push, hlength, List.length_cons]
    omega

namespace Reading

/-- **A form that ends at a border of words** wherever it is read. -/
def Borders (form : List Char → Option Reading) : Prop :=
  ∀ ⦃cs : List Char⦄ ⦃r : Reading⦄, form cs = some r →
    WordBorder (cs.take r.length) (cs.drop r.length)

theorem Borders.orElse {f g : List Char → Option Reading} (hf : Borders f) (hg : Borders g) :
    Borders fun cs => f cs <|> g cs := by
  intro cs r h
  simp only [Option.orElse_eq_orElse, Option.orElse_eq_or, Option.or_eq_some_iff] at h
  rcases h with h | ⟨-, h⟩
  · exact hf h
  · exact hg h

/-- What stands between two marks ends at a border, if the closing one is no part of a word. -/
theorem border_between (opening content : List Char) {closing : List Char} {c : Char}
    (hclosing : closing.getLast? = some c) (hc : isWordChar c = false) :
    WordBorder ((opening ++ content).take (between opening closing (opening ++ content)).2.1)
      ((opening ++ content).drop (between opening closing (opening ++ content)).2.1) := by
  have hne : closing ≠ [] := by
    rintro rfl
    cases hclosing
  rcases between_append opening content hne with ⟨inner, rest, rfl, -, heq⟩ | ⟨-, heq⟩
  · have hsplit : opening ++ (inner ++ (closing ++ rest))
        = (opening ++ inner ++ closing) ++ rest := by simp
    have hlength : (opening ++ inner ++ closing).length
        = opening.length + inner.length + closing.length := by
      rw [List.length_append, List.length_append]
    rw [heq, hsplit, List.take_left' hlength, List.drop_left' hlength]
    refine .append _ (.of_getLast? fun d hd => ?_) hne
    rw [hclosing] at hd
    exact Option.some.inj hd ▸ hc
  · rw [heq, ← List.length_append, List.drop_length]
    exact .nil_right

theorem docString?_borders : Borders docString? := by
  intro cs r h
  unfold docString? at h
  split at h
  · next hmark =>
    obtain ⟨content, rfl⟩ := exists_of_isPrefixOf hmark
    obtain rfl := Option.some.inj h
    exact border_between _ _ rfl (by decide)
  · cases h

theorem blockComment?_borders : Borders blockComment? := by
  intro cs r h
  unfold blockComment? at h
  split at h
  · next hmark =>
    obtain ⟨content, rfl⟩ := exists_of_isPrefixOf hmark
    obtain rfl := Option.some.inj h
    exact border_between _ _ rfl (by decide)
  · cases h

theorem lineComment?_borders : Borders lineComment? := by
  intro cs r h
  obtain ⟨content, rfl, rfl⟩ := lineComment?_eq_some h
  obtain ⟨ret, after, hsplit, hret, -, hafter⟩ := lineCommentText_append content
  generalize lineCommentText content = body at hsplit ⊢
  subst hsplit
  have hlength : ('/' :: '/' :: body).length = 2 + body.length := Nat.add_comm body.length 2
  have hdrop : ('/' :: '/' :: (body ++ (ret ++ after))).drop (2 + body.length) = ret ++ after :=
    List.drop_left' hlength
  rw [hdrop]
  refine .of_head? fun d hd => ?_
  -- a line break follows, or the return before it
  rcases hret with rfl | rfl
  · rcases hafter with rfl | hbreak
    · cases hd
    · obtain rfl : '\n' = d := Option.some.inj (hbreak.symm.trans hd)
      decide
  · obtain rfl : '\r' = d := Option.some.inj hd
    decide

/-- Quoted content ends at a border, since a quote is no part of a word. -/
theorem border_quoted (mark cs : List Char) {quote : Char} (hquote : isWordChar quote = false) :
    WordBorder ((mark ++ cs).take (mark.length + (Quoted.read quote cs).length))
      ((mark ++ cs).drop (mark.length + (Quoted.read quote cs).length)) := by
  cases hclosed : (Quoted.read quote cs).closed with
  | true =>
    obtain ⟨inner, rest, hcs, hlength⟩ := Quoted.exists_of_closed hclosed
    have hcut : (mark ++ cs).take (mark.length + (Quoted.read quote cs).length)
        = (mark ++ inner) ++ [quote] := by
      have hsplit : mark ++ cs = (mark ++ inner ++ [quote]) ++ rest := by simp [hcs]
      rw [hsplit, hlength]
      exact List.take_left' (by simp)
    rw [hcut]
    refine .append _ (.of_getLast? fun d hd => ?_) (List.cons_ne_nil _ _)
    exact Option.some.inj hd ▸ hquote
  | false =>
    rw [Quoted.length_of_open hclosed, ← List.length_append, List.drop_length]
    exact .nil_right

theorem string?_borders : Borders string? := by
  intro cs r h
  unfold string? at h
  split at h
  · next cs =>
    obtain rfl := Option.some.inj h
    exact border_quoted ['"'] cs (by decide)
  · cases h

theorem character?_borders : Borders character? := by
  intro cs r h
  unfold character? at h
  split at h
  · next cs =>
    obtain rfl := Option.some.inj h
    exact border_quoted ['\''] cs (by decide)
  · cases h

/-- A word takes all word characters that follow. -/
theorem border_word (mark cs : List Char) :
    WordBorder ((mark ++ cs).take (mark.length + (cs.takeWhile isWordChar).length))
      ((mark ++ cs).drop (mark.length + (cs.takeWhile isWordChar).length)) := by
  have hdrop : (mark ++ cs).drop (mark.length + (cs.takeWhile isWordChar).length)
      = cs.dropWhile isWordChar := by
    have hsplit : mark ++ cs = (mark ++ cs.takeWhile isWordChar) ++ cs.dropWhile isWordChar := by
      rw [List.append_assoc, List.takeWhile_append_dropWhile]
    conv_lhs => rw [hsplit]
    exact List.drop_left' List.length_append
  rw [hdrop]
  refine .of_head? fun d hd => ?_
  have hnot := List.head?_dropWhile_not isWordChar cs
  rw [Option.mem_def.1 hd] at hnot
  exact hnot

theorem symbol?_borders : Borders symbol? := by
  intro cs r h
  unfold symbol? at h
  split at h
  · next cs =>
    obtain rfl := Option.some.inj h
    exact border_quoted ['#', '\''] cs (by decide)
  · next cs =>
    obtain rfl := Option.some.inj h
    exact border_word ['#', ':'] cs
  · cases h

theorem punctuation?_borders : Borders punctuation? := by
  intro cs r h
  obtain ⟨p, hlongest, rfl⟩ := Option.map_eq_some_iff.1 h
  have hmark := List.find?_some hlongest
  rw [List.isPrefixOf_iff_prefix] at hmark
  rw [← List.prefix_iff_eq_take.1 hmark]
  refine .of_getLast? fun d hd => ?_
  exact (Punctuation.not_open_of_mem_spelling (List.mem_of_getLast? hd)).1

theorem word?_borders : Borders word? := by
  intro cs r h
  dsimp only [word?] at h
  split at h
  · cases h
  · obtain rfl := Option.some.inj h
    have hborder := border_word [] cs
    rwa [List.length_nil, Nat.zero_add, List.nil_append] at hborder

/-- **A lexeme ends at a border of words.** -/
theorem first_border (c : Char) (cs : List Char) :
    WordBorder ((c :: cs).take (first c cs).length) ((c :: cs).drop (first c cs).length) := by
  have hforms : Borders fun cs => docString? cs <|> blockComment? cs <|> lineComment? cs
      <|> string? cs <|> character? cs <|> symbol? cs <|> punctuation? cs <|> word? cs :=
    docString?_borders.orElse (blockComment?_borders.orElse (lineComment?_borders.orElse
      (string?_borders.orElse (character?_borders.orElse (symbol?_borders.orElse
        (punctuation?_borders.orElse word?_borders))))))
  unfold first
  cases h : (docString? (c :: cs) <|> blockComment? (c :: cs) <|> lineComment? (c :: cs)
      <|> string? (c :: cs) <|> character? (c :: cs) <|> symbol? (c :: cs)
      <|> punctuation? (c :: cs) <|> word? (c :: cs)) with
  | some r => exact hforms h
  | none =>
    -- a stray character starts no word
    simp only [Option.orElse_eq_orElse, Option.orElse_eq_or, Option.or_eq_none_iff] at h
    have hword : word? (c :: cs) = none := h.2.2.2.2.2.2.2
    refine .of_getLast? fun d hd => Bool.eq_false_iff.2 fun hc => ?_
    obtain rfl : c = d := Option.some.inj hd
    rw [word?, List.takeWhile_cons_of_pos hc] at hword
    cases hword

/-- **A word is read over its word characters.** -/
theorem take_first_of_isWord {c : Char} {cs : List Char}
    (h : (first c cs).lexeme.isWord = true) :
    ∀ d ∈ (c :: cs).take (first c cs).length, isWordChar d = true := by
  have hword := word?_of_first h
  dsimp only [word?] at hword
  split at hword
  · cases hword
  · rw [← Option.some.inj hword]
    dsimp only
    rw [← List.prefix_iff_eq_take.1 (List.takeWhile_prefix isWordChar)]
    exact fun d hd => List.mem_takeWhile_imp hd

end Reading

/-! ## Where tokens are read -/

namespace Token

/-- **A token is read at a border of words**, if the scan starts at one. -/
theorem LaidOut.exists_border {comments : Bool} {source : List Char} {c : Cursor}
    {tokens : List Token} (h : LaidOut comments c tokens) (before : List Char)
    (hsource : source = before ++ c.rest) (hoffset : Text.byteLength before = c.offset)
    (hborder : WordBorder before c.rest) {t : Token} (ht : t ∈ tokens) (hend : t.isEnd = false) :
    ∃ before char rest, source = before ++ char :: rest
      ∧ t = (Cursor.read (Text.byteLength before) char rest).1
      ∧ WordBorder before (char :: rest) := by
  induction h generalizing before with
  | stop _ =>
    obtain rfl := List.mem_singleton.1 ht
    cases hend
  | @token c gap char rest tokens hrest hgap _ _ ih =>
    have hfront : source = (before ++ gap) ++ char :: rest := by
      rw [hsource, hrest, List.append_assoc]
    have hlength : Text.byteLength (before ++ gap) = c.offset + Text.byteLength gap := by
      rw [Text.byteLength_append, hoffset]
    have hgapBorder : WordBorder (before ++ gap) (char :: rest) := by
      by_cases hne : gap = []
      · subst hne
        rw [hrest, List.nil_append] at hborder
        rwa [List.append_nil]
      · exact .append _ (hgap.filler.trivia.border hne) hne
    rcases List.mem_cons.1 ht with rfl | ht
    · exact ⟨before ++ gap, char, rest, hfront, by rw [hlength], hgapBorder⟩
    · have hpos := Reading.length_first_pos char rest
      have hne : (char :: rest).take (Reading.first char rest).length ≠ [] := by
        rw [ne_eq, List.take_eq_nil_iff]
        rintro (hzero | hnil)
        · exact absurd hzero (Nat.ne_of_gt hpos)
        · cases hnil
      refine ih ((before ++ gap) ++ (char :: rest).take (Reading.first char rest).length)
        ?_ ?_ (.append _ (Reading.first_border char rest) hne) ht
      · rw [hfront, List.append_assoc (before ++ gap)]
        exact congrArg ((before ++ gap) ++ ·) (List.take_append_drop _ _).symm
      · rw [Text.byteLength_append, hlength]
        rfl

/-- **A word of a text** is a run of word characters behind a border of words. -/
theorem exists_word {source : List Char} {t : Token} (ht : t ∈ scan source false)
    (hword : t.lexeme.isWord = true) :
    ∃ before word after, source = before ++ (word ++ after)
      ∧ t.span = ⟨Text.byteLength before, Text.byteLength before + Text.byteLength word⟩
      ∧ WordBorder before (word ++ after) ∧ ∀ c ∈ word, isWordChar c = true := by
  have hend : t.isEnd = false := by
    refine decide_eq_false fun hlast => ?_
    rw [hlast] at hword
    cases hword
  obtain ⟨before, char, rest, hsource, rfl, hborder⟩ :=
    (Cursor.tokens_laidOut false (Cursor.atStart source)).exists_border [] rfl rfl
      .nil_left ht hend
  replace hsource : source = before ++ char :: rest := hsource
  have hsplit := List.take_append_drop (Reading.first char rest).length (char :: rest)
  refine ⟨before, (char :: rest).take (Reading.first char rest).length,
    (char :: rest).drop (Reading.first char rest).length, ?_, rfl, ?_,
    Reading.take_first_of_isWord hword⟩
  · rwa [hsplit]
  · rwa [hsplit]

end Token

/-! ## The word left of a cursor -/

/-- Behind a border of words, the word characters left of a place are those since the
border. -/
theorem Completion.wordBefore_append {before word after : List Char} (hne : word ≠ [])
    (hword : ∀ c ∈ word, isWordChar c = true) (hborder : WordBorder before (word ++ after)) :
    wordBefore (before ++ (word ++ after)) (Text.byteLength (before ++ word)) = word := by
  obtain ⟨first, more, rfl⟩ := List.exists_cons_of_ne_nil hne
  have hfirst : isWordChar first = true := hword first List.mem_cons_self
  have hbefore : before.reverse.takeWhile isWordChar = [] := by
    cases hlast : before.reverse with
    | nil => rfl
    | cons c cs =>
      have hc : c ∈ before.getLast? := by rw [← List.head?_reverse, hlast]; rfl
      refine List.takeWhile_cons_of_neg fun hcword => ?_
      rw [hborder c hc hcword first rfl] at hfirst
      cases hfirst
  have hback : ∀ c ∈ (first :: more).reverse, isWordChar c = true :=
    fun c hc => hword c (List.mem_reverse.1 hc)
  rw [wordBefore, ← List.append_assoc, Text.takeBytes_append]
  dsimp only
  rw [List.reverse_append, List.takeWhile_append_of_pos hback, hbefore, List.append_nil,
    List.reverse_reverse]

/-- **The word left of a cursor is the part of the word token left of it.** Wherever a cursor
touches a keyword, an integer or an identifier of a text, other than at its start, the word
that suggestions have to begin with is what the text has from the start of this token to the
cursor. -/
theorem Analysis.complete_word (fileName : String) (text : List Char)
    (dependencies : List Analysis) (options : CompletionOptions) {t : Token}
    (ht : t ∈ Token.scan text false) (hword : t.lexeme.isWord = true) {offset : Nat}
    (hoffset : Text.IsBoundary text offset) (hstart : t.span.start < offset)
    (hstop : offset ≤ t.span.stop) :
    ∃ part, Text.slice? t.span.start offset text = some part
      ∧ ((ofText fileName text).complete dependencies options offset).word
        = String.ofList part := by
  obtain ⟨before, word, after, htext, hspan, hborder, hchars⟩ := Token.exists_word ht hword
  obtain ⟨front, back, hfront, rfl⟩ := hoffset
  rw [hspan] at hstart hstop ⊢
  dsimp only at hstart hstop ⊢
  -- the cursor cuts the word in two
  obtain ⟨part, rfl, hback⟩ := Text.exists_middle (htext.symm.trans hfront) (Nat.le_of_lt hstart)
  rw [Text.byteLength_append] at hstart hstop
  obtain ⟨more, rfl, rfl⟩ := Text.exists_middle hback.symm (by omega)
  have hne : part ≠ [] := by
    rintro rfl
    exact absurd hstart (Nat.lt_irrefl _)
  rw [List.append_assoc] at htext hborder
  have hinside : Text.byteLength (before ++ part) ≤ Text.byteLength text := by
    rw [hfront, Text.byteLength_append (before ++ part)]
    exact Nat.le_add_right _ _
  have hcomplete : ((ofText fileName text).complete dependencies options
      (Text.byteLength (before ++ part))).word = String.ofList (Completion.wordBefore text
        (min (Text.byteLength (before ++ part)) (Text.byteLength text))) := rfl
  refine ⟨part, ?_, ?_⟩
  · rw [htext, Text.byteLength_append, Text.slice?_append]
  · rw [hcomplete, Nat.min_eq_left hinside, htext, Completion.wordBefore_append hne
      (fun c hc => hchars c (List.mem_append_left _ hc)) hborder]

/-- A cursor behind the first letter of a word that follows a comment without a blank. -/
theorem complete_word_comment :
    let text := "0x/*b*/é1".toList
    let completion := (Analysis.ofText "names" text).complete [] ⟨false, none⟩ 9
    (⟨.identifier "é1", ⟨7, 10⟩⟩ : Token) ∈ Token.scan text false
      ∧ Text.IsBoundary text 9
      ∧ ∃ part, Text.slice? 7 9 text = some part ∧ completion.word = String.ofList part := by
  intro text completion
  have hmem : (⟨.identifier "é1", ⟨7, 10⟩⟩ : Token) ∈ Token.scan text false := by
    decide +kernel
  have hboundary : Text.IsBoundary text 9 :=
    ⟨"0x/*b*/é".toList, ['1'], by decide, by decide⟩
  exact ⟨hmem, hboundary,
    Analysis.complete_word "names" text [] _ hmem rfl hboundary (by decide) (by decide)⟩

end ScriptLens
