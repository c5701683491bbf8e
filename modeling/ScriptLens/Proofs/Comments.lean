import Mathlib.Data.List.Infix
import Mathlib.Data.List.TakeWhile
import ScriptLens.Token.Reading

/-!
# Blanks and comments

What may stand between two tokens, said without the functions that read it: blanks,
and comments of two forms (`Trivia`). A line comment runs to the end of its line and
a block comment to the first closing mark; at the end of the text, and only there,
either may stop without one. A block comment that starts like a documentation string
is a token and no comment.

The main statement is that a comment which is read may be put in front of what is
skipped behind it (`Reading.skips_comment`). Line comments are the delicate case: a
return before the line break is left out of the comment that is read and is skipped
as a blank, while it belongs to the line of the comment.
-/

namespace ScriptLens

/-- **Blanks and comments**, one after the other. `last` says that the text ends
behind them: only then may a line comment stop without a line break, and a block
comment without its closing mark. -/
inductive Trivia (last : Prop) : List Char → Prop
  | nil : Trivia last []
  | blank {c : Char} {cs : List Char} :
    Text.isBlank c = true → Trivia last cs → Trivia last (c :: cs)
  /-- `//` up to the end of the line. -/
  | lineComment {body rest : List Char} :
    '\n' ∉ body → rest.head? = some '\n' ∨ (rest = [] ∧ last) → Trivia last rest →
      Trivia last ('/' :: '/' :: (body ++ rest))
  /-- `/*` up to the first `*/`. -/
  | blockComment {body rest : List Char} :
    body.head? ≠ some '!' → ¬ ['*', '/'] <:+: body ++ ['*'] → Trivia last rest →
      Trivia last ('/' :: '*' :: (body ++ '*' :: '/' :: rest))
  /-- `/*` up to the end of the text. -/
  | openComment {body : List Char} :
    body.head? ≠ some '!' → ¬ ['*', '/'] <:+: body → last → Trivia last ('/' :: '*' :: body)

/-- What may stand between tokens: blanks, and comments unless these are tokens. -/
def Filler (comments : Bool) (last : Prop) (gap : List Char) : Prop :=
  if comments then ∀ c ∈ gap, Text.isBlank c = true else Trivia last gap

/-- **What is skipped before the rest of a text**: no blank follows it, and it is the
last that is skipped if nothing follows. -/
structure Skipped (comments : Bool) (gap tail : List Char) : Prop where
  filler : Filler comments (tail = []) gap
  head : ∀ c ∈ tail.head?, Text.isBlank c = false

namespace Trivia

variable {last : Prop} {gap tail : List Char}

theorem blanks_append {blanks : List Char} (hblanks : ∀ c ∈ blanks, Text.isBlank c = true)
    (h : Trivia last gap) : Trivia last (blanks ++ gap) := by
  induction blanks with
  | nil => exact h
  | cons c blanks ih =>
    exact .blank (hblanks c List.mem_cons_self)
      (ih fun d hd => hblanks d (List.mem_cons_of_mem _ hd))

theorem of_blanks (h : ∀ c ∈ gap, Text.isBlank c = true) : Trivia last gap := by
  rw [← List.append_nil gap]
  exact blanks_append h .nil

theorem of_blank_cons {c : Char} (hc : Text.isBlank c = true) (h : Trivia last (c :: gap)) :
    Trivia last gap := by
  cases h with
  | blank _ h => exact h
  | lineComment => cases hc
  | blockComment => cases hc
  | openComment => cases hc

/-- A line comment that the line break `after` ends, unless the text does, is put in
front of what is skipped from there on. -/
theorem lineComment_append {body after : List Char} (hbody : '\n' ∉ body)
    (hafter : after = [] ∨ after.head? = some '\n') (heq : after = gap ++ tail)
    (hgap : Trivia (tail = []) gap) (htail : ∀ c ∈ tail.head?, Text.isBlank c = false) :
    Trivia (tail = []) ('/' :: '/' :: (body ++ gap)) := by
  refine .lineComment hbody ?_ hgap
  subst heq
  cases gap with
  | nil =>
    rcases hafter with hnil | hbreak
    · exact .inr ⟨rfl, hnil⟩
    · cases htail _ hbreak
  | cons c gap =>
    rcases hafter with hnil | hbreak
    · cases hnil
    · exact .inl hbreak

end Trivia

theorem Filler.of_blanks {comments : Bool} {last : Prop} {gap : List Char}
    (h : ∀ c ∈ gap, Text.isBlank c = true) : Filler comments last gap := by
  cases comments with
  | true => exact h
  | false => exact Trivia.of_blanks h

/-- Neither a comment nor the end of a text. -/
def Lexeme.Plain (l : Lexeme) : Prop := l.isComment = false ∧ l ≠ .endOfFile

namespace Reading

/-! ## The texts of comments -/

/-- Where there is a part before a mark, the mark follows it and does not occur any
earlier. -/
theorem before?_eq_some {mark cs inner : List Char} (hmark : mark ≠ [])
    (h : before? mark cs = some inner) :
    ∃ rest, cs = inner ++ (mark ++ rest) ∧ ¬ mark <:+: inner ++ mark.dropLast := by
  fun_induction before? mark cs generalizing inner with
  | case1 hpre =>
    exact absurd (List.prefix_nil.1 (List.isPrefixOf_iff_prefix.1 hpre)) hmark
  | case2 => cases h
  | case3 c cs hpre =>
    obtain rfl := Option.some.inj h
    obtain ⟨rest, hrest⟩ := List.isPrefixOf_iff_prefix.1 hpre
    refine ⟨rest, hrest.symm, fun hin => ?_⟩
    have hle := hin.length_le
    rw [List.nil_append, List.length_dropLast] at hle
    have hpos := List.length_pos_iff.2 hmark
    omega
  | case4 c cs hpre ih =>
    obtain ⟨inner, hinner, rfl⟩ := Option.map_eq_some_iff.1 h
    obtain ⟨rest, rfl, hnot⟩ := ih hinner
    refine ⟨rest, rfl, fun hin => ?_⟩
    rcases List.infix_cons_iff.1 hin with hin | hin
    · -- an occurrence at the first character would have been found there
      refine hpre (List.isPrefixOf_iff_prefix.2 (hin.trans ?_))
      refine List.cons_prefix_cons.2 ⟨rfl, (List.prefix_append_right_inj inner).2 ?_⟩
      exact (List.dropLast_prefix mark).trans (List.prefix_append _ _)
    · exact hnot hin

/-- Where there is no part before a mark, the mark does not occur. -/
theorem before?_eq_none {mark cs : List Char} (h : before? mark cs = none) :
    ¬ mark <:+: cs := by
  fun_induction before? mark cs with
  | case1 => cases h
  | case2 hpre =>
    intro hin
    exact hpre (List.isPrefixOf_iff_prefix.2 (by rw [List.infix_nil.1 hin]))
  | case3 => cases h
  | case4 c cs hpre ih =>
    intro hin
    rcases List.infix_cons_iff.1 hin with hin | hin
    · exact hpre (List.isPrefixOf_iff_prefix.2 hin)
    · exact ih (Option.map_eq_none_iff.1 h) hin

/-- **What stands between two marks** ends at the first closing mark, or at the end of
the text where there is none. -/
theorem between_append (opening content : List Char) {closing : List Char}
    (hclosing : closing ≠ []) :
    (∃ inner rest, content = inner ++ (closing ++ rest)
        ∧ ¬ closing <:+: inner ++ closing.dropLast
        ∧ between opening closing (opening ++ content)
          = (String.ofList inner, opening.length + inner.length + closing.length, true))
      ∨ (¬ closing <:+: content
        ∧ between opening closing (opening ++ content)
          = (String.ofList content, opening.length + content.length, false)) := by
  have hdrop : (opening ++ content).drop opening.length = content := List.drop_left
  cases hbefore : before? closing content with
  | some inner =>
    obtain ⟨rest, hcontent, hfirst⟩ := before?_eq_some hclosing hbefore
    refine .inl ⟨inner, rest, hcontent, hfirst, ?_⟩
    simp only [between, hdrop, hbefore]
  | none =>
    refine .inr ⟨before?_eq_none hbefore, ?_⟩
    simp only [between, hdrop, hbefore]

theorem exists_of_isPrefixOf {mark cs : List Char} (h : mark.isPrefixOf cs = true) :
    ∃ content, cs = mark ++ content := by
  obtain ⟨content, hcontent⟩ := List.isPrefixOf_iff_prefix.1 h
  exact ⟨content, hcontent.symm⟩

theorem lineComment?_eq_some {cs : List Char} {r : Reading} (h : lineComment? cs = some r) :
    ∃ content, cs = '/' :: '/' :: content
      ∧ r = ⟨.lineComment (String.ofList (lineCommentText content)),
        2 + (lineCommentText content).length⟩ := by
  unfold lineComment? at h
  split at h
  · next hmark =>
    obtain ⟨content, rfl⟩ := exists_of_isPrefixOf hmark
    exact ⟨content, rfl, (Option.some.inj h).symm⟩
  · cases h

/-- The text of a line comment, the return that may end its line, and what follows
the line. -/
theorem lineCommentText_append (cs : List Char) :
    ∃ ret after, cs = lineCommentText cs ++ (ret ++ after) ∧ (ret = [] ∨ ret = ['\r'])
      ∧ '\n' ∉ lineCommentText cs ∧ (after = [] ∨ after.head? = some '\n') := by
  have hline : '\n' ∉ cs.takeWhile (· ≠ '\n') := by
    intro hmem
    simpa using List.mem_takeWhile_imp hmem
  have hafter : cs.dropWhile (· ≠ '\n') = [] ∨ (cs.dropWhile (· ≠ '\n')).head? = some '\n' := by
    have hhead := List.head?_dropWhile_not (· ≠ '\n') cs
    cases hdrop : cs.dropWhile (· ≠ '\n') with
    | nil => exact .inl rfl
    | cons c rest =>
      rw [hdrop] at hhead
      exact .inr (congrArg some (by simpa using hhead))
  have happend : cs = cs.takeWhile (· ≠ '\n') ++ cs.dropWhile (· ≠ '\n') :=
    List.takeWhile_append_dropWhile.symm
  unfold lineCommentText
  dsimp only
  split
  · next hlast =>
    refine ⟨['\r'], cs.dropWhile (· ≠ '\n'), ?_, .inr rfl,
      fun hmem => hline (List.dropLast_subset _ hmem), hafter⟩
    rw [← List.append_assoc, List.dropLast_append_getLast? _ hlast]
    exact happend
  · exact ⟨[], cs.dropWhile (· ≠ '\n'), happend, .inl rfl, hline, hafter⟩

/-! ## Which readings are comments -/

theorem plain_of_docString? {cs : List Char} {r : Reading} (h : docString? cs = some r) :
    r.lexeme.Plain := by
  unfold docString? at h
  split at h
  · obtain rfl := Option.some.inj h
    exact ⟨rfl, nofun⟩
  · cases h

theorem plain_wordLexeme (word : List Char) : (wordLexeme word).Plain := by
  unfold wordLexeme
  split
  · exact ⟨rfl, nofun⟩
  · split
    · exact ⟨rfl, nofun⟩
    · exact ⟨rfl, nofun⟩

theorem plain_of_later {cs : List Char} {r : Reading}
    (h : (string? cs <|> character? cs <|> symbol? cs <|> punctuation? cs <|> word? cs) = some r) :
    r.lexeme.Plain := by
  simp only [Option.orElse_eq_orElse, Option.orElse_eq_or, Option.or_eq_some_iff] at h
  rcases h with h | ⟨-, h | ⟨-, h | ⟨-, h | ⟨-, h⟩⟩⟩⟩
  · unfold string? at h
    split at h <;> cases h
    exact ⟨rfl, nofun⟩
  · unfold character? at h
    split at h <;> cases h
    exact ⟨rfl, nofun⟩
  · unfold symbol? at h
    split at h <;> cases h <;> exact ⟨rfl, nofun⟩
  · obtain ⟨p, -, rfl⟩ := Option.map_eq_some_iff.1 h
    exact ⟨rfl, nofun⟩
  · dsimp only [word?] at h
    split at h
    · cases h
    · obtain rfl := Option.some.inj h
      exact plain_wordLexeme _

/-- **What is read is a comment in two forms only**: a block comment where no
documentation string starts, and a line comment. -/
theorem first_plain_or (c : Char) (cs : List Char) :
    (first c cs).lexeme.Plain
      ∨ (docString? (c :: cs) = none ∧ blockComment? (c :: cs) = some (first c cs))
      ∨ lineComment? (c :: cs) = some (first c cs) := by
  unfold first
  cases hdoc : docString? (c :: cs) with
  | some r => exact .inl (plain_of_docString? hdoc)
  | none =>
    cases hblock : blockComment? (c :: cs) with
    | some r => exact .inr (.inl ⟨rfl, rfl⟩)
    | none =>
      cases hline : lineComment? (c :: cs) with
      | some r => exact .inr (.inr rfl)
      | none =>
        refine .inl ?_
        cases hlater : (string? (c :: cs) <|> character? (c :: cs) <|> symbol? (c :: cs)
            <|> punctuation? (c :: cs) <|> word? (c :: cs)) with
        | none => exact ⟨rfl, nofun⟩
        | some r => exact plain_of_later hlater

theorem lexeme_blockComment? {cs : List Char} {r : Reading} (h : blockComment? cs = some r) :
    ∃ text closed, r.lexeme = .blockComment text closed := by
  unfold blockComment? at h
  split at h
  · obtain rfl := Option.some.inj h
    exact ⟨_, _, rfl⟩
  · cases h

/-- The end of a text is never read from a character. -/
theorem lexeme_first_ne (c : Char) (cs : List Char) : (first c cs).lexeme ≠ .endOfFile := by
  rcases first_plain_or c cs with hplain | ⟨-, hblock⟩ | hline
  · exact hplain.2
  · obtain ⟨text, closed, hlexeme⟩ := lexeme_blockComment? hblock
    rw [hlexeme]
    nofun
  · obtain ⟨content, -, hreading⟩ := lineComment?_eq_some hline
    rw [hreading]
    nofun

/-! ## Skipping comments -/

variable {gap tail : List Char}

theorem skips_lineComment {cs : List Char} {r : Reading} (h : lineComment? cs = some r)
    (hdrop : cs.drop r.length = gap ++ tail) (hskip : Skipped false gap tail) :
    Trivia (tail = []) (cs.take r.length ++ gap) := by
  obtain ⟨content, rfl, rfl⟩ := lineComment?_eq_some h
  obtain ⟨ret, after, hsplit, hret, hbody, hafter⟩ := lineCommentText_append content
  generalize lineCommentText content = body at hsplit hbody hdrop ⊢
  subst hsplit
  have hword : '/' :: '/' :: (body ++ (ret ++ after)) = ('/' :: '/' :: body) ++ (ret ++ after) :=
    rfl
  have hlength : ('/' :: '/' :: body).length = 2 + body.length := Nat.add_comm body.length 2
  rw [hword, List.drop_left' hlength] at hdrop
  rw [hword, List.take_left' hlength]
  rcases hret with rfl | rfl
  · exact Trivia.lineComment_append hbody hafter hdrop hskip.filler hskip.head
  · -- the return is skipped as the first blank, and goes back to the line of the comment
    cases gap with
    | nil =>
      have hblank := hskip.head '\r' (by rw [← List.nil_append tail, ← hdrop]; rfl)
      cases hblank
    | cons c gap =>
      obtain ⟨rfl, hafter'⟩ := List.cons.inj hdrop
      have hbody' : '\n' ∉ body ++ ['\r'] := by simpa using hbody
      have hgap : Trivia (tail = []) gap := Trivia.of_blank_cons rfl hskip.filler
      have hline := Trivia.lineComment_append hbody' hafter hafter' hgap hskip.head
      rwa [List.append_assoc] at hline

theorem skips_blockComment {cs : List Char} {r : Reading} (hdoc : docString? cs = none)
    (h : blockComment? cs = some r) (hdrop : cs.drop r.length = gap ++ tail)
    (hskip : Skipped false gap tail) : Trivia (tail = []) (cs.take r.length ++ gap) := by
  unfold blockComment? at h
  split at h
  swap
  · cases h
  next hmark =>
  obtain ⟨content, rfl⟩ := exists_of_isPrefixOf hmark
  have hhead : content.head? ≠ some '!' := by
    intro hbang
    obtain ⟨rest, rfl⟩ := List.head?_eq_some_iff.1 hbang
    cases hdoc
  rcases between_append ['/', '*'] content (List.cons_ne_nil '*' ['/']) with
    ⟨inner, rest, rfl, hfirst, hbetween⟩ | ⟨hnone, hbetween⟩
  · rw [hbetween] at h
    obtain rfl := Option.some.inj h
    have hword : ['/', '*'] ++ (inner ++ (['*', '/'] ++ rest))
        = (['/', '*'] ++ inner ++ ['*', '/']) ++ rest := by
      rw [List.append_assoc, List.append_assoc]
    have hlength : (['/', '*'] ++ inner ++ ['*', '/']).length
        = ['/', '*'].length + inner.length + ['*', '/'].length := by
      rw [List.length_append, List.length_append]
    rw [hword, List.drop_left' hlength] at hdrop
    subst hdrop
    rw [hword, List.take_left' hlength]
    have hbody : inner.head? ≠ some '!' := by
      intro hbang
      obtain ⟨inner, rfl⟩ := List.head?_eq_some_iff.1 hbang
      exact hhead rfl
    simpa using Trivia.blockComment hbody hfirst hskip.filler
  · -- without a closing mark the comment takes all that is left
    rw [hbetween] at h
    obtain rfl := Option.some.inj h
    have hlength : (['/', '*'] ++ content).length ≤ ['/', '*'].length + content.length :=
      Nat.le_of_eq List.length_append
    rw [List.drop_eq_nil_of_le hlength] at hdrop
    obtain ⟨rfl, rfl⟩ := List.append_eq_nil_iff.1 hdrop.symm
    rw [List.take_of_length_le hlength, List.append_nil]
    exact .openComment hhead hnone rfl

/-- **A comment that is read may be skipped** together with what is skipped behind
it. -/
theorem skips_comment {c : Char} {cs : List Char} (h : (first c cs).lexeme.isComment = true)
    (hdrop : (c :: cs).drop (first c cs).length = gap ++ tail)
    (hskip : Skipped false gap tail) :
    Trivia (tail = []) ((c :: cs).take (first c cs).length ++ gap) := by
  rcases first_plain_or c cs with hplain | ⟨hdoc, hblock⟩ | hline
  · rw [hplain.1] at h
    cases h
  · exact skips_blockComment hdoc hblock hdrop hskip
  · exact skips_lineComment hline hdrop hskip

end Reading

end ScriptLens
