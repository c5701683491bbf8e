import ScriptLens.Proofs.CompletedNodes
import ScriptLens.Proofs.TextLines
import ScriptLens.Tree.Listing

/-!
# Lines of a listing

A listing has one line for each node only if no node's line breaks in two. Texts and messages
are quoted in a listing, which leaves no line feed in them, and numbers and the names of kinds
have none. What is not quoted are words: a name, and the name of a type. Their characters are
those of a token, so the matter is where a word comes from.

A word of the tree is a word of the text (`SourceTree.parse_words`): a token of the kind of an
identifier spells it, with or without `::` in front. Such a token is a run of word characters,
or else a single character that fits nowhere, and neither is a blank.
-/

namespace ScriptLens

open Node

/-! ## Words -/

namespace Reading

variable {c d : Char} {cs : List Char} {name : String}

/-- An identifier is the run of word characters at which it starts. -/
theorem toList_of_first (h : (first c cs).lexeme = .identifier name) :
    name.toList = (c :: cs).takeWhile isWordChar := by
  have hword := @word?_of_first c cs (by rw [h]; rfl)
  dsimp only [word?] at hword
  split at hword
  · cases hword
  · rw [← Option.some.inj hword] at h
    unfold wordLexeme at h
    split at h
    · cases h
    · split at h
      · cases h
      · rw [← Lexeme.identifier.inj h, String.toList_ofList]

theorem isWord_word? {r : Reading} (h : word? cs = some r) : r.lexeme.isWord = true := by
  dsimp only [word?] at h
  split at h
  · cases h
  · rw [← Option.some.inj h]
    unfold wordLexeme
    split
    · rfl
    · split <;> rfl

/-- A character that fits nowhere is the one at which it is read. -/
theorem eq_of_first_stray (h : (first c cs).lexeme = .stray d) : d = c := by
  unfold first at h
  cases hforms : (docString? (c :: cs) <|> blockComment? (c :: cs) <|> lineComment? (c :: cs)
      <|> string? (c :: cs) <|> character? (c :: cs) <|> symbol? (c :: cs)
      <|> punctuation? (c :: cs) <|> word? (c :: cs)) with
  | none =>
    rw [hforms] at h
    exact (Lexeme.stray.inj h).symm
  | some r =>
    -- no form of its own reads such a character
    rw [hforms] at h
    replace h : r.lexeme = .stray d := h
    simp only [Option.orElse_eq_orElse, Option.orElse_eq_or, Option.or_eq_some_iff] at hforms
    rcases hforms with hr | ⟨-, hr | ⟨-, hr | ⟨-, hr | ⟨-, hr | ⟨-, hr | ⟨-, hr | ⟨-, hr⟩⟩⟩⟩⟩⟩⟩
    · unfold docString? at hr
      split at hr <;> cases hr
      cases h
    · obtain ⟨_, _, hlexeme⟩ := lexeme_blockComment? hr
      rw [hlexeme] at h
      cases h
    · obtain ⟨_, -, rfl⟩ := lineComment?_eq_some hr
      cases h
    · unfold string? at hr
      split at hr <;> cases hr
      cases h
    · unfold character? at hr
      split at hr <;> cases hr
      cases h
    · unfold symbol? at hr
      split at hr <;> cases hr <;> cases h
    · obtain ⟨p, -, rfl⟩ := Option.map_eq_some_iff.1 hr
      cases h
    · have hword := isWord_word? hr
      rw [h] at hword
      cases hword

end Reading

/-- A token of the kind of an identifier has no line feed in it. -/
theorem Token.newline_notMem_text {text : List Char} {t : Token}
    (ht : t ∈ Parser.tokensOf text) (hkind : t.kind = .identifier) :
    '\n' ∉ t.lexeme.text.toList := by
  obtain ⟨before, char, rest, -, hblank, hread⟩ := exists_first ht
  have hlexeme : t.lexeme = (Reading.first char rest).lexeme := by rw [hread]; rfl
  cases h : t.lexeme with
  | identifier name =>
    intro hmem
    have hword : '\n' ∈ name.toList := hmem
    rw [Reading.toList_of_first (hlexeme ▸ h)] at hword
    exact absurd (List.mem_takeWhile_imp hword) (by decide)
  | stray c =>
    intro hmem
    obtain rfl := Reading.eq_of_first_stray (hlexeme ▸ h)
    have hchar : '\n' = c := by simpa [Lexeme.text, Lexeme.value?] using hmem
    rw [← hchar] at hblank
    cases hblank
  | _ =>
    rw [Token.kind, h] at hkind
    cases hkind

namespace Parser

variable {r : Setting} {tokens : List Token}

theorem WordOf.mono {tokens' : List Token} {word : String} (h : WordOf tokens word)
    (hsub : tokens ⊆ tokens') : WordOf tokens' word := by
  refine h.imp_right ?_
  rintro ⟨t, ht, hword⟩
  exact ⟨t, hsub ht, hword⟩

theorem WordOf.newline_notMem {text : List Char} {word : String}
    (h : WordOf (tokensOf text) word) : '\n' ∉ word.toList := by
  rcases h with rfl | ⟨t, ht, hkind, rfl | rfl⟩
  · decide
  · exact t.newline_notMem_text ht hkind
  · rw [String.toList_append, List.mem_append]
    exact not_or.2 ⟨by decide, t.newline_notMem_text ht hkind⟩

/-- **A word is completed where its token is.** -/
theorem completedWith_word : CompletedWith r tokens fun n =>
    ∀ word, n.payload.word? = some word → WordOf tokens word where
  missing _ _ _ _ _ hword := by cases hword
  wrong _ _ _ _ _ hword := by cases hword
  finish hat _ _ hout _ _ word hword := (hout.word word hword).mono hat.upcoming_subset
  openBlock _ _ _ _ hword := by cases hword

end Parser

/-- **Words of a tree are words of its text.** -/
theorem SourceTree.parse_words (fileName : String) (text : List Char) :
    ∀ n ∈ (SourceTree.parse fileName text).nodes, ∀ word, n.payload.word? = some word →
      Parser.WordOf (Parser.tokensOf text) word := by
  refine SourceTree.forall_nodes Parser.completedWith_word fun n statements hn word hword => ?_
  rw [hn] at hword
  cases hword

/-! ## Texts on one line -/

/-- Whether a text has no line feed. -/
def OneLine (s : String) : Prop := '\n' ∉ s.toList

instance (s : String) : Decidable (OneLine s) := inferInstanceAs (Decidable ('\n' ∉ s.toList))

namespace OneLine

variable {s t : String}

theorem append (hs : OneLine s) (ht : OneLine t) : OneLine (s ++ t) := by
  rw [OneLine, String.toList_append, List.mem_append]
  exact not_or.2 ⟨hs, ht⟩

theorem join {l : List String} (h : ∀ s ∈ l, OneLine s) : OneLine (String.join l) := by
  rw [OneLine, String.toList_join, List.mem_flatMap]
  rintro ⟨s, hs, hmem⟩
  exact h s hs hmem

theorem intercalate {l : List String} (hs : OneLine s) (h : ∀ t ∈ l, OneLine t) :
    OneLine (s.intercalate l) := by
  induction l with
  | nil => exact List.not_mem_nil
  | cons t l ih =>
    obtain ⟨ht, hl⟩ := List.forall_mem_cons.1 h
    by_cases hnil : l = []
    · rwa [hnil, String.intercalate_singleton]
    · rw [String.intercalate_cons_of_ne_nil hnil]
      exact (ht.append hs).append (ih hl)

end OneLine

/-! What a listing is put together of is on one line each. -/

theorem newline_notMem_toDigits {base : Nat} (hbase : 1 < base) (n : Nat) :
    '\n' ∉ Nat.toDigits base n := by
  have hdigit : ∀ k : Nat, '\n' ≠ k.digitChar := fun k => (Nat.digitChar_ne '\n' (by decide)).symm
  induction n using Nat.strong_induction_on with
  | _ n ih =>
    by_cases hlt : n < base
    · rw [Nat.toDigits_of_lt_base hlt, List.mem_singleton]
      exact hdigit n
    · rw [Nat.toDigits_of_base_le hbase (Nat.le_of_not_lt hlt), List.mem_append,
        List.mem_singleton]
      have hpos : 0 < n := by omega
      exact not_or.2 ⟨ih _ (Nat.div_lt_self hpos hbase), hdigit _⟩

theorem oneLine_repr (n : Nat) : OneLine (Nat.repr n) := by
  rw [OneLine, Nat.toList_repr]
  exact newline_notMem_toDigits (by decide) n

theorem newline_notMem_quoteChar {quote : Char} (hquote : quote ≠ '\n') (c : Char) :
    '\n' ∉ Text.quoteChar quote c := by
  have hcode : '\n' ∉ Text.codePointEscape c := by
    have hhex : '\n' ∉ Text.hexDigits c.toNat := newline_notMem_toDigits (by decide) _
    simp [Text.codePointEscape, hhex]
  unfold Text.quoteChar
  split_ifs with h₀ h₁ h₂ h₃ h₄ h₅ h₆
  · decide
  · decide
  · decide
  · decide
  · decide
  · simpa using hquote.symm
  · rw [List.mem_singleton]
    exact Ne.symm h₃
  · exact hcode

theorem oneLine_quoteString (s : String) : OneLine (Text.quoteString s) := by
  rw [OneLine, Text.quoteString, String.toList_ofList, Text.quotedText]
  intro hmem
  have hinside : '\n' ∈ s.toList.flatMap (Text.quoteChar '"') := by simpa using hmem
  obtain ⟨c, -, hc⟩ := List.mem_flatMap.1 hinside
  exact newline_notMem_quoteChar (by decide) c hc

theorem oneLine_render (value : LiteralValue) : OneLine value.render := by
  have hclose : OneLine ")" := by decide
  cases value with
  | int n => exact (OneLine.append (by decide) (oneLine_repr n)).append hclose
  | string text => exact (OneLine.append (by decide) (oneLine_quoteString text)).append hclose
  | symbol name => exact (OneLine.append (by decide) (oneLine_quoteString name)).append hclose
  | char c =>
    refine (OneLine.append (by decide) ?_).append hclose
    rw [OneLine, String.toList_ofList, Text.quotedChar]
    have hquoted := @newline_notMem_quoteChar '\'' (by decide) c
    simp [hquoted]
  | bool value => cases value <;> decide
  | nil => decide
  | this => decide

theorem oneLine_name_punctuation (mark : Punctuation) : OneLine mark.name := by
  cases mark <;> decide

theorem oneLine_name_kind (kind : NodeKind) : OneLine kind.name := by
  cases kind <;> decide

theorem oneLine_arraySuffix (depth : Nat) : OneLine (arraySuffix depth) := by
  refine .join fun s hs => ?_
  rw [(List.mem_replicate.1 hs).2]
  decide

/-! ## Lines -/

namespace Node

variable {n : Node}

/-- A type is written on one line if its words are. -/
theorem oneLine_typeText
    (h : ∀ m ∈ n.postorder, ∀ word, m.payload.word? = some word → OneLine word) :
    OneLine n.typeText := by
  induction n using childInduction with
  | step n ih =>
    obtain ⟨hparts, hself⟩ := forall_mem_postorder.1 h
    obtain ⟨id, span, payload⟩ := n
    unfold typeText
    split
    · next head depth heq =>
      obtain rfl : payload = .typeName head depth := congrArg Node.payload heq
      refine .append ?_ (oneLine_arraySuffix depth)
      cases head with
      | basic t => cases t <;> decide
      | nil => decide
      | named name => exact hself name rfl
    · next returnType parameters variadic depth heq =>
      obtain rfl : payload = .functionType returnType parameters variadic depth :=
        congrArg Node.payload heq
      have hreturn : OneLine returnType.typeText :=
        ih _ List.mem_cons_self (hparts _ List.mem_cons_self)
      have hparameters : ∀ s ∈ parameters.map typeText, OneLine s := by
        refine List.forall_mem_map.2 fun p hp => ?_
        exact ih p (List.mem_cons_of_mem _ hp) (hparts p (List.mem_cons_of_mem _ hp))
      have hhead := (OneLine.append (s := "function<") (by decide) hreturn).append
        (t := "(") (by decide)
      exact ((hhead.append (.intercalate (by decide) hparameters)).append (by decide)).append
        (oneLine_arraySuffix depth)
    · decide
    · decide

/-- What a node says is on one line. -/
theorem oneLine_detail
    (h : ∀ m ∈ n.postorder, ∀ word, m.payload.word? = some word → OneLine word) :
    OneLine ((n.detail.map (" " ++ ·)).getD "") := by
  have hall : ∀ text ∈ n.detail, OneLine text := by
    intro text htext
    unfold detail at htext
    split at htext
    · next name heq =>
      obtain rfl := Option.some.inj htext
      exact (forall_mem_postorder.1 h).2 name (by rw [heq]; rfl)
    · obtain rfl := Option.some.inj htext
      exact oneLine_render _
    · obtain rfl := Option.some.inj htext
      exact oneLine_typeText h
    · obtain rfl := Option.some.inj htext
      exact oneLine_typeText h
    · obtain rfl := Option.some.inj htext
      exact oneLine_name_punctuation _
    · obtain rfl := Option.some.inj htext
      exact oneLine_name_punctuation _
    · obtain rfl := Option.some.inj htext
      exact oneLine_name_punctuation _
    · obtain rfl := Option.some.inj htext
      exact oneLine_quoteString _
    · obtain rfl := Option.some.inj htext
      exact oneLine_quoteString _
    · cases htext
  cases hdetail : n.detail with
  | none => exact List.not_mem_nil
  | some text => exact OneLine.append (by decide) (hall text hdetail)

/-- **A node's line is one line.** -/
theorem exists_line (depth : Nat)
    (h : ∀ m ∈ n.postorder, ∀ word, m.payload.word? = some word → OneLine word) :
    ∃ line, OneLine line ∧ n.line depth = line ++ "\n" := by
  have hindent : OneLine (String.ofList (List.replicate (2 * depth) ' ')) := by
    rw [OneLine, String.toList_ofList]
    intro hmem
    exact absurd (List.eq_of_mem_replicate hmem) (by decide)
  have hspan := (((hindent.append (oneLine_name_kind n.kind)).append (t := " [") (by decide)).append
    (oneLine_repr n.span.start)).append (t := ", ") (by decide)
  refine ⟨_, ((hspan.append (oneLine_repr n.span.stop)).append (by decide)).append
    (oneLine_detail h), rfl⟩

end Node

end ScriptLens
