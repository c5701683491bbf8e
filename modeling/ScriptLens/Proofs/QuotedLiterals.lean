import Mathlib.Algebra.Group.Nat.Even
import Mathlib.Data.List.DropRight
import ScriptLens.Proofs.Lookahead
import ScriptLens.Proofs.TextLines

/-!
# Where quoted literals end

A quote ends a literal if the backslashes right before it are even in number, none included
(`Quoted.Closes`). The reader never counts them. It reads content from the left, character by
character and escape by escape, and ends at the first quote that it comes to. The two come to
the same because whatever the reader takes in one go can be left out when backslashes are
counted (`Quoted.Passed`): a character stops the count, and so do the digits behind `\x`, while
a backslash and the character that it takes are either two backslashes or none.

Escaping is the other direction. With a backslash before each quote and each backslash, any
text is the content of a string that says this text (`Quoted.read_escape`).
-/

namespace ScriptLens

namespace Quoted

/-! ## Backslashes before a quote -/

/-- The number of backslashes right before the end of a text. -/
def backslashes (inner : List Char) : Nat := (inner.rtakeWhile (· = '\\')).length

/-- A text of backslashes counts as a whole. -/
theorem backslashes_of_forall {inner : List Char} (h : ∀ c ∈ inner, c = '\\') :
    backslashes inner = inner.length := by
  have hall : ∀ c ∈ inner.reverse, decide (c = '\\') = true := fun c hc =>
    decide_eq_true (h c (List.mem_reverse.1 hc))
  rw [backslashes, List.rtakeWhile, List.takeWhile_eq_self_iff.2 hall, List.reverse_reverse]

/-- Behind a character other than a backslash, what comes before does not count. -/
theorem backslashes_append {inner : List Char} (before : List Char)
    (h : ∃ c ∈ inner, c ≠ '\\') : backslashes (before ++ inner) = backslashes inner := by
  obtain ⟨c, hc, hne⟩ := h
  have hstop : (inner.reverse.takeWhile (· = '\\')).length ≠ inner.reverse.length := by
    intro hlength
    have hall := (List.takeWhile_prefix (· = '\\')).eq_of_length hlength
    rw [List.takeWhile_eq_self_iff] at hall
    exact hne (of_decide_eq_true (hall c (List.mem_reverse.2 hc)))
  rw [backslashes, List.rtakeWhile, List.reverse_append, List.takeWhile_append, if_neg hstop]
  rfl

/-- **A character other than a backslash** does not count. -/
theorem backslashes_char {c : Char} (hc : c ≠ '\\') (inner : List Char) :
    backslashes (c :: inner) = backslashes inner := by
  by_cases hall : ∀ d ∈ inner, d = '\\'
  · have hback : ∀ d ∈ inner.reverse, decide (d = '\\') = true := fun d hd =>
      decide_eq_true (hall d (List.mem_reverse.1 hd))
    rw [backslashes_of_forall hall, backslashes, List.rtakeWhile, List.reverse_cons,
      List.takeWhile_append_of_pos hback, List.takeWhile_cons_of_neg (by simpa using hc),
      List.append_nil, List.reverse_reverse]
  · push Not at hall
    exact backslashes_append [c] hall

/-- **A backslash and the next character** do not change whether the number is even. -/
theorem even_backslashes_escape (letter : Char) (inner : List Char) :
    Even (backslashes ('\\' :: letter :: inner)) ↔ Even (backslashes inner) := by
  by_cases hletter : letter = '\\'
  · subst hletter
    by_cases hall : ∀ d ∈ inner, d = '\\'
    · have hall' : ∀ d ∈ '\\' :: '\\' :: inner, d = '\\' := by simpa using hall
      rw [backslashes_of_forall hall, backslashes_of_forall hall', List.length_cons,
        List.length_cons, Nat.even_add_one, Nat.even_add_one, not_not]
    · push Not at hall
      exact iff_of_eq (congrArg Even (backslashes_append ['\\', '\\'] hall))
  · have hstop : backslashes (['\\'] ++ letter :: inner) = backslashes (letter :: inner) :=
      backslashes_append ['\\'] ⟨letter, List.mem_cons_self, hletter⟩
    rw [← backslashes_char hletter inner, ← hstop]
    rfl

/-- **A quote behind `inner` closes** content: it is not escaped, since the backslashes right
before it pair up. -/
def Closes (quote : Char) (content inner : List Char) : Prop :=
  inner ++ [quote] <+: content ∧ Even (backslashes inner)

/-- **Content ends behind `inner`**, at the first quote that closes it. -/
structure EndsBehind (quote : Char) (content inner : List Char) : Prop where
  closes : Closes quote content inner
  first : ∀ other, Closes quote content other → inner.length ≤ other.length

/-- What is read of some content ends where it should: right behind the first quote that closes
it, or at the end of the text if there is none, and then the content is left open. -/
def Content.Ends (quote : Char) (content : List Char) (r : Content) : Prop :=
  (∃ inner, EndsBehind quote content inner ∧ r.length = inner.length + 1 ∧ r.closed = true)
    ∨ ((∀ inner, ¬ Closes quote content inner) ∧ r.length = content.length ∧ r.closed = false)

/-- **A part of content that may be passed over**: no quote in it closes, and those behind it
close or not as if it were not there. -/
def Passed (quote : Char) (part : List Char) : Prop :=
  ∀ content inner, Closes quote (part ++ content) inner
    ↔ ∃ rest, inner = part ++ rest ∧ Closes quote content rest

variable {quote : Char}

theorem Closes.mem {content inner : List Char} (h : Closes quote content inner) :
    quote ∈ content :=
  h.1.subset (List.mem_append_right _ List.mem_cons_self)

theorem Passed.append {part more : List Char} (hpart : Passed quote part)
    (hmore : Passed quote more) : Passed quote (part ++ more) := by
  intro content inner
  rw [List.append_assoc, hpart]
  constructor
  · rintro ⟨_, rfl, hrest⟩
    obtain ⟨rest, rfl, hclose⟩ := (hmore _ _).1 hrest
    exact ⟨rest, (List.append_assoc ..).symm, hclose⟩
  · rintro ⟨rest, rfl, hclose⟩
    exact ⟨more ++ rest, List.append_assoc .., (hmore _ _).2 ⟨rest, rfl, hclose⟩⟩

/-- A character that is neither a quote nor a backslash may be passed over. -/
theorem Passed.char {c : Char} (hquote : c ≠ quote) (hescape : c ≠ '\\') :
    Passed quote [c] := by
  intro content inner
  constructor
  · rintro ⟨hbegins, heven⟩
    cases inner with
    | nil => exact absurd (List.cons_prefix_cons.1 hbegins).1.symm hquote
    | cons d inner =>
      obtain ⟨rfl, hrest⟩ := List.cons_prefix_cons.1 hbegins
      exact ⟨inner, rfl, hrest, backslashes_char hescape inner ▸ heven⟩
  · rintro ⟨rest, rfl, hbegins, heven⟩
    exact ⟨List.cons_prefix_cons.2 ⟨rfl, hbegins⟩, (backslashes_char hescape rest).symm ▸ heven⟩

/-- An escape may be passed over, whatever character it takes. -/
theorem Passed.escape (hquote : quote ≠ '\\') (letter : Char) : Passed quote ['\\', letter] := by
  intro content inner
  constructor
  · rintro ⟨hbegins, heven⟩
    match inner with
    | [] => exact absurd (List.cons_prefix_cons.1 hbegins).1 hquote
    | [d] =>
      -- a quote right behind the backslash is taken by it
      obtain ⟨rfl, -⟩ := List.cons_prefix_cons.1 hbegins
      exact absurd heven (by decide)
    | d :: e :: inner =>
      obtain ⟨rfl, htail⟩ := List.cons_prefix_cons.1 hbegins
      obtain ⟨rfl, hrest⟩ := List.cons_prefix_cons.1 htail
      exact ⟨inner, rfl, hrest, (even_backslashes_escape _ inner).1 heven⟩
  · rintro ⟨rest, rfl, hbegins, heven⟩
    refine ⟨?_, (even_backslashes_escape letter rest).2 heven⟩
    exact List.cons_prefix_cons.2 ⟨rfl, List.cons_prefix_cons.2 ⟨rfl, hbegins⟩⟩

theorem Passed.nil : Passed quote [] := fun _ inner => by simp

theorem Passed.of_forall {part : List Char} (h : ∀ c ∈ part, c ≠ quote ∧ c ≠ '\\') :
    Passed quote part := by
  induction part with
  | nil => exact .nil
  | cons c part ih =>
    obtain ⟨hc, hpart⟩ := List.forall_mem_cons.1 h
    exact (Passed.char hc.1 hc.2).append (ih hpart)

/-- **Reading goes on behind what may be passed over.** -/
theorem Passed.ends {part content : List Char} {r r' : Content} (hpart : Passed quote part)
    (h : r.Ends quote content) (hlength : r'.length = part.length + r.length)
    (hclosed : r'.closed = r.closed) : r'.Ends quote (part ++ content) := by
  rcases h with ⟨inner, hends, hr, hc⟩ | ⟨hnone, hr, hc⟩
  · refine .inl ⟨part ++ inner, ⟨(hpart _ _).2 ⟨inner, rfl, hends.closes⟩, ?_⟩, ?_,
      hclosed.trans hc⟩
    · intro other hother
      obtain ⟨rest, rfl, hrest⟩ := (hpart _ _).1 hother
      rw [List.length_append, List.length_append]
      exact Nat.add_le_add_left (hends.first rest hrest) _
    · rw [hlength, hr, List.length_append, Nat.add_assoc]
  · refine .inr ⟨?_, ?_, hclosed.trans hc⟩
    · intro inner hinner
      obtain ⟨rest, -, hrest⟩ := (hpart _ _).1 hinner
      exact hnone rest hrest
    · rw [hlength, hr, List.length_append]

/-- The characters that an escape takes behind its letter are digits. -/
theorem isSome_hexValue? {letter c : Char} {cs : List Char}
    (hc : c ∈ cs.take (readEscape letter cs).2) : (hexValue? c).isSome = true := by
  unfold readEscape at hc
  split at hc
  · rcases cs with _ | ⟨high, _ | ⟨low, cs⟩⟩
    · cases hc
    · cases hhigh : hexValue? high <;> simp [hhigh] at hc
      rw [hc, hhigh]
      rfl
    · cases hhigh : hexValue? high <;> cases hlow : hexValue? low <;> simp [hhigh, hlow] at hc
      · rw [hc, hhigh]
        rfl
      · rcases hc with rfl | rfl
        · rw [hhigh]
          rfl
        · rw [hlow]
          rfl
  · cases hc

/-- **Reading ends where the literal does.** By the recursion of the reader, which passes over
one character or one escape, with the digits that this takes, at a time. -/
theorem read_ends (hquote : quote ≠ '\\') (hdigit : hexValue? quote = none) (cs : List Char) :
    (read quote cs).Ends quote cs := by
  fun_induction read quote cs with
  | case1 => exact .inr ⟨fun _ hinner => List.not_mem_nil hinner.mem, rfl, rfl⟩
  | case2 cs =>
    have hcloses : Closes quote (quote :: cs) [] := ⟨⟨cs, rfl⟩, by decide⟩
    exact .inl ⟨[], ⟨hcloses, fun _ _ => Nat.zero_le _⟩, rfl, rfl⟩
  | case3 _ => exact .inr ⟨fun _ hinner => hquote (List.mem_singleton.1 hinner.mem), rfl, rfl⟩
  | case4 letter cs value taken hescape _ ih =>
    have hdigits : Passed quote (cs.take taken) := by
      refine .of_forall fun c hc => ?_
      have hsome : (hexValue? c).isSome = true := isSome_hexValue? (by rwa [hescape])
      refine ⟨?_, ?_⟩
      · rintro rfl
        rw [hdigit] at hsome
        cases hsome
      · rintro rfl
        cases hsome
    have hlength : (cs.take taken).length = taken := by
      have hle := taken_le letter cs
      rw [hescape] at hle
      exact List.length_take_of_le hle
    have hpart := (Passed.escape hquote letter).append hdigits
    have hends : ((read quote (cs.drop taken)).push value (2 + taken)).Ends quote
        ((['\\', letter] ++ cs.take taken) ++ cs.drop taken) :=
      hpart.ends ih (by rw [Content.length_push, List.length_append, hlength]; rfl) rfl
    rwa [List.append_assoc, List.take_append_drop] at hends
  | case5 c cs hne hescape ih =>
    exact (Passed.char hne hescape).ends ih rfl rfl

/-! ## Escaped text -/

/-- A text with a backslash before each double quote and each backslash. -/
def escape (cs : List Char) : List Char :=
  cs.flatMap fun c => if c = '"' ∨ c = '\\' then ['\\', c] else [c]

/-- **An escaped text between quotes is read as the text.** -/
theorem read_escape (cs : List Char) :
    read '"' (escape cs ++ ['"']) = ⟨cs, (escape cs).length + 1, true⟩ := by
  induction cs with
  | nil => rw [escape, List.flatMap_nil, List.nil_append, read, if_pos rfl]; rfl
  | cons c cs ih =>
    have hcons : escape (c :: cs)
        = (if c = '"' ∨ c = '\\' then ['\\', c] else [c]) ++ escape cs := rfl
    rw [hcons]
    by_cases hc : c = '"' ∨ c = '\\'
    · have hvalue : ∀ rest, readEscape c rest = (c, 0) := by
        rcases hc with rfl | rfl <;> exact fun _ => rfl
      rw [if_pos hc, List.append_assoc, List.cons_append, List.cons_append, List.nil_append, read,
        if_neg (by decide), if_pos rfl]
      simp only [hvalue, List.drop_zero, ih]
      simp [Content.push]
      omega
    · rw [if_neg hc, List.append_assoc, List.cons_append, List.nil_append, read.eq_def]
      dsimp only
      rw [if_neg (fun heq => hc (.inl heq)), if_neg (fun heq => hc (.inr heq)), ih]
      simp [Content.push]
      omega

/-! ## Literals -/

/-- What opens a quoted literal, the quote that ends it, and the kind of its token. -/
inductive Opens : List Char → Char → TokenKind → Prop
  | string : Opens ['"'] '"' .string
  | character : Opens ['\''] '\'' .character
  | symbol : Opens ['#', '\''] '\'' .symbol

variable {mark : List Char} {kind : TokenKind}

theorem Opens.ne_nil (h : Opens mark quote kind) : mark ≠ [] := by
  cases h <;> exact List.cons_ne_nil _ _

/-- The quotes of literals are neither backslashes nor digits. -/
theorem Opens.ends (h : Opens mark quote kind) (content : List Char) :
    (read quote content).Ends quote content := by
  cases h <;> exact read_ends (by decide) rfl content

/-- **Behind what opens a literal, the literal is read**, with the mark that its content
calls for. -/
theorem Opens.first {c : Char} {cs content : List Char} (h : Opens mark quote kind)
    (hbegins : c :: cs = mark ++ content) :
    (Reading.first c cs).lexeme.kind = kind
      ∧ (Reading.first c cs).lexeme.flags
        = (if (read quote content).closed then [] else [.unterminated])
      ∧ (Reading.first c cs).length = mark.length + (read quote content).length := by
  cases h <;> obtain ⟨rfl, rfl⟩ := List.cons.inj hbegins <;> exact ⟨rfl, rfl, rfl⟩

end Quoted

namespace Token

/-- The only end among the tokens of a text is that of the text. -/
theorem eq_endOfFile {source : List Char} {comments : Bool} {t : Token}
    (ht : t ∈ scan source comments) (hend : t.isEnd = true) :
    t = .endOfFile (Text.byteLength source) := by
  obtain ⟨front, heq, hfront⟩ := (Cursor.tokens_laidOut comments (.atStart source)).eq_append
  have hlength : (Cursor.atStart source).textLength = Text.byteLength source := Nat.zero_add _
  rw [scan, heq, hlength] at ht
  rcases List.mem_append.1 ht with hmem | hmem
  · exact absurd hend (Bool.eq_false_iff.1 (hfront t hmem))
  · exact List.mem_singleton.1 hmem

/-- **Quoted literals end at the right quote, and say what was escaped.** A token that starts
where a literal is opened is that literal. It ends right behind the first quote with an even
number of backslashes before it in the content, or else is unterminated and runs to the end
of the text. Any text, escaped and put between double quotes, is one terminated string that
says this text. -/
theorem scan_quoted (comments : Bool) :
    (∀ (source before mark content : List Char) (quote : Char) (kind : TokenKind),
      Quoted.Opens mark quote kind → source = before ++ (mark ++ content) →
      ∀ t ∈ scan source comments, t.span.start = Text.byteLength before →
        t.kind = kind
          ∧ ((∃ inner, Quoted.EndsBehind quote content inner
              ∧ t.span.stop = Text.byteLength (before ++ (mark ++ (inner ++ [quote])))
              ∧ t.lexeme.flags = [])
            ∨ ((∀ inner, ¬ Quoted.Closes quote content inner)
              ∧ t.span.stop = Text.byteLength source
              ∧ t.lexeme.flags = [.unterminated])))
      ∧ ∀ s : String,
        let text := '"' :: (Quoted.escape s.toList ++ ['"'])
        scan text comments
          = [⟨.string s true, ⟨0, Text.byteLength text⟩⟩, .endOfFile (Text.byteLength text)] := by
  constructor
  · intro source before mark content quote kind hopens hsource t ht hstart
    have hmark := Text.byteLength_pos hopens.ne_nil
    have hend : t.isEnd = false := by
      refine Bool.eq_false_iff.2 fun hlast => ?_
      rw [eq_endOfFile ht hlast, hsource, Text.byteLength_append, Text.byteLength_append] at hstart
      dsimp only [endOfFile, Span.emptyAt] at hstart
      omega
    obtain ⟨offset, c, cs, ⟨front, hfront, rfl⟩, -, -, rfl⟩ :=
      (Cursor.tokens_laidOut comments _).exists_read (Cursor.atStart_in source) ht hend
    obtain ⟨rfl, hbegins⟩ := Text.append_inj (hfront.symm.trans hsource) hstart
    obtain ⟨hkind, hflags, hlength⟩ := hopens.first hbegins
    have hstop : (Cursor.read (Text.byteLength front) c cs).1.span.stop = Text.byteLength front
        + Text.byteLength ((mark ++ content).take
          (mark.length + (Quoted.read quote content).length)) := by
      rw [← hbegins, ← hlength]
      rfl
    refine ⟨hkind, ?_⟩
    rw [hstop, List.take_length_add_append]
    rcases hopens.ends content with ⟨inner, hends, hread, hclosed⟩ | ⟨hnone, hread, hclosed⟩
    · refine .inl ⟨inner, hends, ?_, hflags.trans (by rw [hclosed]; rfl)⟩
      obtain ⟨rest, hcontent⟩ := hends.closes.1
      have hcut : content.take (Quoted.read quote content).length = inner ++ [quote] := by
        rw [← hcontent] at hread ⊢
        rw [hread]
        exact List.take_left' List.length_append
      rw [hcut, Text.byteLength_append front]
    · refine .inr ⟨hnone, ?_, hflags.trans (by rw [hclosed]; rfl)⟩
      rw [hread, List.take_length, ← Text.byteLength_append, hsource]
  · intro s text
    have hcontent := Quoted.read_escape s.toList
    have hfirst : Reading.first '"' (Quoted.escape s.toList ++ ['"'])
        = ⟨.string s true, text.length⟩ := by
      have hstring : Reading.first '"' (Quoted.escape s.toList ++ ['"'])
          = ⟨.string (String.ofList (Quoted.read '"' (Quoted.escape s.toList ++ ['"'])).decoded)
              (Quoted.read '"' (Quoted.escape s.toList ++ ['"'])).closed,
            1 + (Quoted.read '"' (Quoted.escape s.toList ++ ['"'])).length⟩ := rfl
      rw [hstring, hcontent, String.ofList_toList, List.length_cons, List.length_append,
        Nat.add_comm 1]
      rfl
    rw [scan_of_covers (by decide) (fun hcomment => ?_) (by rw [hfirst]), hfirst]
    rw [hfirst] at hcomment
    cases hcomment

/-- A symbol whose content has a digit of an escape, a quote that is escaped, and a backslash
that is, right before the quote that ends it. -/
theorem scan_quoted_symbol :
    let content := "\\x4\\'\\\\' 'a".toList
    let source := '=' :: '#' :: '\'' :: content
    let t : Token := ⟨.symbol "\x04'\\" true, ⟨1, 11⟩⟩
    Quoted.Opens ['#', '\''] '\'' .symbol ∧ t ∈ scan source false
      ∧ t.span.start = Text.byteLength ['='] ∧ t.kind = .symbol
      ∧ (∃ inner, Quoted.EndsBehind '\'' content inner
        ∧ t.span.stop = Text.byteLength (['='] ++ (['#', '\''] ++ (inner ++ ['\''])))
        ∧ t.lexeme.flags = [])
      ∧ scan "\"\\\"\"".toList false = [⟨.string "\"" true, ⟨0, 4⟩⟩, .endOfFile 4] := by
  intro content source t
  have hmem : t ∈ scan source false := by decide +kernel
  obtain ⟨hkind, hends⟩ := (scan_quoted false).1 source ['='] ['#', '\''] content '\'' .symbol
    .symbol rfl t hmem rfl
  exact ⟨.symbol, hmem, rfl, hkind, hends.resolve_right (fun h => nomatch h.2.2),
    (scan_quoted false).2 "\""⟩

end Token

end ScriptLens
