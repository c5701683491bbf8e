import ScriptLens.Proofs.TypedDeclarations
import ScriptLens.Types.Spelling

/-!
# The text of a type is read as the type

The text of a type shows everything that the source can say of it. So a text in the place
of a parameter's type is parsed without a problem, and the parameter has the type that
the text was made of (`parse_spellingSource`).

Three things could go wrong in between. The characters of one part could run into those of
the next, as `>` would with another `>`; they never do, because a type is followed by a
bracket, a parenthesis, a comma or a blank, and none of these goes on with what a type
ends with. The word `function` could be taken for the start of a function type; it is not,
because `<` never follows it otherwise. And the brackets of an array could go with an
inner type; they follow what they belong to.

What has no text of its own is left out (`TypeShape.Readable`): a type that is not known,
a signature that is not shown, and a class with a name that is no name.
-/

namespace ScriptLens

/-! ## Types that their text shows -/

/-- **A word that names something**: one or more word characters that are neither a
keyword nor an integer. -/
structure IsName (word : String) : Prop where
  ne_nil : word.toList ≠ []
  isWordChar : ∀ c ∈ word.toList, isWordChar c = true
  ofSpelling? : Keyword.ofSpelling? word = none
  decode? : Integer.decode? word.toList = none

/-- Whether a tag is known, and has a name if it is a class. -/
def TypeTag.IsWritten : TypeTag → Prop
  | unknown => False
  | named name => IsName name
  | _ => True

/-- **A type that its text shows**: all tags in it are known, only function types have
signatures, and classes have names. -/
inductive TypeShape.Readable : TypeShape → Prop
  | word {tag : TypeTag} {depth : Nat} : tag.IsWritten → Readable ⟨tag, depth, none⟩
  | function {depth : Nat} {f : Signature TypeShape} :
    Readable f.returnType → (∀ p ∈ f.parameters, Readable p) →
      Readable ⟨.function, depth, some f⟩

/-! ## The lexemes of a text -/

/-- The word of a tag is one that a type is written with. -/
theorem TypeTag.IsWritten.typeHead? {tag : TypeTag} (h : tag.IsWritten) :
    tag.name.toList ≠ [] ∧ (∀ c ∈ tag.name.toList, isWordChar c = true)
      ∧ ∃ head, Parser.typeHead? (Reading.wordLexeme tag.name.toList) = some head
        ∧ TypeTag.ofHead head = tag := by
  have hbasic : ∀ t : BasicType, t.spelling.toList ≠ []
      ∧ (∀ c ∈ t.spelling.toList, isWordChar c = true)
      ∧ ∃ head, Parser.typeHead? (Reading.wordLexeme t.spelling.toList) = some head
        ∧ TypeTag.ofHead head = .ofBasic t := by
    intro t
    refine ⟨by cases t <;> decide, List.all_eq_true.1 (by cases t <;> rfl), .basic t, ?_, rfl⟩
    cases t <;> rfl
  cases tag with
  | unknown => exact h.elim
  | nil => exact ⟨by decide, List.all_eq_true.1 rfl, .nil, rfl, rfl⟩
  | named name =>
    refine ⟨h.ne_nil, h.isWordChar, .named name, ?_, rfl⟩
    show Parser.typeHead? (Reading.wordLexeme name.toList) = _
    rw [Reading.wordLexeme, String.ofList_toList]
    simp only [h.ofSpelling?, h.decode?]
    rfl
  | void => exact hbasic .void
  | any => exact hbasic .any
  | bool => exact hbasic .bool
  | int => exact hbasic .int
  | string => exact hbasic .string
  | symbol => exact hbasic .symbol
  | object => exact hbasic .object
  | mapping => exact hbasic .mapping
  | function => exact hbasic .function

/-- What may follow a part of a type in its text, so that the part ends there. -/
def Delimited (rest : List Char) : Prop := ∀ c ∈ rest.head?, c ∈ [' ', '(', ',', ')', '[']

theorem Delimited.not_word {rest : List Char} (h : Delimited rest) :
    ∀ c ∈ rest.head?, isWordChar c = false ∧ c ≠ '\'' ∧ c ≠ ':' := by
  intro c hc
  have hmem := h c hc
  simp only [List.mem_cons, List.not_mem_nil, or_false] at hmem
  rcases hmem with rfl | rfl | rfl | rfl | rfl <;> decide

theorem Delimited.brackets {rest : List Char} (h : Delimited rest) (depth : Nat) :
    Delimited ((Node.arraySuffix depth).toList ++ rest) := by
  cases depth with
  | zero => exact h
  | succ depth => simp [Delimited, Node.arraySuffix, String.toList_join, List.replicate_succ]

theorem lexemesOf_brackets (depth : Nat) (rest : List Char) :
    lexemesOf ((Node.arraySuffix depth).toList ++ rest)
      = bracketLexemes depth ++ lexemesOf rest := by
  induction depth with
  | zero => rfl
  | succ depth ih =>
    have hsuffix : (Node.arraySuffix (depth + 1)).toList ++ rest
        = Punctuation.openBracket.spelling ++ (Punctuation.closeBracket.spelling
          ++ ((Node.arraySuffix depth).toList ++ rest)) := by
      simp [Node.arraySuffix, String.toList_join, List.replicate_succ, Punctuation.spelling]
    rw [hsuffix, lexemesOf_mark .openBracket (by decide) fun _ _ => rfl,
      lexemesOf_mark .closeBracket (by decide) fun _ _ => rfl, ih]
    rfl

namespace TypeShape

/-- A type that is known is written as its word with brackets. -/
theorem text_bare {tag : TypeTag} (depth : Nat) (h : tag ≠ .unknown) :
    text ⟨tag, depth, none⟩ = tag.name ++ Node.arraySuffix depth := by
  rw [text, spell]
  cases tag with
  | unknown => exact absurd rfl h
  | _ => rfl

theorem text_word {tag : TypeTag} (depth : Nat) (h : tag.IsWritten) :
    text ⟨tag, depth, none⟩ = tag.name ++ Node.arraySuffix depth :=
  text_bare depth fun heq => by rwa [heq] at h

/-- The text of a parameter of a function type. -/
def itemText : Option TypeShape → String
  | none => "..."
  | some s => s.text

/-- The parameters of a function type, as they are written. -/
def items (f : Signature TypeShape) : List (Option TypeShape) :=
  f.parameters.map some ++ if f.variadic then [none] else []

theorem text_function (depth : Nat) (f : Signature TypeShape) :
    text ⟨.function, depth, some f⟩ = "function<" ++ f.returnType.text ++ "("
      ++ ", ".intercalate ((items f).map itemText) ++ ")>" ++ Node.arraySuffix depth := by
  have hparameters : (f.parameters.attach.map fun p => spell "?" p.1)
      = (f.parameters.map some).map itemText := by
    rw [List.map_map]
    conv_rhs => rw [← List.attach_map_subtype_val f.parameters, List.map_map]
    rfl
  have hvariadic : (if f.variadic then ["..."] else [])
      = (if f.variadic then [none] else []).map itemText := by
    cases f.variadic <;> rfl
  rw [text, spell, items, List.map_append, ← hparameters, ← hvariadic]
  rfl

theorem reduceOption_items (f : Signature TypeShape) : (items f).reduceOption = f.parameters := by
  have hsome : (f.parameters.map some).reduceOption = f.parameters := by
    rw [List.reduceOption, List.filterMap_map]
    exact List.filterMap_some
  rw [items, List.reduceOption_append, hsome]
  cases f.variadic <;> exact List.append_nil _

theorem contains_none_items (f : Signature TypeShape) : (items f).contains none = f.variadic := by
  rw [items]
  cases f.variadic <;> simp

/-- The text of a type starts with a word. -/
theorem Readable.exists_text {s : TypeShape} (h : s.Readable) :
    ∃ c cs, s.text.toList = c :: cs ∧ isWordChar c = true := by
  cases h with
  | @word tag depth htag =>
    obtain ⟨hne, hword, -⟩ := htag.typeHead?
    obtain ⟨c, cs, hname⟩ := List.exists_cons_of_ne_nil hne
    refine ⟨c, cs ++ (Node.arraySuffix depth).toList, ?_, hword c (by simp [hname])⟩
    rw [text_word depth htag, String.toList_append, hname]
    rfl
  | @function depth f _ _ =>
    rw [text_function]
    simp only [String.toList_append, List.append_assoc]
    exact ⟨'f', _, rfl, by decide⟩

/-- No punctuation goes on with the text of a type. -/
theorem Readable.not_continued {s : TypeShape} (h : s.Readable) (p : Punctuation)
    (rest : List Char) : ∀ c ∈ (s.text.toList ++ rest).head?, p.continues c = false := by
  obtain ⟨d, ds, htext, hd⟩ := h.exists_text
  rw [htext]
  intro c hc
  cases hc
  exact Punctuation.continues_of_isWordChar p hd

/-- **A text is read as lexemes** if it says them in front of whatever delimits it. -/
def ReadAs (text : List Char) (ls : List Lexeme) : Prop :=
  ∀ rest, Delimited rest → lexemesOf (text ++ rest) = ls ++ lexemesOf rest

/-- A parameter is read as what spells it, and does not go on with a parenthesis before it. -/
structure ItemRead (item : Option TypeShape) : Prop where
  spells : ∃ ls, SpellsItem Spells item ls ∧ ReadAs (itemText item).toList ls
  opens : ∀ rest, ∀ c ∈ ((itemText item).toList ++ rest).head?,
    Punctuation.openParen.continues c = false

theorem ItemRead.dots : ItemRead none where
  spells := ⟨_, .dots, fun _ _ => lexemesOf_mark .ellipsis (by decide) fun _ _ => rfl⟩
  opens := fun rest c hc => by
    cases hc
    decide

/-- The parameters of a function type are read if its parameter types are. -/
theorem itemRead_of_mem_items {f : Signature TypeShape}
    (h : ∀ p ∈ f.parameters, p.Readable ∧ ∃ ls, Spells p ls ∧ ReadAs p.text.toList ls)
    {item : Option TypeShape} (hitem : item ∈ items f) : ItemRead item := by
  cases item with
  | none => exact .dots
  | some p =>
    rw [← reduceOption_items f] at h
    obtain ⟨hp, ls, hls, hread⟩ := h p (List.reduceOption_mem_iff.2 hitem)
    exact ⟨⟨ls, .type hls, hread⟩, hp.not_continued .openParen⟩

section Items

variable {items : List (Option TypeShape)}

/-- Parameters with commas between them are read one after the other. -/
theorem exists_spellsSeries (hne : items ≠ []) (h : ∀ item ∈ items, ItemRead item) :
    ∃ ls, SpellsSeries Spells items ls ∧ ∀ rest,
      lexemesOf ((", ".intercalate (items.map itemText)).toList ++ ')' :: rest)
        = ls ++ lexemesOf (')' :: rest) := by
  induction items with
  | nil => exact absurd rfl hne
  | cons item items ih =>
    obtain ⟨⟨⟨ls, hitem, hls⟩, -⟩, hitems⟩ := List.forall_mem_cons.1 h
    cases items with
    | nil =>
      refine ⟨ls, .single hitem, fun rest => ?_⟩
      rw [← hls (')' :: rest) (by simp [Delimited])]
      simp
    | cons item' items =>
      obtain ⟨ms, hseries, hms⟩ := ih (List.cons_ne_nil _ _) hitems
      refine ⟨_, .cons hitem hseries, fun rest => ?_⟩
      have htext : (", ".intercalate ((item :: item' :: items).map itemText)).toList
            ++ ')' :: rest
          = (itemText item).toList ++ (Punctuation.comma.spelling ++ ' '
            :: ((", ".intercalate ((item' :: items).map itemText)).toList ++ ')' :: rest)) := by
        simp [String.toList_intercalate, Punctuation.spelling]
      rw [htext, hls _ (by simp [Delimited, Punctuation.spelling]),
        lexemesOf_mark .comma (by decide) fun _ _ => rfl, lexemesOf_blank (by decide), hms]
      simp

theorem exists_spellsItems (h : ∀ item ∈ items, ItemRead item) :
    ∃ ls, SpellsItems Spells items ls ∧ ∀ rest,
      lexemesOf ((", ".intercalate (items.map itemText)).toList ++ ')' :: rest)
        = ls ++ lexemesOf (')' :: rest) := by
  by_cases hne : items = []
  · rw [hne]
    exact ⟨[], .none, fun _ => rfl⟩
  · obtain ⟨ls, hls, hread⟩ := exists_spellsSeries hne h
    exact ⟨ls, .some hls, hread⟩

/-- The parenthesis before the parameters is a token by itself, even if there are none. -/
theorem not_continued_items (h : ∀ item ∈ items, ItemRead item) (rest : List Char) :
    ∀ c ∈ ((", ".intercalate (items.map itemText)).toList ++ ')' :: rest).head?,
      Punctuation.openParen.continues c = false := by
  cases items with
  | nil =>
    intro c hc
    cases hc
    decide
  | cons item more =>
    obtain ⟨tail, htail⟩ : ∃ tail, (", ".intercalate ((item :: more).map itemText)).toList
        = (itemText item).toList ++ tail := by
      cases more with
      | nil => exact ⟨[], by simp⟩
      | cons => exact ⟨_, by rw [String.toList_intercalate]; simp; rfl⟩
    rw [htail, List.append_assoc]
    exact (h item List.mem_cons_self).opens _

end Items

/-- The text of a function type is read from left to right. -/
theorem readAs_text_function {depth : Nat} {f : Signature TypeShape} {ls ms : List Lexeme}
    (hreturn : f.returnType.Readable) (hreadReturn : ReadAs f.returnType.text.toList ls)
    (hitems : ∀ item ∈ items f, ItemRead item) (hreadItems : ∀ rest,
      lexemesOf ((", ".intercalate ((items f).map itemText)).toList ++ ')' :: rest)
        = ms ++ lexemesOf (')' :: rest)) :
    ReadAs (text ⟨.function, depth, some f⟩).toList
      (.keyword (.basicType .function) :: .punctuation .less
        :: (ls ++ .punctuation .openParen :: (ms ++ .punctuation .closeParen
          :: .punctuation .greater :: bracketLexemes depth))) := by
  intro rest hrest
  have htext : (text ⟨.function, depth, some f⟩).toList ++ rest
      = "function".toList ++ (Punctuation.less.spelling ++ (f.returnType.text.toList
        ++ (Punctuation.openParen.spelling
          ++ ((", ".intercalate ((items f).map itemText)).toList ++ ')'
            :: (Punctuation.greater.spelling
              ++ ((Node.arraySuffix depth).toList ++ rest)))))) := by
    rw [text_function]
    simp [Punctuation.spelling]
  have hgreater : ∀ c ∈ ((Node.arraySuffix depth).toList ++ rest).head?,
      Punctuation.greater.continues c = false := by
    intro c hc
    have hmem := hrest.brackets depth c hc
    simp only [List.mem_cons, List.not_mem_nil, or_false] at hmem
    rcases hmem with rfl | rfl | rfl | rfl | rfl <;> rfl
  have hclose : ∀ rest, lexemesOf (')' :: rest) = .punctuation .closeParen :: lexemesOf rest :=
    fun rest => lexemesOf_mark .closeParen (by decide) fun _ _ => rfl
  have hfunction : Reading.wordLexeme "function".toList = .keyword (.basicType .function) := rfl
  rw [htext, lexemesOf_word (by decide) (List.all_eq_true.1 rfl)
      (fun c hc => by cases hc; decide), hfunction,
    lexemesOf_mark .less (by decide) (hreturn.not_continued .less _),
    hreadReturn _ (by simp [Delimited, Punctuation.spelling]),
    lexemesOf_mark .openParen (by decide) (not_continued_items hitems _), hreadItems, hclose,
    lexemesOf_mark .greater (by decide) hgreater, lexemesOf_brackets]
  simp

/-- **The text of a type says what spells the type**, whatever follows. -/
theorem Readable.exists_spells {s : TypeShape} (h : s.Readable) :
    ∃ ls, Spells s ls ∧ ReadAs s.text.toList ls := by
  induction h with
  | @word tag depth htag =>
    obtain ⟨hne, hword, head, hhead, rfl⟩ := htag.typeHead?
    refine ⟨_, .word hhead, fun rest hrest => ?_⟩
    rw [text_word depth htag, String.toList_append, List.append_assoc,
      lexemesOf_word hne hword (hrest.brackets depth).not_word, lexemesOf_brackets,
      List.cons_append]
  | @function depth f hreturn hparameters ihreturn ihparameters =>
    obtain ⟨ls, hls, hreadReturn⟩ := ihreturn
    have hitems : ∀ item ∈ items f, ItemRead item := fun item =>
      itemRead_of_mem_items fun p hp => ⟨hparameters p hp, ihparameters p hp⟩
    obtain ⟨ms, hms, hreadItems⟩ := exists_spellsItems hitems
    have hspells : Spells ⟨.function, depth, _⟩ _ := .function hls hms
    rw [reduceOption_items, contains_none_items] at hspells
    exact ⟨_, hspells, readAs_text_function hreturn hreadReturn hitems hreadItems⟩

/-! ## The type is read from its text -/

/-- What comes before the parenthesis of the function in which a spelling is read. -/
theorem lexemesOf_functionName (text : List Char) :
    lexemesOf ("void f(".toList ++ text)
      = .keyword (.basicType .void) :: .identifier "f" :: lexemesOf ('(' :: text) := by
  have htext : "void f(".toList ++ text = "void".toList ++ ' ' :: ("f".toList ++ '(' :: text) := rfl
  rw [htext, lexemesOf_word (by decide) (List.all_eq_true.1 rfl) (fun c hc => by cases hc; decide),
    lexemesOf_blank (by decide),
    lexemesOf_word (by decide) (List.all_eq_true.1 rfl) (fun c hc => by cases hc; decide)]
  rfl

/-- What follows the type in the text in which a spelling is read. -/
theorem lexemesOf_functionTail : lexemesOf " x);".toList
    = [.identifier "x", .punctuation .closeParen, .punctuation .semicolon] := by
  have htext : " x);".toList = ' ' :: ("x".toList ++ (Punctuation.closeParen.spelling
      ++ (Punctuation.semicolon.spelling ++ []))) := rfl
  rw [htext, lexemesOf_blank (by decide),
    lexemesOf_word (by decide) (List.all_eq_true.1 rfl) (fun c hc => by cases hc; decide),
    lexemesOf_mark .closeParen (by decide) (fun c hc => by cases hc; rfl),
    lexemesOf_mark .semicolon (by decide) (fun c hc => by cases hc), lexemesOf_nil]
  rfl

/-- **A type is read back from its text.** In the place of a parameter's type the text of a
type is parsed without a problem, and the first parameter has that type. One level of
nesting is the declaration's; the rest is left to the function types inside each other. -/
theorem parse_spellingSource (fileName : String) {s : TypeShape} (hs : s.Readable)
    (hnesting : s.nesting + 1 < Parser.nestingLimit) :
    let tree := SourceTree.parse fileName (spellingSource s.text.toList)
    tree.diagnostics = [] ∧ ∃ p, tree.nodes.find? (·.kind == .parameter) = some p
      ∧ p.loweredType = .ok s := by
  obtain ⟨ls, hls, hread⟩ := hs.exists_spells
  have hlexemes : lexemesOf (spellingSource s.text.toList) = Parser.functionHead
      ++ (ls ++ [.identifier "x", .punctuation .closeParen, .punctuation .semicolon]) := by
    show lexemesOf ("void f(".toList ++ s.text.toList ++ " x);".toList) = _
    have hparenthesis : lexemesOf ('(' :: (s.text.toList ++ " x);".toList))
        = .punctuation .openParen :: lexemesOf (s.text.toList ++ " x);".toList) :=
      lexemesOf_mark .openParen (by decide) (hs.not_continued .openParen _)
    rw [List.append_assoc, lexemesOf_functionName, hparenthesis, hread _ (by simp [Delimited]),
      lexemesOf_functionTail]
    rfl
  exact Parser.parse_function fileName hls hlexemes hnesting

/-- The text of an array of functions, which take any number of arguments and give arrays. -/
theorem parse_spellingSource_functions :
    let s : TypeShape := ⟨.function, 1, some ⟨⟨.mapping, 2, none⟩, [⟨.named "foo", 0, none⟩], true⟩⟩
    s.text = "function<mapping[][](foo, ...)>[]" ∧ s.Readable
      ∧ s.nesting + 1 < Parser.nestingLimit
      ∧ let tree := SourceTree.parse "types.c" (spellingSource s.text.toList)
        tree.diagnostics = [] ∧ ∃ p, tree.nodes.find? (·.kind == .parameter) = some p
          ∧ p.loweredType = .ok s := by
  intro s
  have hfoo : IsName "foo" := ⟨by decide, List.all_eq_true.1 rfl, rfl, rfl⟩
  have hread : s.Readable := .function (.word trivial) (List.forall_mem_singleton.2 (.word hfoo))
  have hnesting : s.nesting + 1 < Parser.nestingLimit := by
    refine Nat.succ_lt_succ (nesting_lt_succ_iff.2 ⟨?_, List.forall_mem_singleton.2 ?_⟩)
    · rw [nesting_of_none]
      decide
    · rw [nesting_of_none]
      decide
  have htext : s.text = "function<mapping[][](foo, ...)>[]" := by
    have hresult : text ⟨.mapping, 2, none⟩ = "mapping[][]" := text_word 2 trivial
    have hitem : text ⟨.named "foo", 0, none⟩ = "foo" := text_word 0 hfoo
    rw [text_function, hresult]
    show "function<" ++ "mapping[][]" ++ "(" ++ ", ".intercalate [text _, "..."] ++ ")>" ++ "[]" = _
    rw [hitem]
    decide
  exact ⟨htext, hread, hnesting, parse_spellingSource "types.c" hread hnesting⟩

end TypeShape

end ScriptLens
