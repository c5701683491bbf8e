import ScriptLens.Proofs.ParameterSpelling
import ScriptLens.Proofs.SettledText
import ScriptLens.Proofs.TypeRoundTrip

/-!
# The types that variables are declared with

A type is parsed in the same way wherever it stands, but it does not stand everywhere. In
the place of a parameter nothing else is expected. At the start of a text a declaration
competes with an expression, and only the first tokens decide (`declares`). Whatever text
declares a parameter should declare a variable as well; it does, with the same type, if it
does not start with `nil` (`exists_declaresVariable_iff`). A text that does is taken for an
expression, although it is a type.

The text is arbitrary: there may be comments in it, modifiers, and of course anything that
is no type at all. What is asked for is that the parameter comes of it, and that the
parameter's name is the `x` behind it. Two facts then lead from one text to the other. The
tokens before the name are modifiers and a spelling of the type
(`Parser.parse_reads_parameter`), and they do not depend on what follows the name
(`lexemesOf_settled`).
-/

namespace ScriptLens

open ScriptLens.Parser ScriptLens.TypeShape

/-- The only parameter of the function that is all of a source file. -/
def Node.onlyParameter? (root : Node) : Option Node :=
  match root.payload with
  | .sourceFile _ [⟨_, _, .functionDeclaration _ _ _ _ ⟨_, [p]⟩ _⟩] => some p
  | _ => none

/-- Where the name of a parameter starts. -/
def Node.parameterNameStart? (p : Node) : Option Nat :=
  match p.payload with
  | .parameter _ name _ => some name.span.start
  | _ => none

/-- **A spelling declares a parameter**: in the place of the type of `x`, it is parsed
without a problem as the type of the only parameter of a function, whose name is that
`x`. -/
structure DeclaresParameter (fileName : String) (spelling : List Char) (p : Node) : Prop where
  diagnostics : (SourceTree.parse fileName (spellingSource spelling)).diagnostics = []
  isOnly : (SourceTree.parse fileName (spellingSource spelling)).root.onlyParameter? = some p
  nameStart : p.parameterNameStart? = some (Text.byteLength ("void f(".toList ++ spelling) + 1)

/-- The source text in which a spelling is to declare the variable `x`. -/
def variableSource (spelling : List Char) : List Char := spelling ++ " x;".toList

/-- **A spelling declares a variable**: in front of `x`, it is parsed without a problem as
the only declaration of that variable. -/
structure DeclaresVariable (fileName : String) (spelling : List Char) (n : Node) : Prop where
  diagnostics : (SourceTree.parse fileName (variableSource spelling)).diagnostics = []
  root : (SourceTree.parse fileName (variableSource spelling)).root.payload
    = .sourceFile fileName [n]
  isVariable : n.DeclaresVariable "x"

/-- What is to be computed of a text for a parameter to be declared by it. -/
theorem exists_declaresParameter {fileName : String} {spelling : List Char} {shape : TypeShape}
    (hquiet : (SourceTree.parse fileName (spellingSource spelling)).diagnostics = [])
    (h : ((SourceTree.parse fileName (spellingSource spelling)).root.onlyParameter?.bind fun p =>
        p.parameterNameStart?.map fun start => (start, p.loweredType.toOption))
      = some (Text.byteLength ("void f(".toList ++ spelling) + 1, some shape)) :
    ∃ p, DeclaresParameter fileName spelling p ∧ p.loweredType = .ok shape := by
  obtain ⟨p, honly, hp⟩ := Option.bind_eq_some_iff.1 h
  obtain ⟨start, hstart, heq⟩ := Option.map_eq_some_iff.1 hp
  obtain ⟨rfl, htype⟩ := Prod.mk.inj heq
  refine ⟨p, ⟨hquiet, honly, hstart⟩, ?_⟩
  cases hshape : p.loweredType with
  | error e =>
    rw [hshape] at htype
    cases htype
  | ok shape' =>
    rw [hshape] at htype
    rw [Option.some.inj htype]

/-! ## From one text to the other -/

theorem Node.exists_of_onlyParameter? {root p : Node} (h : root.onlyParameter? = some p) :
    ∃ file n, root.payload = .sourceFile file [n] ∧ IsFunctionOf p n := by
  unfold onlyParameter? at h
  split at h
  · next file id span modifiers flags type name list q body hroot =>
    cases h
    exact ⟨file, _, hroot, modifiers, flags, type, name, list, [], body, rfl⟩
  · cases h

theorem Node.exists_of_parameterNameStart? {p : Node} {start : Nat}
    (h : p.parameterNameStart? = some start) :
    ∃ type name variadic, p.payload = .parameter type name variadic ∧ name.span.start = start := by
  unfold parameterNameStart? at h
  split at h
  · next type name variadic hp => exact ⟨type, name, variadic, hp, Option.some.inj h⟩
  · cases h

/-- A parenthesis that is a token by itself comes before what follows it. -/
theorem lexemesOf_openParen {text : List Char} {ls : List Lexeme}
    (h : lexemesOf ('(' :: text) = .punctuation .openParen :: ls) : lexemesOf text = ls := by
  have hsome : Punctuation.longest? ('(' :: text) ≠ none := fun hnone =>
    List.find?_eq_none.1 hnone .openParen (by decide) rfl
  obtain ⟨p, hp⟩ := Option.ne_none_iff_exists'.1 hsome
  have hfirst : Reading.first '(' text = ⟨.punctuation p, p.spelling.length⟩ := by
    rw [Reading.first_eq (by decide) (fun heq => by cases heq), Reading.punctuation?, hp]
    rfl
  rw [lexemesOf_read (by decide), hfirst] at h
  obtain ⟨heq, hls⟩ := List.cons.inj (show _ :: _ = _ :: _ from h)
  cases heq
  exact hls

/-- The parser stands at the name of a parameter: what it consumed says what the text says
before the name, whatever comes after. -/
theorem lexemesOf_before_name {cs a b : List Char} {s : State} {ls : List Lexeme}
    (hs : Later (startInside (cs ++ ' ' :: 'x' :: a)) s)
    (hposition : s.position (.ofText (cs ++ ' ' :: 'x' :: a)) = Text.byteLength cs + 1)
    (h : lexemesOf (cs ++ ' ' :: 'x' :: a) = ls ++ s.lexemes) :
    lexemesOf (cs ++ ' ' :: 'x' :: b) = ls ++ lexemesOf ('x' :: b) := by
  obtain ⟨consumed, hup, hend⟩ := hs.consumed
  replace hup : tokensOf (cs ++ ' ' :: 'x' :: a) = consumed ++ s.upcoming := hup
  have hfits := hs.fits (room_startInside _).fits
  obtain ⟨t, ht, hstart⟩ : ∃ t ∈ s.upcoming, t.span.start = Text.byteLength cs + 1 := by
    rw [State.position] at hposition
    cases hnext : s.upcoming with
    | nil =>
      -- the end of the text lies behind the name
      rw [hnext] at hposition
      have hlength : Text.byteLength (cs ++ ' ' :: 'x' :: a) = Text.byteLength cs + 1 := hposition
      have hword : ' '.utf8Size = 1 ∧ 'x'.utf8Size = 1 := by decide
      simp only [Text.byteLength_append, Text.byteLength_cons] at hlength
      omega
    | cons t ts =>
      rw [hnext] at hposition
      exact ⟨t, List.mem_cons_self, hposition⟩
  have hbefore : ∀ t ∈ consumed, t.span.start < Text.byteLength cs + 1 := by
    intro t ht
    have horder := tokensOf_inOrder (cs ++ ' ' :: 'x' :: a)
    rw [hup] at horder
    obtain ⟨-, hlt, hle⟩ := horder.append_left.mem ht
    have hprevious : Token.endOf 0 consumed ≤ Text.byteLength cs + 1 := by
      rw [← hposition, ← show s.previousEnd = Token.endOf 0 consumed from hend]
      exact hfits.previousEnd_le
    omega
  have hafter : ∀ t ∈ s.upcoming, Text.byteLength cs + 1 ≤ t.span.start := fun t ht =>
    hposition ▸ hfits.position_le_start ht
  have hls : consumed.map (·.lexeme) = ls := by
    refine (List.append_left_inj s.lexemes).1 ?_
    rw [← h, lexemesOf, hup, List.map_append, State.lexemes]
  rw [lexemesOf_settled b ⟨t, hup ▸ List.mem_append_right _ ht, hstart⟩, hup,
    Token.filter_start_append hbefore hafter, hls]

/-- **What declares a parameter says modifiers and a type** in front of a variable. -/
theorem DeclaresParameter.exists_spells {fileName : String} {spelling : List Char} {p : Node}
    (h : DeclaresParameter fileName spelling p) :
    ∃ words shape ls, Spells shape ls ∧ p.loweredType = .ok shape
      ∧ shape.nesting + 1 < nestingLimit ∧ lexemesOf (variableSource spelling)
        = modifierLexemes words ++ (ls ++ [.identifier "x", .punctuation .semicolon]) := by
  obtain ⟨hquiet, honly, hname⟩ := h
  obtain ⟨file, n, hroot, hn⟩ := Node.exists_of_onlyParameter? honly
  obtain ⟨type, name, variadic, hp, hstart⟩ := Node.exists_of_parameterNameStart? hname
  have hsource : spellingSource spelling
      = "void f(".toList ++ spelling ++ ' ' :: 'x' :: [')', ';'] := rfl
  rw [hsource] at hquiet hroot
  have hhead : lexemesOf ("void f(".toList ++ spelling ++ ' ' :: 'x' :: [')', ';'])
      = .keyword (.basicType .void) :: .identifier "f"
        :: lexemesOf ('(' :: (spelling ++ ' ' :: 'x' :: [')', ';'])) := by
    rw [List.append_assoc, lexemesOf_functionName]
  obtain ⟨words, shape, ls, s, hrest, hls, htype, hnesting, hlater, hposition⟩ :=
    parse_reads_parameter hhead hquiet hroot hn hp
  refine ⟨words, shape, ls, hls, ?_, hnesting, ?_⟩
  · obtain ⟨id, span, payload⟩ := p
    obtain rfl : payload = _ := hp
    rw [Node.loweredType, htype]
  · have hread : lexemesOf ("void f(".toList ++ spelling ++ ' ' :: 'x' :: [')', ';'])
        = functionHead ++ (modifierLexemes words ++ ls) ++ s.lexemes := by
      rw [hhead, hrest]
      simp [functionHead]
    have hbefore := lexemesOf_before_name (b := [';']) hlater (hposition.symm.trans hstart) hread
    have hword : lexemesOf ['x', ';'] = [.identifier "x", .punctuation .semicolon] := by
      rw [show ['x', ';'] = "x".toList ++ (Punctuation.semicolon.spelling ++ []) from rfl,
        lexemesOf_word (by decide) (List.all_eq_true.1 rfl) (fun c hc => by cases hc; decide),
        lexemesOf_mark .semicolon (by decide) (fun c hc => by cases hc), lexemesOf_nil]
      rfl
    rw [hword, List.append_assoc, lexemesOf_functionName] at hbefore
    have hafter := lexemesOf_openParen (List.cons.inj (List.cons.inj hbefore).2).2
    rw [← List.append_assoc]
    exact hafter

/-! ## What starts with `nil` -/

/-- What starts with `nil` is parsed as an expression. -/
theorem kind_topLevelElement_of_nil {r : Setting} {s : State} {i : Inner}
    (hkind : s.kind = .keyword .nilKw) (hdepth : s.depth < nestingLimit) :
    (exec (topLevelElement i) r s).1.kind = .expressionStatement := by
  have hstray : (s.current r).lexeme.isStray = false := by
    rw [← State.kind_current r] at hkind
    generalize s.current r = t at hkind
    obtain ⟨lexeme, span⟩ := t
    cases lexeme <;> first | rfl | cases hkind
  have hdeclares : declares s.upcoming = false := by
    rw [← Bool.not_eq_true, declares_iff, hkind]
    simp [TokenKind.isModifier, TokenKind.isBasicType]
  have hstarts : exec startsDeclaration r s.enter = (false, s.enter) := by
    rw [← hdeclares]
    rfl
  have hcurrent : exec current r s.enter = (s.current r, s.enter) := rfl
  have hplain : (exec (plainStatement i) r s.enter).1.kind = .expressionStatement := by
    rw [plainStatement, exec_bind_eq hcurrent, hstray, if_neg Bool.false_ne_true,
      exec_bind_eq hstarts, if_neg Bool.false_ne_true, State.kind_current, hkind]
    rfl
  have hbody : exec (statementBody i) r s.enter = exec (plainStatement i) r s.enter := by
    have henter : exec currentKind r s.enter = (.keyword .nilKw, s.enter) := by
      rw [← hkind]
      rfl
    rw [statementBody, exec_bind_eq henter]
  have htop : exec (topLevelElement i) r s = exec (statement i) r s := by
    have hsees : exec currentKind r s = (.keyword .nilKw, s) := by
      rw [← hkind]
      rfl
    rw [topLevelElement, exec_bind_eq hsees]
  rw [← hbody] at hplain
  generalize hresult : exec (statementBody i) r s.enter = result at hplain
  rw [htop, statement, exec_nested hdepth (show _ = (result.1, result.2) from hresult)]
  exact hplain

theorem not_declaresVariable_of_nil {fileName : String} {spelling : List Char} {n : Node}
    (h : (lexemesOf (variableSource spelling)).head? = some (.keyword .nilKw)) :
    ¬ DeclaresVariable fileName spelling n := by
  intro hn
  obtain ⟨modifiers, flags, type, d, id, hpayload, -⟩ := hn.isVariable
  obtain ⟨rest, hrest⟩ := List.head?_eq_some_iff.1 h
  have hkind : (State.ofTokens (tokensOf (variableSource spelling))).kind = .keyword .nilKw :=
    State.kind_of_lexemes (l := .keyword .nilKw) hrest
  obtain ⟨s, hfirst, -⟩ := exec_topLevelElement_of_parse (hkind ▸ nofun) hn.root
  have hexpression := kind_topLevelElement_of_nil (r := .ofText (variableSource spelling))
    (i := .ofBound .standard (tokensOf (variableSource spelling)).length) hkind
    (by show 0 < nestingLimit; decide)
  rw [hfirst, Node.kind, hpayload] at hexpression
  cases hexpression

/-- **What declares a parameter declares a variable**, of the same type, if and only if it does
not start with `nil`. -/
theorem exists_declaresVariable_iff {fileName : String} {spelling : List Char} {p : Node}
    (h : DeclaresParameter fileName spelling p) :
    (∃ n, DeclaresVariable fileName spelling n ∧ n.loweredType = p.loweredType)
      ↔ (lexemesOf (variableSource spelling)).head? ≠ some (.keyword .nilKw) := by
  refine ⟨fun ⟨n, hn, _⟩ hnil => not_declaresVariable_of_nil hnil hn, fun hnil => ?_⟩
  obtain ⟨words, shape, ls, hls, htype, hnesting, hlexemes⟩ := h.exists_spells
  obtain ⟨hquiet, n, ⟨hshape, hvariable⟩, hroot⟩ :=
    parse_variable fileName words hls hlexemes hnesting hnil
  exact ⟨n, ⟨hquiet, hroot, hvariable⟩, hshape.trans htype.symm⟩

/-- An array of a class is declared in both places. -/
theorem exists_declaresVariable_iff_array : ∃ p, DeclaresParameter "foo.c" "foo[]".toList p
    ∧ p.loweredType = .ok ⟨.named "foo", 1, none⟩
    ∧ ∃ n, DeclaresVariable "foo.c" "foo[]".toList n
      ∧ n.loweredType = .ok ⟨.named "foo", 1, none⟩ := by
  obtain ⟨p, hp, htype⟩ : ∃ p, DeclaresParameter "foo.c" "foo[]".toList p
      ∧ p.loweredType = .ok ⟨.named "foo", 1, none⟩ := by
    refine exists_declaresParameter (by decide +kernel) ?_
    show ((SourceTree.parse "foo.c" "void f(foo[] x);".toList).root.onlyParameter?.bind _) = _
    cbv
  have hfirst : (lexemesOf (variableSource "foo[]".toList)).head? = some (.identifier "foo") := by
    decide +kernel
  have hnil : (lexemesOf (variableSource "foo[]".toList)).head? ≠ some (.keyword .nilKw) := by
    rw [hfirst]
    decide
  obtain ⟨n, hn, heq⟩ := (exists_declaresVariable_iff hp).2 hnil
  exact ⟨p, hp, htype, n, hn, heq.trans htype⟩

/-- The type `nil` declares a parameter and no variable. -/
theorem nil_declares_parameter_only : (∃ p, DeclaresParameter "nil.c" "nil".toList p
      ∧ p.loweredType = .ok ⟨.nil, 0, none⟩)
    ∧ ¬ ∃ n, DeclaresVariable "nil.c" "nil".toList n := by
  constructor
  · refine exists_declaresParameter (by decide +kernel) ?_
    show ((SourceTree.parse "nil.c" "void f(nil x);".toList).root.onlyParameter?.bind _) = _
    cbv
  · have hfirst : (lexemesOf (variableSource "nil".toList)).head? = some (.keyword .nilKw) := by
      decide +kernel
    rintro ⟨n, hn⟩
    exact not_declaresVariable_of_nil hfirst hn

end ScriptLens
