import ScriptLens.Proofs.Lexemes
import ScriptLens.Proofs.Nesting
import ScriptLens.Proofs.TypeSpelling

/-!
# What declares a function or a variable is parsed as one

A declaration is spelled by modifiers, a type and a name. Only what follows the name
says what it declares: an opening parenthesis makes it a function, anything else makes it
variables. So the part up to the name is taken once (`declaration_takes`), and the
parameter of a function and the semicolon behind a variable are what is left.

A text is parsed as a declaration only where it starts like one. That is decided by its
first three tokens at most (`declares`), and not by trying to parse a type. The two agree
on what spells a type, with the exception of `nil` (`declares_of_spells`).
-/

namespace ScriptLens

/-- Whether a node is a declaration of one variable that has no value. -/
def Node.DeclaresVariable (n : Node) (name : String) : Prop :=
  ∃ modifiers flags type d id, n.payload = .variableDeclaration modifiers flags type [d]
    ∧ d.payload = .variableDeclarator id none ∧ id.payload = .identifier name

namespace Parser

open Grammar Node

variable {r : Setting} {bound : Nat} {s : State} {i : Inner} {rest ls : List Lexeme}
  {shape : TypeShape} {name : String}

/-! ## Modifiers and names -/

/-- The lexemes of modifiers. -/
def modifierLexemes (words : List Modifier) : List Lexeme :=
  words.map fun w => .keyword (.modifier w)

theorem modifiers_takes (H : Alike r bound i i) (hs : Room r (bound + 1) s)
    (words : List Modifier) (h : s.lexemes = modifierLexemes words ++ rest)
    (hrest : ∀ l ∈ rest.head?, l.kind.isModifier = false) :
    Runs (modifiers i) (modifiers i) r s fun _ s' => Takes s rest s' := by
  let W (s : State) (_ : List Node) (s' : State) : Prop :=
    ∀ words, s.lexemes = modifierLexemes words ++ rest → Takes s rest s'
  refine (H.collect W (Nat.le_refl _) hs fun s hs => .current ?_).mono fun _ _ h' => h' words h
  split
  · next word hword =>
    have hkind : s.kind = .keyword (.modifier word) := by
      rw [← State.kind_current r s, Token.kind, hword]
      rfl
    have hne : s.kind ≠ .endOfFile := by
      rw [hkind]
      exact TokenKind.noConfusion
    have hfirst := State.lexemes_eq r hne
    rw [hword] at hfirst
    have htake := (Takes.take hfirst).count
    refine .step rfl (.step rfl (.pure (.again
      ⟨htake.later, State.length_take hkind (hkind ▸ hne), ?_⟩)))
    intro ns s₂ hns words hwords
    rw [hfirst] at hwords
    cases words with
    | nil =>
      rw [show rest = _ from hwords.symm] at hrest
      cases hrest _ rfl
    | cons w words =>
      exact htake.trans (hns words (List.cons.inj hwords).2)
  · next hother =>
    refine .pure (.stop fun words hwords => ?_)
    cases words with
    | nil => exact .refl hwords
    | cons w words => exact absurd (State.lexeme_current r hwords) (hother w)

/-- Where no modifier stands, none is skipped. -/
theorem skipModifiers_takes (h : s.kind.isModifier = false) :
    Runs (skipModifiers i) (skipModifiers i) r s fun _ s' => s' = s := by
  refine Runs.bind (P := fun next s' => next.2 = false ∧ s' = s) ?_ ?_
  · refine .currentKind (.ite (fun hmodifier => ?_) fun _ => .pure ⟨rfl, rfl⟩)
    rw [h] at hmodifier
    cases hmodifier
  · rintro ⟨_, _⟩ _ ⟨rfl, rfl⟩
    exact .pure rfl

theorem declaredName_takes (h : s.lexemes = .identifier name :: rest) :
    Runs declaredName declaredName r s fun n s' =>
      n.payload = .identifier name ∧ Takes s rest s' := by
  have hcurrent := State.lexeme_current r h
  refine .current ?_
  rw [hcurrent]
  refine ⟨rfl, ?_, (Takes.take h).count⟩
  show (.identifier (s.current r).lexeme.text : Payload Node) = .identifier name
  rw [hcurrent]
  rfl

/-! ## Declarations -/

/-- **What a declaration consists of** up to its name: modifiers, a type of a known shape
and the name. None of them declares anything by itself. -/
structure Declares (shape : TypeShape) (name : String) (modifiers : List Node) (type id : Node) :
    Prop where
  quiet : Quiet (modifiers ++ [type, id])
  loweredType : type.loweredType = .ok shape
  payload : id.payload = .identifier name

/-- A spelling starts with a token of one of these kinds. -/
theorem kind_of_spells (hls : Spells shape ls) (h : s.lexemes = ls ++ rest) :
    s.kind.isBasicType = true ∨ s.kind = .keyword .nilKw ∨ s.kind = .identifier := by
  obtain ⟨l, ms, rfl, hhead⟩ := hls.exists_head
  rw [State.kind_of_lexemes h]
  cases l with
  | identifier name => exact .inr (.inr rfl)
  | keyword word =>
    cases word with
    | basicType t => exact .inl rfl
    | nilKw => exact .inr (.inl rfl)
    | _ => cases hhead
  | _ => cases hhead

/-- A type starts with neither a modifier nor `class` nor punctuation. -/
theorem kind_ne_of_spells (hls : Spells shape ls) (h : s.lexemes = ls ++ rest) :
    s.kind.isModifier = false ∧ s.kind ≠ .keyword .classKw
      ∧ ∀ mark, s.kind ≠ .punctuation mark := by
  have hkind := kind_of_spells hls h
  generalize s.kind = kind at hkind
  cases kind with
  | keyword word => cases word <;> simp_all [TokenKind.isModifier, TokenKind.isBasicType]
  | _ => simp_all [TokenKind.isModifier, TokenKind.isBasicType]

/-- **A declaration is taken up to its name.** What follows decides what it declares. -/
theorem declaration_takes {Q : Node → State → Prop} (hs : Room r (bound + 1) s)
    (words : List Modifier) (hls : Spells shape ls)
    (h : s.lexemes = modifierLexemes words ++ (ls ++ .identifier name :: rest))
    (hnesting : shape.nesting < s.levels)
    (hfunction : ∀ modifiers type id s₁ start, Declares shape name modifiers type id →
      Takes s rest s₁ → Room r (bound + 1) s₁ → s₁.kind = .punctuation .openParen →
        let declared := functionDeclaration (.ofBound .standard bound) start modifiers type id
        Runs declared declared r s₁ Q)
    (hvariable : ∀ modifiers type id s₁ start, Declares shape name modifiers type id →
      Takes s rest s₁ → Room r (bound + 1) s₁ → s₁.kind ≠ .punctuation .openParen →
        let declared := variableDeclaration (.ofBound .standard bound) start modifiers type id
        Runs declared declared r s₁ Q) :
    let declared := declaration (.ofBound .standard bound)
    Runs declared declared r s Q := by
  have H := alike_self (r := r) .standard bound
  have hhead : ∀ l ∈ (ls ++ .identifier name :: rest).head?, l.kind.isModifier = false := by
    intro l hl
    obtain ⟨l', ms, rfl, hhead⟩ := hls.exists_head
    cases hl
    cases l with
    | keyword word =>
      cases word with
      | modifier w => cases hhead
      | _ => rfl
    | _ => rfl
  refine .position (((modifiers_takes H hs words h hhead).yields modifiers_quiet).bind ?_)
  rintro modifiers s₁ ⟨hmodifiers, hquiet⟩
  refine .sees (fun hclass => absurd hclass ?_) fun _ => ?_
  · exact (kind_ne_of_spells hls hmodifiers.lexemes).2.1
  have hs₁ := hs.later hmodifiers.later
  refine ((type_takes .standard hs₁ hls hmodifiers.lexemes (by simp [Stops])
    (hmodifiers.later.levels_eq ▸ hnesting)).yields (type_quiet (quiet_ofBound bound))).bind ?_
  rintro type s₂ ⟨⟨htype, htake⟩, hsilent⟩
  refine ((declaredName_takes htake.lexemes).yields declaredName_quiet).bind ?_
  rintro id s₃ ⟨⟨hid, hname⟩, hsilent'⟩
  have hdeclares : Declares shape name modifiers type id :=
    ⟨by simp [hquiet, hsilent, hsilent'], htype, hid⟩
  have hdone := (hmodifiers.trans htake).trans hname
  have hs₃ := hs.later hdone.later
  exact .sees (fun hopen => hfunction _ _ _ _ _ hdeclares hdone hs₃ hopen)
    fun hopen => hvariable _ _ _ _ _ hdeclares hdone hs₃ hopen

/-! ## A variable -/

/-- A variable without a value ends at its semicolon. -/
theorem variableDeclaration_takes (hs : Room r (bound + 1) s) (start : Nat)
    {modifiers : List Node} {type id : Node}
    (h : s.lexemes = .punctuation .semicolon :: rest) :
    let declared := variableDeclaration (.ofBound .standard bound) start modifiers type id
    Runs declared declared r s fun n s' =>
      (∃ d, n.payload = .variableDeclaration modifiers (modifiers.filterMap modifierWord?) type [d]
        ∧ d.payload = .variableDeclarator id none) ∧ Takes s rest s' := by
  have hkind : s.kind = .punctuation .semicolon := State.kind_of_lexemes h
  have hne : ∀ mark ≠ .semicolon, s.kind ≠ .punctuation mark := by
    intro mark hmark heq
    rw [hkind] at heq
    exact hmark (TokenKind.punctuation.inj heq).symm
  have hdeclarator : Runs (declarator (.ofBound .standard bound) id)
      (declarator (.ofBound .standard bound) id) r s
      fun d s' => d.payload = .variableDeclarator id none ∧ s' = s.count :=
    .bind (P := fun value s' => value = none ∧ s' = s)
      (.accept (fun heq => absurd heq (hne _ nofun)) fun _ => .pure ⟨rfl, rfl⟩)
      (by rintro _ _ ⟨rfl, rfl⟩; exact ⟨rfl, rfl, rfl⟩)
  have hmore : Runs (moreDeclarators (.ofBound .standard bound))
      (moreDeclarators (.ofBound .standard bound)) r s.count
      fun ds s' => ds = [] ∧ s' = s.count :=
    .bind (P := fun next s' => next = ([], false) ∧ s' = s.count)
      (.accept (fun heq => absurd heq (hne _ nofun)) fun _ => .pure ⟨rfl, rfl⟩)
      (by rintro _ _ ⟨rfl, rfl⟩; exact .pure ⟨rfl, rfl⟩)
  refine hdeclarator.bind ?_
  rintro d _ ⟨hd, rfl⟩
  refine hmore.bind ?_
  rintro _ _ ⟨rfl, rfl⟩
  refine (requireMark_takes (s := s.count) h).bind fun _ s₁ hmark => ?_
  refine ⟨rfl, ⟨d, rfl, hd⟩, ((Takes.refl h).count.trans hmark).count⟩

/-! ## A function of one parameter -/

theorem parameter_takes (hs : Room r (bound + 1) s) (hls : Spells shape ls)
    (h : s.lexemes = ls ++ .identifier name :: rest)
    (hrest : ∀ l ∈ rest.head?, l ≠ .punctuation .ellipsis) (hnesting : shape.nesting < s.levels) :
    Runs (parameter (.ofBound .standard bound)) (parameter (.ofBound .standard bound)) r s
      fun p s' => (∃ type id, p.payload = .parameter type id false ∧ Declares shape name [] type id)
        ∧ Takes s rest s' := by
  obtain ⟨hmodifier, -, hmark⟩ := kind_ne_of_spells hls h
  refine .position (.accept (fun hdots => absurd hdots (hmark _)) fun _ => ?_)
  refine (skipModifiers_takes hmodifier).bind ?_
  rintro _ _ rfl
  refine ((type_takes .standard hs hls h (by simp [Stops]) hnesting).yields
    (type_quiet (quiet_ofBound bound))).bind ?_
  rintro type s₁ ⟨⟨htype, htake⟩, hsilent⟩
  refine ((declaredName_takes htake.lexemes).yields declaredName_quiet).bind ?_
  rintro id s₂ ⟨⟨hid, hname⟩, hsilent'⟩
  have hdeclares : Declares shape name [] type id :=
    ⟨by simp [hsilent, hsilent'], htype, hid⟩
  rw [← hname.lexemes] at hrest
  refine .accept (fun hdots => absurd hdots (State.kind_ne_punctuation hrest)) fun _ => ?_
  exact ⟨rfl, ⟨type, id, rfl, hdeclares⟩, (htake.trans hname).count⟩

theorem length_upcoming (h : s.lexemes = ls) : s.upcoming.length = ls.length := by
  rw [← h, State.lexemes, List.length_map]

/-- The only parameter of a function is taken. -/
theorem parameters_takes (hs : Room r bound s) (hls : Spells shape ls)
    (h : s.lexemes = ls ++ .identifier name :: .punctuation .closeParen :: rest)
    (hnesting : shape.nesting < s.levels) :
    Runs (parameters (.ofBound .standard bound)) (parameters (.ofBound .standard bound)) r s
      fun ps s' => (∃ p type id, ps = [p] ∧ p.payload = .parameter type id false
        ∧ Declares shape name [] type id) ∧ Takes s (.punctuation .closeParen :: rest) s' := by
  obtain ⟨-, -, hmark⟩ := kind_ne_of_spells hls h
  have hends : endsParameters s.kind = false := by
    have hkind := kind_of_spells hls h
    generalize s.kind = kind at hkind
    cases kind <;> simp_all [endsParameters, TokenKind.isBasicType]
  refine Runs.bind (P := fun next s' => next.2 = false ∧ (∃ p type id, next.1 = [p]
      ∧ p.payload = .parameter type id false ∧ Declares shape name [] type id)
      ∧ Takes s (.punctuation .closeParen :: rest) s') (.currentKind (.ite (fun hend => ?_)
      fun _ => .position ?_)) ?_
  · rw [hends] at hend
    cases hend
  · refine (parameter_takes hs.weaken hls h (by simp) hnesting).bind ?_
    rintro p s₁ ⟨⟨type, id, hp, hdeclares⟩, htake⟩
    have hclose := State.kind_of_lexemes htake.lexemes
    refine .accept (fun hcomma => ?_) fun _ => .position (.ite (fun hstill => ?_) fun _ => ?_)
    · rw [hclose] at hcomma
      cases hcomma
    · have hshort : s₁.upcoming.length < s.upcoming.length := by
        rw [length_upcoming h, length_upcoming htake.lexemes]
        simp only [List.length_append, List.length_cons]
        omega
      exact absurd (beq_iff_eq.1 hstill) (Nat.ne_of_gt (hs.fits.position_lt htake.later hshort))
    · exact .pure ⟨rfl, ⟨p, type, id, rfl, hp, hdeclares⟩, htake⟩
  · rintro ⟨ps, _⟩ s₁ ⟨rfl, hps⟩
    exact .pure hps

/-- Among nodes that declare nothing there is no parameter. -/
theorem find?_parameter_of_quiet {ns : List Node} (h : Quiet ns) :
    (ns.flatMap postorder).find? (·.kind == .parameter) = none := by
  refine List.find?_eq_none.2 fun n hn hparameter => ?_
  obtain ⟨m, hm, hmem⟩ := List.mem_flatMap.1 hn
  have hsilent := h m hm n hmem
  rw [beq_iff_eq.1 hparameter] at hsilent
  cases hsilent

theorem find?_parameter {n p type id type' id' : Node} {modifiers : List Node}
    {words : List Modifier} {span : Span} {variadic : Bool}
    (hn : n.payload = .functionDeclaration modifiers words type id ⟨span, [p]⟩ none)
    (hquiet : Quiet (modifiers ++ [type, id])) (hp : p.payload = .parameter type' id' variadic)
    (hquiet' : Quiet [type', id']) : n.postorder.find? (·.kind == .parameter) = some p := by
  have hchildren : n.children = modifiers ++ [type, id] ++ [p] := by
    rw [children, hn]
    simp [Payload.children]
  have hinside : p.children = [type', id'] := by
    rw [children, hp]
    rfl
  have hkind : (p.kind == .parameter) = true := by
    rw [kind, hp]
    rfl
  rw [postorder_eq, hchildren, List.flatMap_append, List.flatMap_singleton, postorder_eq p, hinside,
    List.find?_append, List.find?_append, find?_parameter_of_quiet hquiet, List.find?_append,
    find?_parameter_of_quiet hquiet', List.find?_singleton, if_pos hkind]
  rfl

/-- **A function without a body is taken**, and its first parameter has the type that is
spelled. -/
theorem functionDeclaration_takes (hs : Room r (bound + 1) s) (start : Nat) {result : TypeShape}
    {title : String} {modifiers : List Node} {type id : Node}
    (hdeclares : Declares result title modifiers type id) (hls : Spells shape ls)
    (h : s.lexemes = .punctuation .openParen :: (ls ++ .identifier name
      :: .punctuation .closeParen :: .punctuation .semicolon :: rest))
    (hnesting : shape.nesting < s.levels) :
    let declared := functionDeclaration (.ofBound .standard bound) start modifiers type id
    Runs declared declared r s fun n s' =>
      (∃ p, n.postorder.find? (·.kind == .parameter) = some p ∧ p.loweredType = .ok shape)
        ∧ Takes s rest s' := by
  have hopen := Takes.take h
  have hs₁ : Room r bound s.take := hs.take (State.kind_of_lexemes h) nofun
  refine Runs.bind (P := fun list s' => (∃ p type id, list.items = [p]
      ∧ p.payload = .parameter type id false ∧ Declares shape name [] type id)
      ∧ Takes s (.punctuation .semicolon :: rest) s') (.position (.step rfl ?_)) ?_
  · refine (parameters_takes hs₁ hls hopen.lexemes (hopen.later.levels_eq ▸ hnesting)).bind ?_
    rintro ps s₂ ⟨hps, htake⟩
    exact (requireMark_takes htake.lexemes).bind fun _ s₃ hclose =>
      .get (.pure ⟨hps, (hopen.trans htake).trans hclose⟩)
  · rintro ⟨span, items⟩ s₁ ⟨⟨p, type', id', hitems, hp, hparameter⟩, htake⟩
    obtain rfl : items = [p] := hitems
    have hbody : s₁.kind ≠ .punctuation .openBrace := by
      rw [State.kind_of_lexemes htake.lexemes]
      nofun
    refine Runs.bind (P := fun body s' => body = none ∧ Takes s rest s')
      (.sees (fun hbrace => absurd hbrace hbody) fun _ => ?_) ?_
    · exact (requireMark_takes htake.lexemes).bind fun _ s₂ hmark =>
        .pure ⟨rfl, htake.trans hmark⟩
    · rintro _ s₂ ⟨rfl, hdone⟩
      refine ⟨rfl, ⟨p, find?_parameter rfl hdeclares.quiet hp hparameter.quiet, ?_⟩, hdone.count⟩
      obtain ⟨pid, pspan, payload⟩ := p
      obtain rfl : payload = _ := hp
      rw [loweredType, hparameter.loweredType]

/-! ## A text of one declaration -/

/-- What the first tokens of a declaration are. -/
theorem declares_iff : declares s.upcoming = true ↔ s.kind.isModifier = true
    ∨ s.kind = .keyword .classKw ∨ s.kind.isBasicType = true
    ∨ s.kind = .identifier ∧ (s.take.kind = .identifier
      ∨ s.take.kind = .punctuation .openBracket
        ∧ s.take.take.kind = .punctuation .closeBracket) := by
  obtain ⟨upcoming, previousEnd, diagnostics, nodeCount, depth⟩ := s
  rcases upcoming with _ | ⟨t, _ | ⟨u, _ | ⟨v, ts⟩⟩⟩ <;>
    simp [declares, State.kind, State.take, TokenKind.isModifier, TokenKind.isBasicType, or_assoc]

theorem kind_ne_endOfFile_of_declares (h : declares s.upcoming = true) :
    s.kind ≠ .endOfFile := by
  intro heq
  rw [declares_iff, heq] at h
  simp [TokenKind.isModifier, TokenKind.isBasicType] at h

/-- **A type and a name start a declaration**, behind modifiers or with another word than
`nil`. -/
theorem declares_of_spells (words : List Modifier) (hls : Spells shape ls)
    (h : s.lexemes = modifierLexemes words ++ (ls ++ .identifier name :: rest))
    (hnil : s.kind ≠ .keyword .nilKw) : declares s.upcoming = true := by
  rw [declares_iff]
  cases words with
  | cons w words =>
    rw [State.kind_of_lexemes h]
    exact .inl rfl
  | nil =>
    rcases kind_of_spells hls h with hbasic | hkind | hkind
    · exact .inr (.inr (.inl hbasic))
    · exact absurd hkind hnil
    · refine .inr (.inr (.inr ⟨hkind, ?_⟩))
      -- a word that is no keyword is followed by the name or by brackets
      cases hls with
      | function _ _ =>
        rw [State.kind_of_lexemes h] at hkind
        cases hkind
      | @word depth lexeme head hhead =>
        have hafter := State.lexemes_take h
        cases depth with
        | zero => exact .inl (State.kind_of_lexemes hafter)
        | succ depth =>
          exact .inr ⟨State.kind_of_lexemes hafter,
            State.kind_of_lexemes (State.lexemes_take hafter)⟩

/-- **What starts like a declaration is parsed as one.** -/
theorem exec_topLevelElement_of_declares (hdeclares : declares s.upcoming = true)
    (hstray : (s.current r).lexeme.isStray = false) (hdepth : s.depth < nestingLimit)
    {n : Node} {s' : State} (h : exec (declaration i) r s.enter = (n, s')) :
    exec (topLevelElement i) r s = (n, s'.leave) := by
  have hkind : exec currentKind r s = (s.kind, s) := rfl
  have hkind' : exec currentKind r s.enter = (s.kind, s.enter) := rfl
  have hcurrent : exec current r s.enter = (s.current r, s.enter) := rfl
  have hstarts : exec startsDeclaration r s.enter = (true, s.enter) := by
    rw [← hdeclares]
    rfl
  have hplain : exec (plainStatement i) r s.enter = (n, s') := by
    rw [plainStatement, exec_bind_eq hcurrent, hstray, if_neg Bool.false_ne_true,
      exec_bind_eq hstarts, if_pos rfl, h]
  have hfirst := declares_iff.1 hdeclares
  have hbody : exec (statementBody i) r s.enter = (n, s') := by
    rw [statementBody, exec_bind_eq hkind']
    split <;> first | exact hplain | simp_all [TokenKind.isModifier, TokenKind.isBasicType]
  rw [topLevelElement, exec_bind_eq hkind]
  split
  · simp_all [TokenKind.isModifier, TokenKind.isBasicType]
  · simp_all [TokenKind.isModifier, TokenKind.isBasicType]
  · exact exec_nested hdepth hbody

/-- A text is one declaration if that leaves no token. -/
theorem exec_sourceFile_of_declares {fileName : String} (hdeclares : declares s.upcoming = true)
    (hstray : (s.current r).lexeme.isStray = false) (hdepth : s.depth < nestingLimit)
    {n : Node} {s' : State}
    (h : exec (declaration (.ofBound .standard (bound + 1))) r s.enter = (n, s'))
    (hend : s'.kind = .endOfFile) :
    exec (sourceFile (.ofBound .standard (bound + 1)) fileName) r s
      = (⟨s'.nodeCount, ⟨0, r.length⟩, .sourceFile fileName [n]⟩, s'.leave.count) := by
  have hne := kind_ne_endOfFile_of_declares hdeclares
  have helements : exec (topLevelElements (.ofBound .standard (bound + 1))) r s = ([n], s'.leave) :=
    exec_topLevelElements hne hend (exec_topLevelElement_of_declares hdeclares hstray hdepth h)
  rw [sourceFile, exec_bind_eq helements]
  rfl

/-- The state at the start of a text, one construct further in. -/
def startInside (text : List Char) : State := (State.ofTokens (tokensOf text)).enter

theorem lexemes_startInside (text : List Char) : (startInside text).lexemes = lexemesOf text := rfl

theorem levels_startInside (text : List Char) : (startInside text).levels = 255 := rfl

theorem room_startInside (text : List Char) :
    Room (.ofText text) ((tokensOf text).length + 1) (startInside text) :=
  (room_ofTokens text).enter

theorem isStray_start {text : List Char} (h : ∀ l ∈ (lexemesOf text).head?, l.isStray = false) :
    ((State.ofTokens (tokensOf text)).current (.ofText text)).lexeme.isStray = false := by
  cases htokens : tokensOf text with
  | nil => rfl
  | cons t ts => exact h _ (by rw [lexemesOf, htokens]; rfl)

/-- **A text of one declaration** is parsed as that declaration, without a problem. -/
theorem parse_of_declaration (fileName : String) {text : List Char} {P : Node → Prop}
    (hdeclares : declares (tokensOf text) = true)
    (hstray : ∀ l ∈ (lexemesOf text).head?, l.isStray = false)
    (h : let declared := declaration (.ofBound .standard (tokensOf text).length)
      Runs declared declared (.ofText text) (startInside text) fun n s' =>
        P n ∧ Takes (startInside text) [] s') :
    (SourceTree.parse fileName text).diagnostics = []
      ∧ ∃ n, P n ∧ (SourceTree.parse fileName text).root.payload = .sourceFile fileName [n] := by
  obtain ⟨-, hn, htake⟩ := h
  generalize hrun : exec (declaration (.ofBound .standard (tokensOf text).length)) (.ofText text)
    (startInside text) = result at hn htake
  obtain ⟨n, s'⟩ := result
  obtain ⟨bound, hbound⟩ : ∃ bound, (tokensOf text).length = bound + 1 := by
    refine Nat.exists_eq_succ_of_ne_zero fun hzero => ?_
    rw [List.length_eq_zero_iff.1 hzero] at hdeclares
    cases hdeclares
  have hend : s'.kind = .endOfFile := by
    rw [State.kind, List.map_eq_nil_iff.1 htake.lexemes]
  have hsource : run .standard fileName text
      = (⟨s'.nodeCount, ⟨0, Text.byteLength text⟩, .sourceFile fileName [n]⟩, s'.leave.count) := by
    show exec (sourceFile (.ofBound .standard (tokensOf text).length) fileName) _ _ = _
    rw [hbound] at hrun ⊢
    have hdepth : 0 < nestingLimit := by decide
    exact exec_sourceFile_of_declares hdeclares (isStray_start hstray) hdepth hrun hend
  rw [SourceTree.parse, SourceTree.parseWith, hsource]
  refine ⟨?_, n, hn, rfl⟩
  show s'.diagnostics.toList = []
  rw [htake.diagnostics]
  rfl

/-- The lexemes of a function that takes one parameter, up to the type of the parameter. -/
def functionHead : List Lexeme :=
  [.keyword (.basicType .void), .identifier "f", .punctuation .openParen]

theorem spells_void : Spells ⟨.void, 0, none⟩ [.keyword (.basicType .void)] :=
  @Spells.word 0 _ (.basic .void) rfl

/-- **The parameter of a function has the type that is spelled**, if function types are not
too deep inside each other. One level is the declaration's. -/
theorem parse_function (fileName : String) {text : List Char} (hls : Spells shape ls)
    (h : lexemesOf text = functionHead
      ++ (ls ++ [.identifier name, .punctuation .closeParen, .punctuation .semicolon]))
    (hnesting : shape.nesting + 1 < nestingLimit) :
    let tree := SourceTree.parse fileName text
    tree.diagnostics = [] ∧ ∃ p, tree.nodes.find? (·.kind == .parameter) = some p
      ∧ p.loweredType = .ok shape := by
  have hstart : (startInside text).lexemes = _ := h
  have hvoid : (⟨.void, 0, none⟩ : TypeShape).nesting < (startInside text).levels := by
    rw [TypeShape.nesting_of_none, levels_startInside]
    decide
  have hfirst : (startInside text).kind ≠ .keyword .nilKw := by
    rw [State.kind_of_lexemes hstart]
    nofun
  obtain ⟨hquiet, n, ⟨p, hp, htype⟩, hroot⟩ := parse_of_declaration fileName
    (P := fun n => ∃ p, n.postorder.find? (·.kind == .parameter) = some p
      ∧ p.loweredType = .ok shape)
    (declares_of_spells [] spells_void hstart hfirst) (by rw [h]; intro l hl; cases hl; rfl) (by
      refine declaration_takes (room_startInside text) [] spells_void hstart hvoid ?_ ?_
      · intro modifiers type id s₁ start hdeclares htake hs₁ _
        refine (functionDeclaration_takes hs₁ start hdeclares hls htake.lexemes ?_).mono
          fun n s' hn => ⟨hn.1, htake.trans hn.2⟩
        exact htake.later.levels_eq ▸ Nat.lt_sub_of_add_lt hnesting
      · intro modifiers type id s₁ start hdeclares htake hs₁ hne
        exact absurd (State.kind_of_lexemes htake.lexemes) hne)
  refine ⟨hquiet, p, ?_, htype⟩
  rw [SourceTree.nodes, postorder_eq, children, hroot]
  simp [Payload.children, hp]

/-- **A variable has the type that is spelled**, where the spelling does not start with
`nil`. -/
theorem parse_variable (fileName : String) {text : List Char} (words : List Modifier)
    (hls : Spells shape ls) (h : lexemesOf text
      = modifierLexemes words ++ (ls ++ [.identifier name, .punctuation .semicolon]))
    (hnesting : shape.nesting + 1 < nestingLimit)
    (hnil : (lexemesOf text).head? ≠ some (.keyword .nilKw)) :
    let tree := SourceTree.parse fileName text
    tree.diagnostics = [] ∧ ∃ n, (n.loweredType = .ok shape ∧ n.DeclaresVariable name)
      ∧ tree.root.payload = .sourceFile fileName [n] := by
  have hstart : (startInside text).lexemes = _ := h
  have hkind : (startInside text).kind ≠ .keyword .nilKw := by
    intro heq
    cases hlexemes : lexemesOf text with
    | nil =>
      rw [State.kind_of_nil ((lexemes_startInside text).trans hlexemes)] at heq
      cases heq
    | cons l rest =>
      rw [State.kind_of_lexemes ((lexemes_startInside text).trans hlexemes)] at heq
      cases l <;> cases heq
      exact hnil (by rw [hlexemes]; rfl)
  refine parse_of_declaration fileName (declares_of_spells words hls hstart hkind) ?_ ?_
  · obtain ⟨l, ms, rfl, hhead⟩ := hls.exists_head
    rw [h]
    intro l' hl'
    cases words with
    | cons w words => cases hl'; rfl
    | nil =>
      cases hl'
      cases l <;> first | rfl | cases hhead
  · refine declaration_takes (room_startInside text) words hls hstart
      (Nat.lt_sub_of_add_lt hnesting) ?_ ?_
    · intro modifiers type id s₁ start hdeclares htake hs₁ hopen
      rw [State.kind_of_lexemes htake.lexemes] at hopen
      cases hopen
    · intro modifiers type id s₁ start hdeclares htake hs₁ _
      refine (variableDeclaration_takes hs₁ start htake.lexemes).mono ?_
      rintro ⟨nid, span, _⟩ s' ⟨⟨d, rfl, hd⟩, hdone⟩
      refine ⟨⟨?_, modifiers, _, type, d, id, rfl, hd, hdeclares.payload⟩, htake.trans hdone⟩
      rw [loweredType, hdeclares.loweredType]

end Parser

end ScriptLens
