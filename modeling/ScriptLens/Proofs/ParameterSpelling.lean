import ScriptLens.Proofs.TypedDeclarations

/-!
# What the text of a parameter spells

If a text is parsed as a function with one parameter and nothing is reported, then the
tokens up to the name of the parameter are modifiers and a spelling of its type. This is
read off the run, from the type outwards: a parameter, the list it is in, the function,
and the text. Every part has to be followed from a state that lies behind what comes
before it, because only the position of the name says where the spelling ends.

The function need not be given: the first two tokens decide that a declaration is parsed,
and that it is one of a function is seen from the tree.
-/

namespace ScriptLens

namespace Parser

open Grammar Node

variable {r : Setting} {bound : Nat} {s s₁ s' : State} {i : Inner} {rest : List Lexeme}

/-- The words of modifiers. -/
def modifierWords : Language Lexeme := Set.range modifierLexemes

theorem skipModifiers_reads (H : Alike r bound i i) (hs : Room r (bound + 1) s) :
    Runs (skipModifiers i) (skipModifiers i) r s fun _ s' => Reads s modifierWords s' := by
  refine H.iterate (fun _ s₁ => Reads s modifierWords s₁) _ (Nat.le_refl _) hs
    ((Reads.nil s).mono ?_) fun _ s₁ _ hI => ?_
  · rintro _ rfl
    exact ⟨[], rfl⟩
  · refine .currentKind (.ite (fun hmodifier => ?_) fun _ => .pure (.stop hI))
    have hne : s₁.kind ≠ .endOfFile := by
      intro heq
      rw [heq] at hmodifier
      cases hmodifier
    obtain ⟨word, hword⟩ : ∃ word, (s₁.current r).lexeme = .keyword (.modifier word) := by
      rw [← State.kind_current r, Token.kind] at hmodifier
      generalize (s₁.current r).lexeme = l at hmodifier
      cases l with
      | keyword word => cases word <;> first | exact ⟨_, rfl⟩ | cases hmodifier
      | _ => cases hmodifier
    have htake := Reads.take r hne
    rw [hword] at htake
    refine .step rfl (.pure (.again ⟨htake.later, State.length_take rfl hne, ?_⟩))
    refine (hI.and htake).mono ?_
    rintro _ ⟨_, ⟨words, rfl⟩, _, rfl, rfl⟩
    exact ⟨words ++ [word], List.map_append ..⟩

/-- **A parameter was read**: what stands before its name is modifiers and its type. -/
def ReadsParameter (r : Setting) (s : State) (p : Node) (s' : State) : Prop :=
  ∀ type name variadic, p.payload = .parameter type name variadic →
    ∃ s₁, Reads s (modifierWords * typeWords s.levels type) s₁ ∧ Later s₁ s'
      ∧ name.span.start = s₁.position r

theorem ReadsParameter.later {p : Node} (h : ReadsParameter r s p s₁) (hl : Later s₁ s') :
    ReadsParameter r s p s' := by
  intro type name variadic hp
  obtain ⟨s₂, hreads, hlater, hstart⟩ := h type name variadic hp
  exact ⟨s₂, hreads, hlater.trans hl, hstart⟩

theorem parameter_reads (g : Safeguard) (hs : Room r (bound + 1) s) :
    let declared := parameter (.ofBound g bound)
    Runs declared declared r s (ReadsParameter r s) := by
  refine .position (.accept (fun _ => ⟨rfl, nofun⟩) fun _ => ?_)
  refine (skipModifiers_reads (alike_self g bound) hs).bind fun _ s₁ hmodifiers => ?_
  refine (type_reads g (hs.later hmodifiers.later)).bind fun type s₂ htype => ?_
  have hs₂ := (hs.later hmodifiers.later).later htype.later
  refine declaredName_runs.bind fun name s₃ hname => ?_
  rw [hmodifiers.later.levels_eq] at htype
  have hread : ∀ s', Later s₃ s' → ∃ s₁, Reads s (modifierWords * typeWords s.levels type) s₁
      ∧ Later s₁ s' ∧ name.span.start = s₁.position r :=
    fun s' hl => ⟨s₂, hmodifiers.and htype, hname.later.trans hl,
      (hname.completes.span hs₂.fits).start_eq⟩
  refine .accept (fun hdots => ⟨rfl, ?_⟩) fun _ => ⟨rfl, ?_⟩
  · rintro _ _ _ heq
    cases heq
    exact hread _ ((Reads.mark hdots).later.trans (.count _))
  · rintro _ _ _ heq
    cases heq
    exact hread _ (.count _)

/-- The first of the parameters was read. -/
theorem parameters_reads (g : Safeguard) (hs : Room r bound s) :
    Runs (parameters (.ofBound g bound)) (parameters (.ofBound g bound)) r s fun ps s' =>
      Later s s' ∧ ∀ p tail, ps = p :: tail → ReadsParameter r s p s' := by
  let W (s : State) (ps : List Node) (s' : State) : Prop :=
    Later s s' ∧ ∀ p tail, ps = p :: tail → ReadsParameter r s p s'
  have H := alike_self (r := r) g bound
  refine H.collect W (Nat.le_succ _) hs fun s hs => ?_
  refine .currentKind (.ite (fun _ => .pure (.stop ⟨.refl s, nofun⟩)) fun _ => .position ?_)
  refine ((parameter_reads g hs.weaken).and (parameter_runs H hs.weaken)).bind ?_
  rintro p s₁ ⟨hread, hp⟩
  have hfirst : ∀ ps {s₂}, Later s₁ s₂ → W s ([p] ++ ps) s₂ := fun ps s₂ hl =>
    ⟨hp.later.trans hl, fun p' tail heq => (List.cons.inj heq).1 ▸ hread.later hl⟩
  refine .accept (fun hcomma => .pure (.again ?_)) fun _ => .position (.ite (fun _ => ?_) ?_)
  · have hmark := (Reads.mark hcomma).later
    refine ⟨hp.later.trans hmark, ?_, fun ps s₂ hps => hfirst ps (hmark.trans hps.1)⟩
    exact Nat.lt_of_lt_of_le (State.length_take_mark hcomma) hp.later.length_le
  · exact wrong_reports.bind fun m s₂ hm => .pure (.stop (hfirst [m] hm.1.later))
  · exact fun _ => .pure (.stop (hfirst [] (.refl s₁)))

/-- Whether a node declares a function whose first parameter is a given node. -/
def IsFunctionOf (p n : Node) : Prop :=
  ∃ modifiers flags type name span tail body,
    n.payload = .functionDeclaration modifiers flags type name ⟨span, p :: tail⟩ body

theorem functionDeclaration_reads (g : Safeguard) (hs : Room r (bound + 1) s) (start : Nat)
    {modifiers : List Node} {type name : Node} (hopen : s.kind = .punctuation .openParen) :
    let declared := functionDeclaration (.ofBound g bound) start modifiers type name
    Runs declared declared r s fun n s' =>
      ∀ p, IsFunctionOf p n → ReadsParameter r s.take p s' := by
  have H := alike_self (r := r) g bound
  refine Runs.bind (P := fun list s' => Later s.take s'
    ∧ ∀ p tail, list.items = p :: tail → ReadsParameter r s.take p s') (.position (.step rfl ?_)) ?_
  · refine (parameters_reads g (hs.take hopen nofun)).bind fun ps s₁ hps => ?_
    exact requireMark_reads.bind fun _ s₂ hclose => .get (.pure ⟨hps.1.trans hclose.later,
      fun p tail heq => (hps.2 p tail heq).later hclose.later⟩)
  · rintro list s₁ ⟨hlater, hread⟩
    have hs₁ := (hs.later (Reads.mark hopen).later).later hlater
    refine (functionBody_runs H hs₁).bind fun body s₂ hbody => ⟨rfl, ?_⟩
    rintro p ⟨_, _, _, _, _, tail, _, heq⟩
    cases heq
    exact (hread p tail rfl).later (hbody.later.trans (.count _))

/-- **The parameter of a function is read**, whatever comes before the parenthesis is. A
declaration of variables is none of a function. -/
theorem declaration_reads (hs : Room r (bound + 1) s) {shape : TypeShape} {ls : List Lexeme}
    {title : String} (hls : Spells shape ls) (h : s.lexemes = ls ++ .identifier title :: rest)
    (hnesting : shape.nesting < s.levels) :
    let declared := declaration (.ofBound .standard bound)
    Runs declared declared r s fun n s' => ∀ p, IsFunctionOf p n →
      ∃ s₁, Takes s rest s₁ ∧ s₁.kind = .punctuation .openParen
        ∧ ReadsParameter r s₁.take p s' := by
  refine declaration_takes hs [] hls h hnesting ?_ ?_
  · intro modifiers type name s₁ start _ htake hs₁ hopen
    refine (functionDeclaration_reads .standard hs₁ start hopen).mono fun n s' hn p hp => ?_
    exact ⟨s₁, htake, hopen, hn p hp⟩
  · intro modifiers type name s₁ start _ _ _ _
    refine ⟨rfl, ?_⟩
    rintro p ⟨_, _, _, _, _, _, _, heq⟩
    cases heq

/-- What stands first in a text is parsed first. -/
theorem topLevelElements_head (H : Alike r bound i i) (hs : Room r (bound + 1) s)
    (hne : s.kind ≠ .endOfFile) {n : Node} (h : exec (topLevelElement i) r s = (n, s₁)) :
    Runs (topLevelElements i) (topLevelElements i) r s fun ns s' =>
      Later s₁ s' ∧ ∃ tail, ns = n :: tail := by
  let W (s : State) (ns : List Node) (s' : State) : Prop := Later s s' ∧ (s.kind ≠ .endOfFile →
    ∀ n s₁, exec (topLevelElement i) r s = (n, s₁) → Later s₁ s' ∧ ∃ tail, ns = n :: tail)
  refine (H.collect W (Nat.le_refl _) hs fun s hs => ?_).mono fun ns s' hns => hns.2 hne n s₁ h
  refine .sees (fun hend => .pure (.stop ⟨.refl s, fun hne => absurd hend hne⟩)) fun hne =>
    .position ?_
  have hrun := topLevelElement_runs H hs
  refine Runs.bind (P := fun n s₁ => Parses r .element s n s₁
    ∧ exec (topLevelElement i) r s = (n, s₁)) ⟨rfl, hrun.2, rfl⟩ fun n s₁ ⟨hn, hexec⟩ => ?_
  have hmoved := hn.moves (bne_iff_ne.2 hne)
  refine .position (.step rfl (.ite (fun hstill => ?_) fun _ => .pure (.again ?_)))
  · have hpos := hs.fits.position_lt hn.later hmoved
    exact absurd (beq_iff_eq.1 (Bool.and_eq_true_iff.1 hstill).1) (Nat.ne_of_gt hpos)
  · refine ⟨hn.later, hmoved, fun ns s₂ hns => ⟨hn.later.trans hns.1, fun _ m s₃ hm => ?_⟩⟩
    obtain ⟨rfl, rfl⟩ := Prod.mk.inj (hexec.symm.trans hm)
    exact ⟨hns.1, ns, rfl⟩

/-- **The first element of a text** is what is parsed at its start. It reports nothing where
the text reports nothing. -/
theorem exec_topLevelElement_of_parse {fileName file : String} {text : List Char} {n : Node}
    {tail : List Node} (hne : (State.ofTokens (tokensOf text)).kind ≠ .endOfFile)
    (hroot : (SourceTree.parse fileName text).root.payload = .sourceFile file (n :: tail)) :
    ∃ s, exec (topLevelElement (.ofBound .standard (tokensOf text).length)) (.ofText text)
        (.ofTokens (tokensOf text)) = (n, s)
      ∧ ((SourceTree.parse fileName text).diagnostics = [] → s.reports = 0) := by
  generalize helement : exec (topLevelElement (.ofBound .standard (tokensOf text).length))
    (.ofText text) (.ofTokens (tokensOf text)) = result
  obtain ⟨n', s⟩ := result
  obtain ⟨-, hlater, tail', hns⟩ := topLevelElements_head (alike_self .standard _)
    (room_ofTokens text) hne helement
  generalize helements : exec (topLevelElements (.ofBound .standard (tokensOf text).length))
    (.ofText text) (.ofTokens (tokensOf text)) = result at hlater hns
  obtain ⟨ns, s₁⟩ := result
  have hsource : run .standard fileName text
      = (⟨s₁.nodeCount, ⟨0, Text.byteLength text⟩, .sourceFile fileName ns⟩, s₁.count) := by
    show exec (sourceFile _ fileName) _ _ = _
    rw [sourceFile, exec_bind_eq helements]
    rfl
  rw [SourceTree.parse, SourceTree.parseWith, hsource] at hroot ⊢
  obtain ⟨-, heq⟩ := Payload.sourceFile.inj hroot
  obtain ⟨rfl, -⟩ := List.cons.inj (hns.symm.trans heq)
  refine ⟨s, rfl, fun hquiet => ?_⟩
  have hdone : s₁.reports = 0 := by
    show s₁.diagnostics.size = 0
    rw [← Array.length_toList, show s₁.diagnostics.toList = [] from hquiet]
    rfl
  exact Nat.le_zero.1 (hdone ▸ hlater.reports)

/-- **The text of a function is read** up to the name of its first parameter, if no problem
is reported: the parenthesis, and then modifiers and the type of the parameter. -/
theorem parse_reads_parameter {fileName file : String} {text : List Char} {title : String}
    {p n type name : Node} {tail : List Node} {variadic : Bool}
    (h : lexemesOf text = .keyword (.basicType .void) :: .identifier title :: rest)
    (hquiet : (SourceTree.parse fileName text).diagnostics = [])
    (hroot : (SourceTree.parse fileName text).root.payload = .sourceFile file (n :: tail))
    (hn : IsFunctionOf p n) (hp : p.payload = .parameter type name variadic) :
    ∃ words shape ls s₁, rest = .punctuation .openParen
        :: (modifierLexemes words ++ (ls ++ s₁.lexemes))
      ∧ Spells shape ls ∧ type.loweredType = .ok shape ∧ shape.nesting + 1 < nestingLimit
      ∧ Later (startInside text) s₁ ∧ name.span.start = s₁.position (.ofText text) := by
  have hstart : (startInside text).lexemes = [.keyword (.basicType .void)]
      ++ .identifier title :: rest := h
  have hvoid : (⟨.void, 0, none⟩ : TypeShape).nesting < (startInside text).levels := by
    rw [TypeShape.nesting_of_none, levels_startInside]
    decide
  have hdeclares : declares (tokensOf text) = true :=
    declares_of_spells [] spells_void hstart (by rw [State.kind_of_lexemes hstart]; nofun)
  -- the first element is a declaration
  obtain ⟨-, hread⟩ := declaration_reads (room_startInside text) spells_void hstart hvoid
  generalize hrun : exec (declaration (.ofBound .standard (tokensOf text).length)) (.ofText text)
    (startInside text) = result at hread
  obtain ⟨n', s'⟩ := result
  have helement := exec_topLevelElement_of_declares (s := .ofTokens (tokensOf text)) hdeclares
    (isStray_start (by rw [h]; intro l hl; cases hl; rfl)) (by show 0 < nestingLimit; decide) hrun
  obtain ⟨s₀, hfirst, hreports⟩ :=
    exec_topLevelElement_of_parse (kind_ne_endOfFile_of_declares hdeclares) hroot
  obtain ⟨rfl, rfl⟩ := Prod.mk.inj (helement.symm.trans hfirst)
  replace hreports : s'.reports = 0 := hreports hquiet
  obtain ⟨s₁, htake, hopen, hparameter⟩ := hread p hn
  obtain ⟨s₂, hreads, hlater, hposition⟩ := hparameter type name variadic hp
  have hmark := Reads.mark hopen
  obtain ⟨_, rfl, hopened⟩ := hmark.spells (Nat.le_of_eq (State.reports_take s₁))
  have hquiet₂ : s₂.reports ≤ s₁.take.reports :=
    Nat.le_trans hlater.reports (hreports ▸ Nat.zero_le _)
  obtain ⟨_, ⟨_, ⟨words, rfl⟩, ls, ⟨shape, htype, hls, hnesting⟩, rfl⟩, hwords⟩ :=
    hreads.spells hquiet₂
  have hlevels := (htake.later.trans hmark.later).levels_eq
  rw [hlevels, levels_startInside] at hnesting
  refine ⟨words, shape, ls, s₂, ?_, hls, htype, Nat.succ_lt_succ hnesting,
    (htake.later.trans hmark.later).trans hreads.later, hposition⟩
  rw [← htake.lexemes, hopened, hwords, List.append_assoc]
  rfl

end Parser

end ScriptLens
