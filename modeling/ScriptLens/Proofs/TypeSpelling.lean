import Mathlib
import ScriptLens.Proofs.SourceRuns
import ScriptLens.Types.Lower

/-!
# What spells a type

A type is spelled by a list of lexemes: a word or a function type, followed by pairs of
brackets. `Spells` writes that down together with the type that is meant, so that a
spelling and a shape are the two sides of one derivation. The parser agrees with it in
both directions. What it reads without a problem spells the type that its node denotes
(`type_reads`), and what spells a type it takes, up to where that type ends
(`type_takes`).

Neither direction is a matter of kinds of tokens alone. The shape depends on the names
that the words spell, and a type is refused where it is too deep inside others, so the
nesting of the shape is compared with the levels that are left.
-/

namespace ScriptLens

/-! ## Function types inside each other -/

namespace TypeShape

/-- **How many function types are inside each other**, where a function type says what it
takes and gives. -/
def nesting (s : TypeShape) : Nat :=
  match _ : s.signature with
  | none => 0
  | some f =>
    (f.parameters.attach.map fun p => nesting p.1).foldl max (nesting f.returnType) + 1
termination_by s
decreasing_by
  · exact sizeOf_returnType_lt ‹_›
  · exact sizeOf_parameter_lt ‹_› p.2

theorem nesting_of_none {tag : TypeTag} {depth : Nat} : nesting ⟨tag, depth, none⟩ = 0 := by
  rw [nesting]

theorem foldl_max_lt_iff {xs : List Nat} {x n : Nat} :
    xs.foldl max x < n ↔ x < n ∧ ∀ y ∈ xs, y < n := by
  induction xs generalizing x with
  | nil => simp
  | cons y xs ih => rw [List.foldl_cons, ih, Nat.max_lt, List.forall_mem_cons, and_assoc]

/-- A function type is one level further out than its parts. -/
theorem nesting_lt_succ_iff {tag : TypeTag} {depth n : Nat} {f : Signature TypeShape} :
    nesting ⟨tag, depth, some f⟩ < n + 1
      ↔ f.returnType.nesting < n ∧ ∀ p ∈ f.parameters, p.nesting < n := by
  rw [nesting, Nat.add_lt_add_iff_right, foldl_max_lt_iff]
  simp

end TypeShape

/-! ## Spellings -/

/-- The lexemes of empty bracket pairs. -/
def bracketLexemes : Nat → List Lexeme
  | 0 => []
  | depth + 1 =>
    .punctuation .openBracket :: .punctuation .closeBracket :: bracketLexemes depth

section Parameters

variable (rule : TypeShape → List Lexeme → Prop)

/-- The lexemes of one parameter of a function type, which is a type or `...`. -/
inductive SpellsItem : Option TypeShape → List Lexeme → Prop
  | dots : SpellsItem none [.punctuation .ellipsis]
  | type {shape : TypeShape} {ls : List Lexeme} : rule shape ls → SpellsItem (some shape) ls

/-- The lexemes of one or more parameters with commas between them. -/
inductive SpellsSeries : List (Option TypeShape) → List Lexeme → Prop
  | single {item : Option TypeShape} {ls : List Lexeme} :
    SpellsItem rule item ls → SpellsSeries [item] ls
  | cons {item : Option TypeShape} {items : List (Option TypeShape)} {ls ms : List Lexeme} :
    SpellsItem rule item ls → SpellsSeries items ms →
      SpellsSeries (item :: items) (ls ++ .punctuation .comma :: ms)

/-- The lexemes of the parameters of a function type, if there are any. -/
inductive SpellsItems : List (Option TypeShape) → List Lexeme → Prop
  | none : SpellsItems [] []
  | some {items : List (Option TypeShape)} {ls : List Lexeme} :
    SpellsSeries rule items ls → SpellsItems items ls

end Parameters

/-- **The lexemes that spell a type.** The parameters of a function type are types and
`...`, in any order. -/
inductive Spells : TypeShape → List Lexeme → Prop
  | word {depth : Nat} {lexeme : Lexeme} {head : TypeHead} :
    Parser.typeHead? lexeme = some head →
      Spells (.arrayOf (.ofHead head) depth) (lexeme :: bracketLexemes depth)
  | function {depth : Nat} {returnType : TypeShape} {items : List (Option TypeShape)}
    {ls ms : List Lexeme} :
    Spells returnType ls → SpellsItems Spells items ms →
      Spells ⟨.function, depth, some ⟨returnType, items.reduceOption, items.contains none⟩⟩
        (.keyword (.basicType .function) :: .punctuation .less
          :: (ls ++ .punctuation .openParen :: (ms ++ .punctuation .closeParen
            :: .punctuation .greater :: bracketLexemes depth)))

/-- A spelling starts with a word of a type. -/
theorem Spells.exists_head {shape : TypeShape} {ls : List Lexeme} (h : Spells shape ls) :
    ∃ l ms, ls = l :: ms ∧ (Parser.typeHead? l).isSome = true := by
  cases h with
  | word hhead => exact ⟨_, _, rfl, by rw [hhead]; rfl⟩
  | function _ _ => exact ⟨_, _, rfl, rfl⟩

namespace Node

/-- What a node says that stands for a parameter of a function type. -/
def Says (n : Node) : Option TypeShape → Prop
  | none => n.kind = .ellipsis
  | some shape => n.loweredType = .ok shape

theorem kind_ne_ellipsis_of_loweredType {n : Node} {shape : TypeShape}
    (h : n.loweredType = .ok shape) : n.kind ≠ .ellipsis := by
  obtain ⟨id, span, payload⟩ := n
  cases payload
  case ellipsis => rw [loweredType.eq_def] at h; cases h
  all_goals nofun

theorem says_none_iff {n : Node} {item : Option TypeShape} (h : n.Says item) :
    (n.kind == .ellipsis) = (item == none) := by
  cases item with
  | none => exact beq_iff_eq.2 h
  | some shape => exact beq_eq_false_iff_ne.2 (kind_ne_ellipsis_of_loweredType h)

theorem mapM_loweredType {ns : List Node} {items : List (Option TypeShape)}
    (h : List.Forall₂ Says ns items) :
    (ns.filter (·.kind != .ellipsis)).mapM loweredType = .ok items.reduceOption := by
  induction h with
  | nil => rfl
  | @cons n item ns items hn _ ih =>
    have hkind := says_none_iff hn
    cases item with
    | none =>
      rw [List.filter_cons_of_neg (by rw [bne, hkind]; decide), ih]
      rfl
    | some shape =>
      rw [List.filter_cons_of_pos (by rw [bne, hkind]; rfl), List.mapM_cons, ih,
        show n.loweredType = .ok shape from hn]
      rfl

theorem any_ellipsis_eq {ns : List Node} {items : List (Option TypeShape)}
    (h : List.Forall₂ Says ns items) : ns.any (·.kind == .ellipsis) = items.contains none := by
  induction h with
  | nil => rfl
  | @cons n item ns items hn _ ih =>
    rw [List.any_cons, ih, says_none_iff hn, List.contains_cons, BEq.comm]

/-- A word with brackets denotes an array type. -/
theorem loweredType_typeName (id : Nat) (span : Span) (head : TypeHead) (depth : Nat) :
    loweredType ⟨id, span, .typeName head depth⟩ = .ok (.arrayOf (.ofHead head) depth) := by
  rw [loweredType]

/-- **A function type denotes what its parts say.** -/
theorem loweredType_functionType (id : Nat) (span : Span) {returnType : Node} {ns : List Node}
    {result : TypeShape} {items : List (Option TypeShape)} (depth : Nat)
    (hresult : returnType.loweredType = .ok result) (hitems : List.Forall₂ Says ns items) :
    loweredType ⟨id, span, .functionType returnType ns (ns.any (·.kind == .ellipsis)) depth⟩
      = .ok ⟨.function, depth, some ⟨result, items.reduceOption, items.contains none⟩⟩ := by
  have hparameters : (ns.attach.filter (·.1.kind != .ellipsis)).mapM
      (fun p => loweredType p.1) = .ok items.reduceOption := by
    have hfilter : (ns.attach.filter (·.1.kind != .ellipsis)).map Subtype.val
        = ns.filter (·.kind != .ellipsis) := by
      conv_rhs => rw [← List.attach_map_subtype_val ns, List.filter_map]
      rfl
    rw [← mapM_loweredType hitems, ← hfilter, List.mapM_map]
    rfl
  rw [loweredType, hresult, any_ellipsis_eq hitems]
  dsimp only [bind, Except.bind]
  rw [hparameters]
  rfl

end Node

namespace Parser

open Grammar

namespace State

/-- What the tokens say that are not consumed yet. -/
def lexemes (s : State) : List Lexeme := s.upcoming.map (·.lexeme)

/-- How many more constructs may be opened inside each other. -/
def levels (s : State) : Nat := nestingLimit - s.depth

variable {s : State} {l : Lexeme} {ls : List Lexeme}

theorem upcoming_of_lexemes (h : s.lexemes = l :: ls) :
    ∃ t ts, s.upcoming = t :: ts ∧ t.lexeme = l ∧ ts.map (·.lexeme) = ls :=
  List.map_eq_cons_iff.1 h

theorem kind_of_lexemes (h : s.lexemes = l :: ls) : s.kind = l.kind := by
  obtain ⟨t, ts, hup, rfl, -⟩ := upcoming_of_lexemes h
  rw [kind, hup]
  rfl

theorem kind_of_nil (h : s.lexemes = []) : s.kind = .endOfFile := by
  rw [kind, List.map_eq_nil_iff.1 h]

/-- Punctuation stands where the first lexeme says so. -/
theorem kind_ne_punctuation {mark : Punctuation}
    (h : ∀ l ∈ s.lexemes.head?, l ≠ .punctuation mark) : s.kind ≠ .punctuation mark := by
  intro heq
  cases hls : s.lexemes with
  | nil =>
    rw [kind_of_nil hls] at heq
    cases heq
  | cons l ls =>
    rw [kind_of_lexemes hls] at heq
    cases l <;> cases heq
    exact h _ (by rw [hls]; rfl) rfl

theorem lexeme_current (r : Setting) (h : s.lexemes = l :: ls) : (s.current r).lexeme = l := by
  obtain ⟨t, ts, hup, rfl, -⟩ := upcoming_of_lexemes h
  rw [current, hup]

theorem lexemes_take (h : s.lexemes = l :: ls) : s.take.lexemes = ls := by
  obtain ⟨t, ts, hup, -, rfl⟩ := upcoming_of_lexemes h
  rw [lexemes, upcoming_take hup]

/-- A token that is there is not the end of the text. -/
theorem lexemes_eq (r : Setting) (h : s.kind ≠ .endOfFile) :
    s.lexemes = (s.current r).lexeme :: s.take.lexemes := by
  obtain ⟨t, ts, hup⟩ := List.exists_cons_of_ne_nil (upcoming_ne_nil h)
  rw [lexemes, lexemes, upcoming_take hup, current, hup]
  rfl

end State

theorem Later.levels_eq {s s' : State} (h : Later s s') : s'.levels = s.levels := by
  rw [State.levels, h.depth, State.levels]

/-! ## What is read spells a type -/

/-- **The outcome of a step that reads lexemes**: unless it reports a problem, what it
consumed is a word of the language `L`. -/
structure Reads (s : State) (L : Language Lexeme) (s' : State) : Prop where
  later : Later s s'
  spells : s'.reports ≤ s.reports → ∃ ls ∈ L, s.lexemes = ls ++ s'.lexemes

namespace Reads

variable {r : Setting} {s s₁ s' : State} {L M : Language Lexeme}

theorem nil (s : State) : Reads s 1 s := ⟨.refl s, fun _ => ⟨[], rfl, rfl⟩⟩

/-- One step after another. -/
theorem and (h : Reads s L s₁) (h' : Reads s₁ M s') : Reads s (L * M) s' := by
  refine ⟨h.later.trans h'.later, fun hquiet => ?_⟩
  obtain ⟨ls, hL, hls⟩ := h.spells (Nat.le_trans h'.later.reports hquiet)
  obtain ⟨ms, hM, hms⟩ := h'.spells (Nat.le_trans hquiet h.later.reports)
  exact ⟨ls ++ ms, ⟨ls, hL, ms, hM, rfl⟩, by rw [hls, hms, List.append_assoc]⟩

theorem mono (h : Reads s L s') (hL : ∀ ls ∈ L, ls ∈ M) : Reads s M s' := by
  refine ⟨h.later, fun hquiet => ?_⟩
  obtain ⟨ls, hls, heq⟩ := h.spells hquiet
  exact ⟨ls, hL ls hls, heq⟩

/-- A step that reports a problem may have consumed anything. -/
theorem of_report (h : Later s s') (hlt : s.reports < s'.reports) : Reads s L s' :=
  ⟨h, fun hquiet => absurd hlt (Nat.not_lt.2 hquiet)⟩

theorem count (h : Reads s L s₁) : Reads s L s₁.count := ⟨h.later.trans (.count _), h.spells⟩

/-- The current token is consumed. -/
theorem take (r : Setting) (h : s.kind ≠ .endOfFile) :
    Reads s {[(s.current r).lexeme]} s.take :=
  ⟨.take s (State.upcoming_ne_nil h), fun _ => ⟨_, rfl, State.lexemes_eq r h⟩⟩

theorem mark {mark : Punctuation} (h : s.kind = .punctuation mark) :
    Reads s {[.punctuation mark]} s.take := by
  have htake := Reads.take ⟨[], 0⟩ (s := s) (by rw [h]; nofun)
  have hmark : (s.current ⟨[], 0⟩).lexeme = .punctuation mark := by
    rw [← State.kind_current ⟨[], 0⟩] at h
    generalize s.current ⟨[], 0⟩ = t at h
    obtain ⟨lexeme, span⟩ := t
    cases lexeme <;> cases h
    rfl
  rwa [hmark] at htake

end Reads

/-- The words that spell the type which a node denotes, if few enough function types are
inside each other. -/
def typeWords (levels : Nat) (n : Node) : Language Lexeme :=
  {ls | ∃ shape, n.loweredType = .ok shape ∧ Spells shape ls ∧ shape.nesting < levels}

/-- The words that spell what a node says which stands for a parameter. -/
def itemWords (levels : Nat) (n : Node) : Language Lexeme :=
  {ls | ∃ item, n.Says item ∧ SpellsItem Spells item ls ∧ ∀ shape ∈ item, shape.nesting < levels}

/-- The words that spell what nodes say which stand for the parameters of a function
type. -/
def itemsWords (levels : Nat) (ns : List Node) : Language Lexeme :=
  {ls | ∃ items, List.Forall₂ Node.Says ns items ∧ SpellsItems Spells items ls
    ∧ ∀ item ∈ items, ∀ shape ∈ item, shape.nesting < levels}

variable {r : Setting} {bound : Nat} {s : State} {i : Inner}

theorem bracketLexemes_append (depth : Nat) :
    bracketLexemes depth ++ [.punctuation .openBracket, .punctuation .closeBracket]
      = bracketLexemes (depth + 1) := by
  induction depth with
  | zero => rfl
  | succ depth ih =>
    rw [bracketLexemes, List.cons_append, List.cons_append, ih]
    rfl

theorem arrayDepth_reads (H : Alike r bound i i) (hs : Room r (bound + 1) s) :
    Runs (arrayDepth i) (arrayDepth i) r s fun depth s' => Reads s {bracketLexemes depth} s' := by
  refine H.iterate (fun depth s₁ => Reads s {bracketLexemes depth} s₁) _ (Nat.le_refl _) hs
    (.nil s) fun depth s₁ _ hdepth => ?_
  refine .sees (fun hopen => .nextKind ?_) fun _ => .nextKind (.pure (.stop hdepth))
  refine .ite (fun hclose => ?_) fun _ => .pure (.stop hdepth)
  replace hclose : s₁.take.kind = .punctuation .closeBracket := by simpa using hclose
  have hpair := (Reads.mark hopen).and (.mark hclose)
  refine .step rfl (.step rfl (.pure (.again ⟨hpair.later, ?_, (hdepth.and hpair).mono ?_⟩)))
  · exact Nat.lt_trans (State.length_take_mark hclose) (State.length_take_mark hopen)
  · rintro _ ⟨_, rfl, _, ⟨_, rfl, _, rfl, rfl⟩, rfl⟩
    exact bracketLexemes_append depth

theorem requireMark_reads {mark : Punctuation} :
    Runs (requireMark mark) (requireMark mark) r s
      fun _ s' => Reads s {[.punctuation mark]} s' := by
  rw [Runs, requireMark, exec_require]
  split
  · next h => exact ⟨rfl, .mark h⟩
  · exact ⟨rfl, .of_report (.note _ _) (by simp)⟩

theorem missingOrWrong_reports {message : String} {expected : Expected} :
    Runs (missingOrWrong message expected) (missingOrWrong message expected) r s
      fun _ s' => Later s s' ∧ s.reports < s'.reports := by
  refine .currentKind (.ite (fun _ => ⟨rfl, (Later.note _ _).trans (.count _), ?_⟩) fun _ => ?_)
  · show s.reports < (s.note _).reports
    simp
  · exact wrong_reports.mono fun _ _ h => ⟨h.1.later, h.2.1⟩

section Types

/-- What is inside a construct is read as types. -/
def ReadsTypes (r : Setting) (bound : Nat) (i : Inner) : Prop :=
  ∀ s, Room r bound s →
    Runs (i.parse .type) (i.parse .type) r s fun n s' => Reads s (typeWords s.levels n) s'

variable (H : Alike r bound i i) (hinner : ReadsTypes r bound i)

include hinner in
theorem functionTypeParameter_reads (hs : Room r bound s) :
    Runs (functionTypeParameter i) (functionTypeParameter i) r s
      fun n s' => Reads s (itemWords s.levels n) s' := by
  refine .position (.accept (fun hdots => ⟨rfl, ((Reads.mark hdots).mono ?_).count⟩)
    fun _ => (hinner s hs).mono fun n s' h => h.mono ?_)
  · rintro _ rfl
    exact ⟨none, rfl, .dots, nofun⟩
  · rintro ls ⟨shape, hn, hls, hnesting⟩
    exact ⟨some shape, hn, .type hls, fun _ hmem => Option.some.inj hmem ▸ hnesting⟩

include H hinner

theorem functionTypeParameters_reads (hs : Room r bound s) :
    Runs (functionTypeParameters i) (functionTypeParameters i) r s fun ns s' =>
      Reads s (itemsWords s.levels ns) s' := by
  refine .sees (fun _ => .pure ?_) fun _ => ?_
  · refine (Reads.nil s).mono ?_
    rintro _ rfl
    exact ⟨[], .nil, .none, nofun⟩
  · let W (s : State) (ns : List Node) (s' : State) : Prop :=
      Reads s {ls | ∃ items, List.Forall₂ Node.Says ns items ∧ SpellsSeries Spells items ls
        ∧ ∀ item ∈ items, ∀ shape ∈ item, shape.nesting < s.levels} s'
    refine (H.collect W (Nat.le_succ _) hs fun s hs => ?_).mono fun ns s' h =>
      h.mono fun ls ⟨items, hns, hls, hnesting⟩ => ⟨items, hns, .some hls, hnesting⟩
    refine (functionTypeParameter_reads hinner hs).bind fun n s₁ hn => ?_
    refine .accept (fun hcomma => .pure (.again ?_)) fun _ => .pure (.stop (hn.mono ?_))
    · have hmark := hn.and (.mark hcomma)
      refine ⟨hmark.later, ?_, fun ns s₂ hns => (hmark.and hns).mono ?_⟩
      · exact Nat.lt_of_lt_of_le (State.length_take_mark hcomma) hn.later.length_le
      · rintro _ ⟨_, ⟨ls, ⟨item, hsays, hls, hitem⟩, _, rfl, rfl⟩, ms,
          ⟨items, hns, hms, hitems⟩, rfl⟩
        rw [hmark.later.levels_eq] at hitems
        refine ⟨item :: items, .cons hsays hns, ?_, List.forall_mem_cons.2 ⟨hitem, hitems⟩⟩
        have hseries := SpellsSeries.cons hls hms
        simpa using hseries
    · rintro ls ⟨item, hsays, hls, hitem⟩
      exact ⟨[item], .cons hsays .nil, .single hls, List.forall_mem_singleton.2 hitem⟩

theorem functionTypeParameterList_reads (hs : Room r bound s) :
    Runs (functionTypeParameterList i) (functionTypeParameterList i) r s fun ns s' =>
      Reads s ({[.punctuation .openParen]}
        * (itemsWords s.levels ns * {[.punctuation .closeParen]})) s' := by
  refine .require (fun hopen => ?_) fun _ => .pure (.of_report (.note _ _) (by simp))
  have hmark := Reads.mark hopen
  refine (functionTypeParameters_reads H hinner (hs.later hmark.later)).bind fun ns s₁ hns => ?_
  refine requireMark_reads.bind fun _ s₂ hclose => .pure ?_
  rw [hmark.later.levels_eq] at hns
  exact hmark.and (hns.and hclose)

theorem functionType_reads (hs : Room r (bound + 1) s)
    (hword : (s.current r).lexeme = .keyword (.basicType .function))
    (hless : s.take.kind = .punctuation .less) :
    Runs (functionType i) (functionType i) r s
      fun n s' => Reads s (typeWords (s.levels + 1) n) s' := by
  have hkind : s.kind = .keyword (.basicType .function) := by
    rw [← State.kind_current r s, Token.kind, hword]
    rfl
  have hfirst := Reads.take r (s := s) (by rw [hkind]; decide)
  rw [hword] at hfirst
  have hhead := hfirst.and (.mark hless)
  have hs₂ : Room r bound s.take.take := (hs.take hkind (by decide)).later (Reads.mark hless).later
  refine .position (.step rfl (.step rfl ?_))
  refine (hinner _ hs₂).bind fun returnType s₃ hreturn => ?_
  have hs₃ := hs₂.later hreturn.later
  refine (functionTypeParameterList_reads H hinner hs₃).bind fun ps s₄ hps => ?_
  refine requireMark_reads.bind fun _ s₅ hgreater => ?_
  have hs₅ := (hs₃.later hps.later).later hgreater.later
  refine (arrayDepth_reads H hs₅.weaken).bind fun depth s₆ hbrackets => ⟨rfl, ?_⟩
  refine (((hhead.and hreturn).and (hps.and (hgreater.and hbrackets))).mono ?_).count
  rw [(hhead.and hreturn).later.levels_eq, hhead.later.levels_eq]
  rintro _ ⟨_, ⟨_, ⟨_, rfl, _, rfl, rfl⟩, ls, ⟨result, hresult, hls, hnesting⟩, rfl⟩,
    _, ⟨_, ⟨_, rfl, _, ⟨ms, ⟨items, hitems, hms, hnestings⟩, _, rfl, rfl⟩, rfl⟩,
      _, ⟨_, rfl, _, rfl, rfl⟩, rfl⟩, rfl⟩
  refine ⟨_, Node.loweredType_functionType _ _ depth hresult hitems, ?_,
    TypeShape.nesting_lt_succ_iff.2 ⟨hnesting, fun shape hshape => ?_⟩⟩
  swap
  · exact hnestings _ (List.reduceOption_mem_iff.1 hshape) _ rfl
  have hspells : Spells ⟨.function, depth, _⟩ _ := .function hls hms
  simpa using hspells

theorem typeBody_reads (hs : Room r (bound + 1) s) :
    Runs (typeBody i) (typeBody i) r s fun n s' => Reads s (typeWords (s.levels + 1) n) s' := by
  refine .current (.nextKind (.ite (fun h => ?_) fun _ => ?_))
  · rw [Bool.and_eq_true, beq_iff_eq, beq_iff_eq] at h
    exact functionType_reads H hinner hs h.1 h.2
  · split
    · exact missingOrWrong_reports.mono fun _ _ h => .of_report h.1 h.2
    · next head hhead =>
      have hkind : s.kind ≠ .endOfFile := by
        rw [← State.kind_current r s, Token.kind, kind_of_typeHead? hhead]
        exact TypeHead.kind_ne_endOfFile head
      have hfirst := Reads.take r hkind
      refine .step rfl ?_
      refine (arrayDepth_reads H (hs.later hfirst.later)).bind fun depth s₁ hbrackets => ?_
      refine ⟨rfl, ((hfirst.and hbrackets).mono ?_).count⟩
      rintro _ ⟨_, rfl, _, rfl, rfl⟩
      refine ⟨_, Node.loweredType_typeName _ _ head depth, .word hhead, ?_⟩
      rw [TypeShape.arrayOf, TypeShape.nesting_of_none]
      exact Nat.succ_pos _

/-- A type inside others is read where it is not too deep. -/
theorem type_reads_of_inner (hs : Room r (bound + 1) s) :
    Runs (type i) (type i) r s fun n s' => Reads s (typeWords s.levels n) s' := by
  refine .get (.ite_prop (fun _ => ?_) fun hdepth => ?_)
  · exact wrong_reports.mono fun _ _ h => .of_report h.1.later h.2.1
  have henter : exec (modify State.enter) r s = ((), s.enter) := rfl
  refine .step henter ((typeBody_reads H hinner hs.enter).bind fun n s₁ hn => ?_)
  have hleave : exec (modify State.leave) r s₁ = ((), s₁.leave) := rfl
  refine .step hleave (.pure ⟨hn.later.leave, fun hquiet => ?_⟩)
  have hlevels : s.enter.levels + 1 = s.levels := by
    show nestingLimit - (s.depth + 1) + 1 = nestingLimit - s.depth
    omega
  rw [← hlevels]
  exact hn.spells hquiet

end Types

theorem alike_self (g : Safeguard) (bound : Nat) :
    Alike r bound (.ofBound g bound) (.ofBound g bound) :=
  alike_ofBound g g bound bound bound (Nat.le_refl _) (Nat.le_refl _)

theorem readsTypes_ofBound (g : Safeguard) (bound : Nat) :
    ReadsTypes r bound (.ofBound g bound) := by
  induction bound with
  | zero => exact fun s hs => absurd hs.lt (Nat.not_lt_zero _)
  | succ bound ih => exact fun s hs => type_reads_of_inner (alike_self g bound) ih hs

/-- **What is read as a type spells it**, unless a problem is reported. -/
theorem type_reads (g : Safeguard) (hs : Room r (bound + 1) s) :
    Runs (type (.ofBound g bound)) (type (.ofBound g bound)) r s
      fun n s' => Reads s (typeWords s.levels n) s' :=
  type_reads_of_inner (alike_self g bound) (readsTypes_ofBound g bound) hs

/-! ## What spells a type is read -/

/-- **The outcome of a step that takes what it was meant to**: nothing is reported, and
the tokens that are left say `rest`. -/
structure Takes (s : State) (rest : List Lexeme) (s' : State) : Prop where
  later : Later s s'
  lexemes : s'.lexemes = rest
  diagnostics : s'.diagnostics = s.diagnostics

namespace Takes

variable {s₁ s' : State} {l : Lexeme} {rest rest' : List Lexeme}

theorem refl (h : s.lexemes = rest) : Takes s rest s := ⟨.refl s, h, rfl⟩

theorem trans (h : Takes s rest s₁) (h' : Takes s₁ rest' s') : Takes s rest' s' :=
  ⟨h.later.trans h'.later, h'.lexemes, h'.diagnostics.trans h.diagnostics⟩

theorem take (h : s.lexemes = l :: rest) : Takes s rest s.take := by
  obtain ⟨t, ts, hup, -, -⟩ := State.upcoming_of_lexemes h
  refine ⟨.take s (by rw [hup]; exact List.cons_ne_nil _ _), State.lexemes_take h, ?_⟩
  rw [State.take_eq hup]

theorem count (h : Takes s rest s') : Takes s rest s'.count :=
  ⟨h.later.trans (.count _), h.lexemes, h.diagnostics⟩

end Takes

/-- What may follow a type so that it ends there. -/
def Stops (rest : List Lexeme) : Prop :=
  ∀ l ∈ rest.head?, l ≠ .punctuation .openBracket ∧ l ≠ .punctuation .less

theorem kind_ne_of_head {l : Lexeme} (h : (typeHead? l).isSome = true) (mark : Punctuation) :
    l.kind ≠ .punctuation mark := by
  intro heq
  cases l <;> cases heq
  cases h

/-- What follows a type is not a token that would go on with it. -/
theorem Stops.kind_ne {rest : List Lexeme} (h : Stops rest) (hs : s.lexemes = rest) :
    s.kind ≠ .punctuation .openBracket ∧ s.kind ≠ .punctuation .less := by
  subst hs
  exact ⟨State.kind_ne_punctuation fun l hl => (h l hl).1,
    State.kind_ne_punctuation fun l hl => (h l hl).2⟩

variable {rest : List Lexeme}

theorem requireMark_takes {mark : Punctuation} (h : s.lexemes = .punctuation mark :: rest) :
    Runs (requireMark mark) (requireMark mark) r s fun _ s' => Takes s rest s' := by
  have hkind : s.kind = .punctuation mark := State.kind_of_lexemes h
  rw [Runs, requireMark, exec_require, if_pos hkind]
  exact ⟨rfl, .take h⟩

theorem arrayDepth_takes (H : Alike r bound i i) (hs : Room r (bound + 1) s) {depth : Nat}
    (h : s.lexemes = bracketLexemes depth ++ rest) (hrest : Stops rest) :
    Runs (arrayDepth i) (arrayDepth i) r s fun d s' => d = depth ∧ Takes s rest s' := by
  refine H.iterate (fun d s₁ => ∃ k, d + k = depth ∧ Takes s (bracketLexemes k ++ rest) s₁)
    (fun d s' => d = depth ∧ Takes s rest s') (Nat.le_refl _) hs ⟨depth, Nat.zero_add _, .refl h⟩
    fun d s₁ _ ⟨k, hk, hs₁⟩ => ?_
  cases k with
  | zero =>
    have hstop := (hrest.kind_ne hs₁.lexemes).1
    refine .sees (fun hopen => absurd hopen hstop) fun _ => .nextKind ?_
    exact .pure (.stop ⟨hk, hs₁⟩)
  | succ k =>
    have hopen : s₁.lexemes = .punctuation .openBracket :: .punctuation .closeBracket
        :: (bracketLexemes k ++ rest) := hs₁.lexemes
    have hclose := State.lexemes_take hopen
    have hpair := (Takes.take hopen).trans (.take hclose)
    refine .sees (fun _ => .nextKind ?_) fun hne => absurd (State.kind_of_lexemes hopen) hne
    rw [State.kind_of_lexemes hclose]
    refine .step rfl (.step rfl (.pure (.again ⟨hpair.later, ?_, k, by omega, ?_⟩)))
    · exact Nat.lt_trans (State.length_take_mark (State.kind_of_lexemes hclose))
        (State.length_take_mark (State.kind_of_lexemes hopen))
    · exact hs₁.trans hpair

section Types

/-- What spells a type inside a construct is taken. -/
def TakesTypes (r : Setting) (bound : Nat) (i : Inner) : Prop :=
  ∀ {s : State} {shape : TypeShape} {ls rest : List Lexeme}, Room r bound s →
    Spells shape ls → s.lexemes = ls ++ rest → Stops rest → shape.nesting < s.levels →
      Runs (i.parse .type) (i.parse .type) r s
        fun n s' => n.loweredType = .ok shape ∧ Takes s rest s'

variable (H : Alike r bound i i) (hinner : TakesTypes r bound i)

include hinner in
theorem functionTypeParameter_takes (hs : Room r bound s) {item : Option TypeShape}
    {ls : List Lexeme} (hls : SpellsItem Spells item ls) (h : s.lexemes = ls ++ rest)
    (hrest : Stops rest) (hnesting : ∀ shape ∈ item, shape.nesting < s.levels) :
    Runs (functionTypeParameter i) (functionTypeParameter i) r s
      fun n s' => n.Says item ∧ Takes s rest s' := by
  cases hls with
  | dots =>
    refine .position (.accept (fun _ => ⟨rfl, rfl, (Takes.take h).count⟩) fun hne => ?_)
    exact absurd (State.kind_of_lexemes h) hne
  | type hls =>
    refine .position (.accept (fun hdots => ?_) fun _ => ?_)
    · obtain ⟨l, ms, rfl, hhead⟩ := hls.exists_head
      rw [State.kind_of_lexemes h] at hdots
      exact absurd hdots (kind_ne_of_head hhead _)
    · exact hinner hs hls h hrest (hnesting _ rfl)

/-- Parameters do not start with a closing parenthesis. -/
theorem kind_ne_closeParen {items : List (Option TypeShape)} {ls : List Lexeme}
    (hls : SpellsSeries Spells items ls) (h : s.lexemes = ls ++ rest) :
    s.kind ≠ .punctuation .closeParen := by
  have hitem : ∀ {item : Option TypeShape} {ls rest : List Lexeme}, SpellsItem Spells item ls →
      s.lexemes = ls ++ rest → s.kind ≠ .punctuation .closeParen := by
    intro item ls rest hitem h
    cases hitem with
    | dots =>
      rw [State.kind_of_lexemes h]
      nofun
    | type hls =>
      obtain ⟨l, ms, rfl, hhead⟩ := hls.exists_head
      rw [State.kind_of_lexemes h]
      exact kind_ne_of_head hhead _
  cases hls with
  | single hls => exact hitem hls h
  | cons hls _ =>
    rw [List.append_assoc] at h
    exact hitem hls h

include hinner in
theorem series_takes {k : Nat} {items : List (Option TypeShape)} {ls : List Lexeme}
    (hls : SpellsSeries Spells items ls) (hs : Room r bound s)
    (h : s.lexemes = ls ++ .punctuation .closeParen :: rest)
    (hnesting : ∀ item ∈ items, ∀ shape ∈ item, shape.nesting < s.levels)
    (hk : s.upcoming.length < k) (atBound : Parse Unit) :
    let parameters := collect atBound (do
      let parameter ← functionTypeParameter i
      return ([parameter], ← acceptMark .comma)) k
    Runs parameters parameters r s fun ns s' =>
      List.Forall₂ Node.Says ns items ∧ Takes s (.punctuation .closeParen :: rest) s' := by
  obtain ⟨k, rfl⟩ := Nat.exists_eq_succ_of_ne_zero (Nat.ne_of_gt (Nat.zero_lt_of_lt hk))
  induction hls generalizing s k with
  | @single item ls hls =>
    have hitem := functionTypeParameter_takes hinner hs hls h (by simp [Stops])
      (hnesting _ List.mem_cons_self)
    refine Runs.bind (P := fun next s' => next.2 = false ∧ List.Forall₂ Node.Says next.1 [item]
      ∧ Takes s (.punctuation .closeParen :: rest) s') (hitem.bind fun n s₁ hn => ?_) ?_
    · refine .accept (fun hcomma => ?_) fun _ => .pure ⟨rfl, .cons hn.1 .nil, hn.2⟩
      rw [State.kind_of_lexemes hn.2.lexemes] at hcomma
      cases hcomma
    · rintro ⟨ns, _⟩ s₁ ⟨rfl, hns⟩
      exact .pure hns
  | @cons item items ls ms hls hms ih =>
    obtain ⟨hitem, hitems⟩ := List.forall_mem_cons.1 hnesting
    rw [List.append_assoc, List.cons_append] at h
    have hfirst := functionTypeParameter_takes hinner hs hls h (by simp [Stops]) hitem
    refine Runs.bind (P := fun next s' => next.2 = true ∧ List.Forall₂ Node.Says next.1 [item]
      ∧ Takes s (ms ++ .punctuation .closeParen :: rest) s'
      ∧ s'.upcoming.length < s.upcoming.length) (hfirst.bind fun n s₁ hn => ?_) ?_
    · refine .accept (fun hcomma => .pure ⟨rfl, .cons hn.1 .nil, ?_, ?_⟩) fun hne => ?_
      · exact hn.2.trans (.take hn.2.lexemes)
      · exact Nat.lt_of_lt_of_le (State.length_take_mark hcomma) hn.2.later.length_le
      · exact absurd (State.kind_of_lexemes hn.2.lexemes) hne
    · rintro ⟨ns, _⟩ s₁ ⟨rfl, hns, htakes, hshort⟩
      have hs₁ := hs.later htakes.later
      have hlt : s₁.upcoming.length < k := Nat.lt_of_lt_of_le hshort (Nat.le_of_lt_succ hk)
      obtain ⟨k, rfl⟩ := Nat.exists_eq_succ_of_ne_zero (Nat.ne_of_gt (Nat.zero_lt_of_lt hlt))
      rw [← htakes.later.levels_eq] at hitems
      refine (ih hs₁ htakes.lexemes hitems k hlt).bind fun ms' s₂ hms' => .pure ?_
      cases hns with
      | cons hsays hnil =>
        cases hnil
        exact ⟨.cons hsays hms'.1, htakes.trans hms'.2⟩

include H hinner

theorem functionTypeParameters_takes (hs : Room r bound s) {items : List (Option TypeShape)}
    {ls : List Lexeme} (hls : SpellsItems Spells items ls)
    (h : s.lexemes = ls ++ .punctuation .closeParen :: rest)
    (hnesting : ∀ item ∈ items, ∀ shape ∈ item, shape.nesting < s.levels) :
    Runs (functionTypeParameters i) (functionTypeParameters i) r s fun ns s' =>
      List.Forall₂ Node.Says ns items ∧ Takes s (.punctuation .closeParen :: rest) s' := by
  cases hls with
  | none =>
    refine .sees (fun _ => .pure ⟨.nil, .refl h⟩) fun hne => ?_
    exact absurd (State.kind_of_lexemes h) hne
  | some hls =>
    refine .sees (fun hclose => absurd hclose (kind_ne_closeParen hls h)) fun _ => ?_
    exact series_takes hinner hls hs h hnesting
      (Nat.lt_succ_of_lt (Nat.lt_of_lt_of_le hs.lt H.bound_left)) _

theorem functionTypeParameterList_takes (hs : Room r bound s) {items : List (Option TypeShape)}
    {ls : List Lexeme} (hls : SpellsItems Spells items ls)
    (h : s.lexemes = .punctuation .openParen :: (ls ++ .punctuation .closeParen :: rest))
    (hnesting : ∀ item ∈ items, ∀ shape ∈ item, shape.nesting < s.levels) :
    Runs (functionTypeParameterList i) (functionTypeParameterList i) r s fun ns s' =>
      List.Forall₂ Node.Says ns items ∧ Takes s rest s' := by
  have htake := Takes.take h
  rw [← htake.later.levels_eq] at hnesting
  refine .require (fun _ => ?_) fun hne => absurd (State.kind_of_lexemes h) hne
  refine (functionTypeParameters_takes H hinner (hs.later htake.later) hls htake.lexemes
    hnesting).bind fun ns s₁ hns => ?_
  exact (requireMark_takes hns.2.lexemes).bind fun _ s₂ hclose =>
    .pure ⟨hns.1, (htake.trans hns.2).trans hclose⟩

theorem functionType_takes (hs : Room r (bound + 1) s) {depth : Nat} {returnType : TypeShape}
    {items : List (Option TypeShape)} {ls ms : List Lexeme} (hls : Spells returnType ls)
    (hms : SpellsItems Spells items ms)
    (h : s.lexemes = .keyword (.basicType .function) :: .punctuation .less
      :: (ls ++ .punctuation .openParen :: (ms ++ .punctuation .closeParen
        :: .punctuation .greater :: (bracketLexemes depth ++ rest))))
    (hrest : Stops rest) (hreturn : returnType.nesting < s.levels)
    (hnesting : ∀ item ∈ items, ∀ shape ∈ item, shape.nesting < s.levels) :
    Runs (functionType i) (functionType i) r s fun n s' =>
      n.loweredType = .ok ⟨.function, depth,
        some ⟨returnType, items.reduceOption, items.contains none⟩⟩ ∧ Takes s rest s' := by
  have hword := Takes.take h
  have hhead := hword.trans (.take hword.lexemes)
  have hs₂ : Room r bound s.take.take :=
    (hs.take (State.kind_of_lexemes h) nofun).later (Takes.take hword.lexemes).later
  refine .position (.step rfl (.step rfl ?_))
  refine (hinner hs₂ hls hhead.lexemes (by simp [Stops])
    (hhead.later.levels_eq ▸ hreturn)).bind fun n s₃ hn => ?_
  have hs₃ := hs₂.later hn.2.later
  have hbefore := hhead.trans hn.2
  refine (functionTypeParameterList_takes H hinner hs₃ hms hn.2.lexemes
    (hbefore.later.levels_eq ▸ hnesting)).bind fun ns s₄ hns => ?_
  refine (requireMark_takes hns.2.lexemes).bind fun _ s₅ hgreater => ?_
  have hs₅ := (hs₃.later hns.2.later).later hgreater.later
  refine (arrayDepth_takes H hs₅.weaken hgreater.lexemes hrest).bind ?_
  rintro _ s₆ ⟨rfl, hbrackets⟩
  exact ⟨rfl, Node.loweredType_functionType _ _ _ hn.1 hns.1,
    (((hbefore.trans hns.2).trans hgreater).trans hbrackets).count⟩

theorem typeBody_takes (hs : Room r (bound + 1) s) {shape : TypeShape} {ls : List Lexeme}
    (hls : Spells shape ls) (h : s.lexemes = ls ++ rest) (hrest : Stops rest)
    (hnesting : shape.nesting < s.levels + 1) :
    Runs (typeBody i) (typeBody i) r s fun n s' =>
      n.loweredType = .ok shape ∧ Takes s rest s' := by
  cases hls with
  | @word depth lexeme head hhead =>
    have hword := Takes.take h
    -- a bare `function` is not followed by what would make it a function type
    have hless : s.take.kind ≠ .punctuation .less := by
      cases depth with
      | zero => exact (hrest.kind_ne hword.lexemes).2
      | succ depth =>
        rw [State.kind_of_lexemes hword.lexemes]
        nofun
    refine .current (.nextKind (.ite (fun hfunction => ?_) fun _ => ?_))
    · rw [Bool.and_eq_true, beq_iff_eq, beq_iff_eq] at hfunction
      exact absurd hfunction.2 hless
    rw [State.lexeme_current r h, hhead]
    refine .step rfl ((arrayDepth_takes H (hs.later hword.later) hword.lexemes hrest).bind ?_)
    rintro _ s₁ ⟨rfl, hbrackets⟩
    exact ⟨rfl, Node.loweredType_typeName _ _ head _, (hword.trans hbrackets).count⟩
  | @function depth returnType items ls ms hls hms =>
    obtain ⟨hreturn, hparameters⟩ := TypeShape.nesting_lt_succ_iff.1 hnesting
    simp only [List.cons_append, List.append_assoc] at h
    have hless : s.take.kind = .punctuation .less :=
      State.kind_of_lexemes (State.lexemes_take h)
    refine .current (.nextKind (.ite (fun _ => ?_) fun hword => ?_))
    · refine functionType_takes H hinner hs hls hms h hrest hreturn ?_
      intro item hitem shape hshape
      exact hparameters shape (List.reduceOption_mem_iff.2 (hshape ▸ hitem))
    · rw [State.lexeme_current r h, hless] at hword
      cases hword

/-- A type inside others is taken where it is not too deep. -/
theorem type_takes_of_inner (hs : Room r (bound + 1) s) {shape : TypeShape} {ls : List Lexeme}
    (hls : Spells shape ls) (h : s.lexemes = ls ++ rest) (hrest : Stops rest)
    (hnesting : shape.nesting < s.levels) :
    Runs (type i) (type i) r s fun n s' => n.loweredType = .ok shape ∧ Takes s rest s' := by
  have hdepth : s.depth < nestingLimit := by
    unfold State.levels at hnesting
    omega
  refine .get (.ite_prop (fun hdeep => absurd hdepth (Nat.not_lt.2 hdeep)) fun _ => ?_)
  have henter : exec (modify State.enter) r s = ((), s.enter) := rfl
  have hlevels : shape.nesting < s.enter.levels + 1 := by
    show shape.nesting < nestingLimit - (s.depth + 1) + 1
    unfold State.levels at hnesting
    omega
  refine .step henter ((typeBody_takes H hinner hs.enter hls h hrest hlevels).bind
    fun n s₁ hn => ?_)
  have hleave : exec (modify State.leave) r s₁ = ((), s₁.leave) := rfl
  exact .step hleave (.pure ⟨hn.1, hn.2.later.leave, hn.2.lexemes, hn.2.diagnostics⟩)

end Types

theorem takesTypes_ofBound (g : Safeguard) (bound : Nat) :
    TakesTypes r bound (.ofBound g bound) := by
  induction bound with
  | zero => exact fun hs => absurd hs.lt (Nat.not_lt_zero _)
  | succ bound ih => exact fun hs => type_takes_of_inner (alike_self g bound) ih hs

/-- **What spells a type is taken as one**, up to where it ends, if function types are not
too deep inside each other. -/
theorem type_takes (g : Safeguard) (hs : Room r (bound + 1) s) {shape : TypeShape}
    {ls : List Lexeme} (hls : Spells shape ls) (h : s.lexemes = ls ++ rest) (hrest : Stops rest)
    (hnesting : shape.nesting < s.levels) :
    Runs (type (.ofBound g bound)) (type (.ofBound g bound)) r s
      fun n s' => n.loweredType = .ok shape ∧ Takes s rest s' :=
  type_takes_of_inner (alike_self g bound) (takesTypes_ofBound g bound) hs hls h hrest hnesting

end Parser

end ScriptLens
