import ScriptLens.Proofs.Sites

/-!
# Constructs that declare nothing

Types, names and expressions contain no declaration, no block and no directive. This
is a fact about the values that the parser's functions give and not about where they
leave the parser, so it is said with `Yields`. There is nothing to be known of the steps
in between but the nodes they give, and a construct follows from its parts in one line.

`Inner.Quiet` carries this through the recursion: the constructs inside an expression
are expressions and types.
-/

namespace ScriptLens

/-- Whether nodes of a kind declare nothing, open no scope and name no other text. -/
def NodeKind.isSilent : NodeKind → Bool
  | includeDirective | inherit | classDeclaration | functionDeclaration | variableDeclaration
  | variableDeclarator | parameter | binding | block => false
  | _ => true

namespace Node

/-- **A silent tree**: none of its nodes declares anything. -/
def Silent (n : Node) : Prop := ∀ m ∈ n.postorder, m.kind.isSilent = true

/-- Nodes all of which are silent. -/
def Quiet (ns : List Node) : Prop := ∀ n ∈ ns, n.Silent

variable {n : Node} {ns ms : List Node} {o : Option Node}

@[simp] theorem quiet_nil : Quiet [] := by simp [Quiet]

@[simp] theorem quiet_cons : Quiet (n :: ns) ↔ n.Silent ∧ Quiet ns := List.forall_mem_cons

@[simp] theorem quiet_append : Quiet (ns ++ ms) ↔ Quiet ns ∧ Quiet ms := List.forall_mem_append

@[simp] theorem quiet_toList : Quiet o.toList ↔ ∀ n ∈ o, n.Silent := by simp [Quiet]

theorem silent_iff : n.Silent ↔ n.kind.isSilent = true ∧ Quiet n.children :=
  forall_mem_postorder.trans and_comm

end Node

namespace Parser

open Node

variable {α β : Type}

/-! ## The steps that everything is made of -/

section Steps

variable {m : Parse Node} {payload : Payload Node}

theorem complete_quiet {span : Span} (hp : payload.kind.isSilent = true)
    (hc : Quiet payload.children) : Yields (complete span payload) Silent :=
  fun _ _ => silent_iff.2 ⟨hp, hc⟩

theorem finish_quiet {start : Nat} (hp : payload.kind.isSilent = true)
    (hc : Quiet payload.children) : Yields (finish start payload) Silent :=
  .skip fun _ => complete_quiet hp hc

theorem missing_quiet {message : String} {expected : Option Expected} :
    Yields (missing message expected) Silent :=
  .skip fun _ => .skip fun _ => complete_quiet rfl quiet_nil

theorem wrong_quiet {message : String} {expected : Option Expected} :
    Yields (wrong message expected) Silent :=
  .skip fun _ => .ite missing_quiet
    (.skip fun _ => .skip fun _ => complete_quiet rfl quiet_nil)

theorem missingOrWrong_quiet {message : String} {expected : Expected} :
    Yields (missingOrWrong message expected) Silent :=
  .skip fun _ => .ite missing_quiet wrong_quiet

theorem nested_quiet (h : Yields m Silent) : Yields (nested m) Silent :=
  .skip fun _ => .ite wrong_quiet (.skip fun _ => h.bind fun _ hn => .skip fun _ => .pure hn)

theorem collect_quiet {atBound : Parse Unit} {step : Parse (List Node × Bool)}
    (hstep : Yields step fun next => Quiet next.1) (bound : Nat) :
    Yields (collect atBound step bound) Quiet :=
  collect_yields hstep bound

theorem optionally_yields {test : Parse Bool} {step : Parse α} {P : α → Prop}
    (h : Yields step P) : Yields (optionally test step) fun o => ∀ a ∈ o, P a :=
  .skip fun _ => .ite (h.bind fun _ ha => .pure (by simpa using ha)) (.pure nofun)

theorem unlessAt_quiet {ends : TokenKind → Bool} (h : Yields m Silent) :
    Yields (unlessAt ends m) fun o => ∀ n ∈ o, n.Silent :=
  .skip fun _ => .ite (.pure nofun) (h.bind fun _ hn => .pure (by simpa using hn))

end Steps

/-! ## Types and names -/

/-- Whether a construct is none that can declare something. -/
def Goal.isQuiet : Goal → Bool
  | .statement | .declaration => false
  | _ => true

/-- What is inside a construct, where it is neither a statement nor a declaration, is
silent. -/
def Inner.Quiet (i : Inner) : Prop := ∀ goal, goal.isQuiet = true → Yields (i.parse goal) Silent

variable {i : Inner}

theorem series_quiet {item : Parse Node} (h : Yields item Silent) :
    Yields (i.collect do let part ← item; return ([part], ← acceptMark .comma)) Node.Quiet :=
  collect_quiet (h.bind fun _ hn => .skip fun _ => .pure (by simpa using hn)) _

theorem functionTypeParameter_quiet (H : i.Quiet) : Yields (functionTypeParameter i) Silent :=
  .skip fun _ => .skip fun _ => .ite (finish_quiet rfl quiet_nil) (H .type rfl)

theorem functionTypeParameters_quiet (H : i.Quiet) :
    Yields (functionTypeParameters i) Node.Quiet :=
  .skip fun _ => .ite (.pure quiet_nil) (series_quiet (functionTypeParameter_quiet H))

theorem functionTypeParameterList_quiet (H : i.Quiet) :
    Yields (functionTypeParameterList i) Node.Quiet :=
  .skip fun _ => .ite
    ((functionTypeParameters_quiet H).bind fun _ hns => .skip fun _ => .pure hns)
    (.pure quiet_nil)

theorem functionType_quiet (H : i.Quiet) : Yields (functionType i) Silent := by
  refine .skip fun _ => .skip fun _ => .skip fun _ => (H .type rfl).bind fun _ ht => ?_
  refine (functionTypeParameterList_quiet H).bind fun _ hps => .skip fun _ => .skip fun _ => ?_
  exact finish_quiet rfl (quiet_cons.2 ⟨ht, hps⟩)

theorem typeBody_quiet (H : i.Quiet) : Yields (typeBody i) Silent := by
  refine .skip fun _ => .skip fun _ => .ite (functionType_quiet H) ?_
  split
  · exact missingOrWrong_quiet
  · exact .skip fun _ => .skip fun _ => finish_quiet rfl quiet_nil

theorem type_quiet (H : i.Quiet) : Yields (type i) Silent := nested_quiet (typeBody_quiet H)

theorem modifiers_quiet : Yields (modifiers i) Node.Quiet := by
  refine collect_quiet (.skip fun _ => ?_) _
  split
  · refine .skip fun _ => .bind (P := Silent) (finish_quiet rfl quiet_nil) fun _ hn => .pure ?_
    exact quiet_cons.2 ⟨hn, quiet_nil⟩
  · exact .pure quiet_nil

theorem identifier_quiet : Yields identifier Silent :=
  .skip fun _ => finish_quiet rfl quiet_nil

theorem declaredName_quiet : Yields declaredName Silent := by
  refine .skip fun _ => ?_
  split
  · exact identifier_quiet
  · exact missingOrWrong_quiet

/-! ## Primary expressions -/

theorem literal_quiet {value : LiteralValue} : Yields (literal value) Silent :=
  .skip fun _ => finish_quiet rfl quiet_nil

theorem stringParts_quiet : Yields (stringParts i) Node.Quiet := by
  refine collect_quiet (.skip fun _ => ?_) _
  split
  · exact literal_quiet.bind fun _ hn => .pure (quiet_cons.2 ⟨hn, quiet_nil⟩)
  · exact .pure quiet_nil

theorem stringLiterals_quiet : Yields (stringLiterals i) Silent := by
  refine .skip fun _ => stringParts_quiet.bind fun parts hparts => ?_
  split
  · exact .pure (quiet_cons.1 hparts).1
  · exact finish_quiet rfl hparts

theorem inheritedName_quiet : Yields inheritedName Silent :=
  .skip fun _ => .skip fun _ => .skip fun _ => .ite
    (.skip fun _ => finish_quiet rfl quiet_nil) (.skip fun _ => finish_quiet rfl quiet_nil)

theorem argument_quiet (H : i.Quiet) : Yields (argument i) Silent := by
  refine .skip fun _ => (H .expression rfl).bind fun _ hn => .skip fun _ => .ite ?_ (.pure hn)
  exact finish_quiet rfl (quiet_cons.2 ⟨hn, quiet_nil⟩)

theorem arguments_quiet (H : i.Quiet) : Yields (arguments i) Node.Quiet :=
  .skip fun _ => .ite (.pure quiet_nil) (series_quiet (argument_quiet H))

theorem argumentList_quiet (H : i.Quiet) :
    Yields (argumentList i) fun list => Node.Quiet list.items :=
  .skip fun _ => .skip fun _ => (arguments_quiet H).bind fun _ hns => .skip fun _ =>
    .skip fun _ => .pure hns

theorem newTarget_quiet (H : i.Quiet) : Yields (newTarget i) Silent :=
  .skip fun _ => .ite stringLiterals_quiet (type_quiet H)

theorem newObject_quiet (H : i.Quiet) : Yields (newObject i) Silent := by
  refine .skip fun _ => .skip fun _ => (newTarget_quiet H).bind fun _ ht => ?_
  refine (optionally_yields (argumentList_quiet H)).bind fun list hlist => ?_
  refine finish_quiet rfl (quiet_cons.2 ⟨ht, ?_⟩)
  cases list with
  | none => exact quiet_nil
  | some list => exact hlist list rfl

theorem elements_quiet {closing : Punctuation} {element : Parse Node} (h : Yields element Silent) :
    Yields (elements i closing element) Node.Quiet := by
  refine collect_quiet (.skip fun _ => .skip fun _ => .ite (.pure quiet_nil) ?_) _
  refine .skip fun _ => h.bind fun _ hn => .skip fun _ => .ite (.pure (by simpa using hn)) ?_
  refine .skip fun _ => .skip fun _ => .ite ?_ (.pure (by simpa using hn))
  exact wrong_quiet.bind fun _ hm => .pure (by simpa using ⟨hn, hm⟩)

theorem arrayLiteral_quiet (H : i.Quiet) : Yields (arrayLiteral i) Silent :=
  .skip fun _ => .skip fun _ => (elements_quiet (H .expression rfl)).bind fun _ hns =>
    .skip fun _ => .skip fun _ => finish_quiet rfl hns

theorem mappingEntry_quiet (H : i.Quiet) : Yields (mappingEntry i) Silent := by
  refine .skip fun _ => (H .expression rfl).bind fun _ hkey => ?_
  refine (optionally_yields (H .expression rfl)).bind fun _ hvalue => ?_
  exact finish_quiet rfl (quiet_cons.2 ⟨hkey, quiet_toList.2 hvalue⟩)

theorem mappingLiteral_quiet (H : i.Quiet) : Yields (mappingLiteral i) Silent :=
  .skip fun _ => .skip fun _ => (elements_quiet (mappingEntry_quiet H)).bind fun _ hns =>
    .skip fun _ => .skip fun _ => finish_quiet rfl hns

theorem parenthesized_quiet (H : i.Quiet) : Yields (parenthesized i) Silent :=
  .skip fun _ => .skip fun _ => (H .expression rfl).bind fun _ hn => .skip fun _ =>
    finish_quiet rfl (quiet_cons.2 ⟨hn, quiet_nil⟩)

theorem primary_quiet (H : i.Quiet) : Yields (primary i) Silent := by
  refine .skip fun token => ?_
  cases token.lexeme with
  | stray c => exact wrong_quiet
  | identifier name => exact identifier_quiet
  | integer value => exact literal_quiet
  | character c closed => exact literal_quiet
  | symbol name closed => exact literal_quiet
  | string text closed => exact stringLiterals_quiet
  | docString text closed => exact stringLiterals_quiet
  | keyword word =>
    cases word with
    | trueKw | falseKw | nilKw | thisKw => exact literal_quiet
    | newKw => exact newObject_quiet H
    | _ => exact missingOrWrong_quiet
  | punctuation mark =>
    cases mark with
    | doubleColon => exact inheritedName_quiet
    | openParen => exact parenthesized_quiet H
    | openArray => exact arrayLiteral_quiet H
    | openMapping => exact mappingLiteral_quiet H
    | _ => exact missingOrWrong_quiet
  | _ => exact missingOrWrong_quiet

/-! ## Operators -/

theorem rangeBound_quiet (H : i.Quiet) {isRange : Bool} :
    Yields (rangeBound i isRange) fun o => ∀ n ∈ o, n.Silent :=
  .ite (unlessAt_quiet (H .expression rfl)) (.pure nofun)

section Postfix

variable {left : Node} (hleft : left.Silent)

include hleft

theorem subscript_quiet (H : i.Quiet) : Yields (subscript i left) Silent := by
  refine .skip fun _ => (unlessAt_quiet (H .expression rfl)).bind fun _ hindex => .skip fun _ => ?_
  refine (rangeBound_quiet H).bind fun _ hend => .skip fun _ => finish_quiet rfl ?_
  exact quiet_cons.2 ⟨hleft, quiet_append.2 ⟨quiet_toList.2 hindex, quiet_toList.2 hend⟩⟩

theorem memberAccess_quiet : Yields (memberAccess left) Silent := by
  have hmember : Yields memberName Silent :=
    .skip fun _ => .ite identifier_quiet missingOrWrong_quiet
  refine .skip fun _ => hmember.bind fun _ hname => finish_quiet rfl ?_
  exact quiet_cons.2 ⟨hleft, quiet_cons.2 ⟨hname, quiet_nil⟩⟩

theorem call_quiet (H : i.Quiet) : Yields (call i left) Silent :=
  (argumentList_quiet H).bind fun _ hns => finish_quiet rfl (quiet_cons.2 ⟨hleft, hns⟩)

theorem postfixUnary_quiet {operator : Punctuation} :
    Yields (postfixUnary operator left) Silent :=
  .skip fun _ => finish_quiet rfl (quiet_cons.2 ⟨hleft, quiet_nil⟩)

theorem applyPostfix_quiet (H : i.Quiet) :
    Yields (applyPostfix i left) fun next => next.1.Silent := by
  refine .skip fun _ => ?_
  split
  · exact (call_quiet hleft H).bind fun _ hn => .pure hn
  · exact (subscript_quiet hleft H).bind fun _ hn => .pure hn
  · exact (memberAccess_quiet hleft).bind fun _ hn => .pure hn
  · exact (memberAccess_quiet hleft).bind fun _ hn => .pure hn
  · exact (postfixUnary_quiet hleft).bind fun _ hn => .pure hn
  · exact (postfixUnary_quiet hleft).bind fun _ hn => .pure hn
  · exact .pure hleft

theorem applyBinary_quiet (H : i.Quiet) {level : Nat} :
    Yields (applyBinary i level left) fun next => next.1.Silent := by
  refine .skip fun _ => ?_
  split
  · refine .ite (.pure hleft) (.skip fun _ => (H (.binary _) rfl).bind fun _ hright => ?_)
    refine .bind (P := Silent) (finish_quiet rfl ?_) fun _ hn => .pure hn
    exact quiet_cons.2 ⟨hleft, quiet_cons.2 ⟨hright, quiet_nil⟩⟩
  · exact .pure hleft

end Postfix

theorem postfixExpression_quiet (H : i.Quiet) : Yields (postfixExpression i) Silent :=
  (primary_quiet H).bind fun _ hn => iterate_yields (fun _ hn => applyPostfix_quiet hn H) _ hn

theorem cast_quiet (H : i.Quiet) : Yields (cast i) Silent := by
  refine .skip fun _ => .skip fun _ => (type_quiet H).bind fun _ ht => .skip fun _ => ?_
  refine (H .unary rfl).bind fun _ hn => finish_quiet rfl ?_
  exact quiet_cons.2 ⟨ht, quiet_cons.2 ⟨hn, quiet_nil⟩⟩

theorem prefixExpression_quiet (H : i.Quiet) {operator : Punctuation} :
    Yields (prefixExpression i operator) Silent :=
  .skip fun _ => .skip fun _ => (H .unary rfl).bind fun _ hn =>
    finish_quiet rfl (quiet_cons.2 ⟨hn, quiet_nil⟩)

theorem unary_quiet (H : i.Quiet) : Yields (unary i) Silent := by
  refine nested_quiet (.skip fun _ => .ite (cast_quiet H) (.skip fun _ => ?_))
  split
  · exact .ite (prefixExpression_quiet H) (postfixExpression_quiet H)
  · exact postfixExpression_quiet H

theorem binary_quiet (H : i.Quiet) {level : Nat} : Yields (binary i level) Silent :=
  (unary_quiet H).bind fun _ hn => iterate_yields (fun _ hn => applyBinary_quiet hn H) _ hn

theorem conditional_quiet (H : i.Quiet) : Yields (conditional i) Silent := by
  have hbranch := nested_quiet (H .expression rfl)
  refine (binary_quiet H).bind fun _ hcondition => .skip fun _ => .skip fun _ =>
    .ite (hbranch.bind fun _ htrue => ?_) (.pure hcondition)
  refine (optionally_yields hbranch).bind fun _ hfalse => finish_quiet rfl ?_
  exact quiet_cons.2 ⟨hcondition, quiet_cons.2 ⟨htrue, quiet_toList.2 hfalse⟩⟩

/-- **An expression declares nothing.** -/
theorem expression_quiet (H : i.Quiet) : Yields (expression i) Silent := by
  refine (conditional_quiet H).bind fun _ hleft => .skip fun _ => ?_
  split
  · refine .ite (.skip fun _ => (nested_quiet (H .expression rfl)).bind fun _ hright => ?_)
      (.pure hleft)
    exact finish_quiet rfl (quiet_cons.2 ⟨hleft, quiet_cons.2 ⟨hright, quiet_nil⟩⟩)
  · exact .pure hleft

/-! ## Paths of other texts -/

theorem systemIncludePath_quiet : Yields (systemIncludePath i) Silent :=
  .skip fun _ => .skip fun _ => .skip fun _ => .skip fun _ => finish_quiet rfl quiet_nil

theorem inheritPath_quiet : Yields (inheritPath i) Silent :=
  .skip fun _ => .ite stringLiterals_quiet missingOrWrong_quiet

/-! ## The recursion -/

/-- **What parses the constructs of a text is quiet**, at every bound. -/
theorem quiet_ofBound (bound : Nat) : (Inner.ofBound .standard bound).Quiet := by
  induction bound with
  | zero => exact fun _ _ => missing_quiet
  | succ bound ih =>
    intro goal hgoal
    cases goal with
    | expression => exact expression_quiet ih
    | binary level => exact binary_quiet ih
    | unary => exact unary_quiet ih
    | type => exact type_quiet ih
    | statement => cases hgoal
    | declaration => cases hgoal

end Parser

end ScriptLens
