import ScriptLens.Proofs.SourceRuns

/-!
# Steps that accept no stray character

A character that fits nowhere is scanned as a token of the kind of an identifier, so
every test for an identifier lets it pass unless the parser looks at the token itself.
This module goes through the parser and finds where it does not look: behind `->`, `.`
and `::`. Everywhere else a stray character is reported.

`Sweeps allowed s s'` says this of the tokens that are consumed between two states. If
nothing is reported, every stray character among them is allowed or stands behind a token
that announces a name. A step is `Careful` if it sweeps from every state, and this passes
from the parts of a step to the step, so that most of the parser's functions need no
proof of their own (`instCarefulBind`). The others consume a token that they are known to
have seen.
-/

namespace ScriptLens.Parser

variable {α β : Type} {r : Setting} {s s₁ s' : State} {inner : Inner}

/-! ## Stray characters among tokens -/

/-- Whether a name has to follow a token. -/
def announcesName : TokenKind → Bool
  | .punctuation .arrow | .punctuation .dot | .punctuation .doubleColon => true
  | _ => false

theorem isStray_of_kind {t : Token} (h : t.kind ≠ .identifier) : t.lexeme.isStray = false := by
  cases hlexeme : t.lexeme with
  | stray c => exact absurd (by rw [Token.kind, hlexeme]; rfl) h
  | _ => rfl

/-- **Every stray character among some tokens is allowed** or stands right behind a token
that announces a name. -/
def Tidy (allowed : Token → Prop) (tokens : List Token) : Prop :=
  ∀ before t after, tokens = before ++ t :: after → t.lexeme.isStray = true →
    allowed t ∨ ∃ mark ∈ before.getLast?, announcesName mark.kind = true

namespace Tidy

variable {allowed allowed' : Token → Prop} {ts ts' : List Token}

theorem nil : Tidy allowed [] := by
  intro before t after h
  simp at h

theorem append (h : Tidy allowed ts) (h' : Tidy allowed ts') : Tidy allowed (ts ++ ts') := by
  intro before t after heq hstray
  rcases List.append_eq_append_iff.1 heq with ⟨front, rfl, hfront⟩ | ⟨back, hback, hrest⟩
  · refine (h' front t after hfront hstray).imp_right ?_
    rintro ⟨mark, hmark, hname⟩
    refine ⟨mark, ?_, hname⟩
    rw [List.getLast?_append, Option.mem_def.1 hmark]
    rfl
  · cases back with
    | nil =>
      obtain rfl : ts = before := by simpa using hback
      refine (h' [] t after (by simpa using hrest.symm) hstray).imp_right ?_
      rintro ⟨mark, hmark, -⟩
      cases hmark
    | cons u back =>
      obtain ⟨rfl, -⟩ := List.cons.inj hrest
      exact h before t back hback hstray

theorem mono (h : Tidy allowed ts) (hallowed : ∀ t, allowed t → allowed' t) :
    Tidy allowed' ts :=
  fun before t after heq hstray => (h before t after heq hstray).imp_left (hallowed t)

/-- A token that is no stray character. -/
theorem single {t : Token} (h : t.lexeme.isStray = false) : Tidy allowed [t] := by
  intro before t' after heq hstray
  cases before with
  | nil =>
    obtain ⟨rfl, -⟩ := List.cons.inj heq
    rw [h] at hstray
    cases hstray
  | cons u before => simp at heq

/-- Any token behind one that announces a name. -/
theorem announced {mark t : Token} (hmark : announcesName mark.kind = true) :
    Tidy allowed [mark, t] := by
  intro before t' after heq hstray
  match before with
  | [] =>
    obtain ⟨rfl, -⟩ := List.cons.inj heq
    have hkind : mark.kind ≠ .identifier := fun hkind => by rw [hkind] at hmark; cases hmark
    rw [isStray_of_kind hkind] at hstray
    cases hstray
  | [u] =>
    obtain ⟨rfl, -⟩ := List.cons.inj heq
    exact .inr ⟨mark, rfl, hmark⟩
  | u :: v :: before => simp at heq

end Tidy

/-- **What is consumed between two states is tidy**, unless something is reported. -/
structure Sweeps (allowed : Token → Prop) (s s' : State) : Prop where
  later : Later s s'
  tidy : s'.reports ≤ s.reports → ∃ ts, s.upcoming = ts ++ s'.upcoming ∧ Tidy allowed ts

namespace Sweeps

variable {allowed allowed' : Token → Prop}

theorem refl (s : State) : Sweeps allowed s s := ⟨.refl s, fun _ => ⟨[], rfl, .nil⟩⟩

theorem trans (h : Sweeps allowed s s₁) (h' : Sweeps allowed s₁ s') : Sweeps allowed s s' := by
  refine ⟨h.later.trans h'.later, fun hquiet => ?_⟩
  obtain ⟨ts, hup, hts⟩ := h.tidy (Nat.le_trans h'.later.reports hquiet)
  obtain ⟨ts', hup', hts'⟩ := h'.tidy (Nat.le_trans hquiet h.later.reports)
  exact ⟨ts ++ ts', by rw [hup, hup', List.append_assoc], hts.append hts'⟩

theorem mono (h : Sweeps allowed s s') (hallowed : ∀ t, allowed t → allowed' t) :
    Sweeps allowed' s s' := by
  refine ⟨h.later, fun hquiet => ?_⟩
  obtain ⟨ts, hup, hts⟩ := h.tidy hquiet
  exact ⟨ts, hup, hts.mono hallowed⟩

theorem count (s : State) : Sweeps allowed s s.count := ⟨.count s, fun _ => ⟨[], rfl, .nil⟩⟩

/-- A step that reports a problem may have consumed anything. -/
theorem of_report (h : Later s s') (hlt : s.reports < s'.reports) : Sweeps allowed s s' :=
  ⟨h, fun hquiet => absurd hlt (Nat.not_lt.2 hquiet)⟩

theorem take (h : (s.current r).lexeme.isStray = false) : Sweeps allowed s s.take := by
  cases hup : s.upcoming with
  | nil =>
    rw [State.take, hup]
    exact .refl s
  | cons t ts =>
    have hlater : Later s s.take := .take s (by rw [hup]; exact List.cons_ne_nil _ _)
    have hcurrent : s.current r = t := by rw [State.current, hup]
    rw [hcurrent] at h
    exact ⟨hlater, fun _ => ⟨[t], by rw [hup, State.upcoming_take hup]; rfl, .single h⟩⟩

/-- What is consumed one construct further in is consumed. -/
theorem leave (h : Sweeps allowed s.enter s') : Sweeps allowed s s'.leave :=
  ⟨h.later.leave, h.tidy⟩

/-- A token that announces a name is consumed, and the name with it. -/
theorem take_take (h : announcesName s.kind = true) : Sweeps allowed s s.take.take := by
  have hkind : s.kind ≠ .endOfFile := fun heq => by rw [heq] at h; cases h
  obtain ⟨mark, ts, hup⟩ := List.exists_cons_of_ne_nil (State.upcoming_ne_nil hkind)
  have htake := State.upcoming_take hup
  have hmark : announcesName mark.kind = true := by rwa [State.kind, hup] at h
  have hnot : mark.kind ≠ .identifier := fun heq => by rw [heq] at hmark; cases hmark
  have hfirst : Sweeps allowed s s.take := by
    refine take (r := ⟨[], 0⟩) ?_
    rw [State.current, hup]
    exact isStray_of_kind hnot
  cases ts with
  | nil =>
    have hstay : s.take.take = s.take := by
      rw [State.take, htake]
    rwa [hstay]
  | cons t ts =>
    have hlater : Later s.take s.take.take := .take _ (by rw [htake]; exact List.cons_ne_nil _ _)
    refine ⟨hfirst.later.trans hlater, fun _ => ⟨[mark, t], ?_, .announced hmark⟩⟩
    rw [hup, State.upcoming_take htake]
    rfl

end Sweeps

/-! ## Careful steps -/

/-- From a state a step accepts no stray character but behind what announces a name. -/
def CarefulAt (r : Setting) (s : State) (m : Parse α) : Prop :=
  Sweeps (fun _ => False) s (exec m r s).2

/-- **A step that accepts no stray character** but behind what announces a name. -/
class Careful (m : Parse α) : Prop where
  sweeps : ∀ r s, CarefulAt r s m

namespace CarefulAt

variable {m m' : Parse α} {f : α → Parse β}

theorem of [h : Careful m] : CarefulAt r s m := h.sweeps r s

theorem bind (h : CarefulAt r s m) (k : ∀ a s₁, exec m r s = (a, s₁) → CarefulAt r s₁ (f a)) :
    CarefulAt r s (m >>= f) :=
  h.trans (k _ _ rfl)

/-- What follows a step is careful from any state. -/
theorem andThen (h : CarefulAt r s m) [hf : ∀ a, Careful (f a)] : CarefulAt r s (m >>= f) :=
  h.bind fun a s₁ _ => (hf a).sweeps r s₁

/-- A step that only looks comes first. -/
theorem look {a : α} (h : exec m r s = (a, s)) (k : CarefulAt r s (f a)) :
    CarefulAt r s (m >>= f) := by
  rwa [CarefulAt, exec_bind_eq h]

theorem ite {c : Prop} [Decidable c] (hpos : c → CarefulAt r s m) (hneg : ¬c → CarefulAt r s m') :
    CarefulAt r s (if c then m else m') := by
  split
  · next h => exact hpos h
  · next h => exact hneg h

/-- What follows depends on the kind of the current token. -/
theorem sees {kind : TokenKind} {f : Bool → Parse β}
    (yes : s.kind = kind → CarefulAt r s (f true)) (no : s.kind ≠ kind → CarefulAt r s (f false)) :
    CarefulAt r s (Parser.sees kind >>= f) := by
  by_cases h : s.kind = kind
  · refine look (a := true) ?_ (yes h)
    rw [← beq_iff_eq.2 h]
    rfl
  · refine look (a := false) ?_ (no h)
    rw [← beq_eq_false_iff_ne.2 h]
    rfl

/-- A part that is there if its first token is. -/
theorem optionally_sees {kind : TokenKind} (h : s.kind = kind → CarefulAt r s m) :
    CarefulAt r s (optionally (Parser.sees kind) m) :=
  sees (fun hkind => (h hkind).trans (.refl _)) fun _ => .refl s

/-- A token that is known to be no stray character is consumed first. -/
theorem consume {f : Token → Parse β} (h : (s.current r).lexeme.isStray = false)
    (k : CarefulAt r s.take (f (s.current r))) : CarefulAt r s (Parser.advance >>= f) :=
  (Sweeps.take h).trans k

theorem consume_kind {f : Token → Parse β} {kind : TokenKind} (h : s.kind = kind)
    (hk : kind ≠ .identifier) (k : CarefulAt r s.take (f (s.current r))) :
    CarefulAt r s (Parser.advance >>= f) :=
  consume (isStray_of_kind (by rwa [State.kind_current, h])) k

/-- A token that is known to be no stray character is consumed. -/
theorem advance (h : (s.current r).lexeme.isStray = false) : CarefulAt r s advance :=
  Sweeps.take h

theorem advance_of_kind {kind : TokenKind} (h : s.kind = kind) (hk : kind ≠ .identifier) :
    CarefulAt r s Parser.advance :=
  advance (isStray_of_kind (by rwa [State.kind_current, h]))

end CarefulAt

section Instances

variable {m m' : Parse α} {f : α → Parse β}

instance instCarefulPure {a : α} : Careful (pure a : Parse α) := ⟨fun _ s => .refl s⟩

instance instCarefulBind [Careful m] [∀ a, Careful (f a)] : Careful (m >>= f) :=
  ⟨fun _ _ => CarefulAt.andThen .of⟩

instance instCarefulIte {c : Prop} [Decidable c] [Careful m] [Careful m'] :
    Careful (if c then m else m') :=
  ⟨fun _ _ => .ite (fun _ => .of) fun _ => .of⟩

instance : Careful currentKind := ⟨fun _ s => .refl s⟩
instance : Careful nextKind := ⟨fun _ s => .refl s⟩
instance : Careful position := ⟨fun _ s => .refl s⟩
instance : Careful (get : Parse State) := ⟨fun _ s => .refl s⟩
instance : Careful (read : Parse Setting) := ⟨fun _ s => .refl s⟩
instance : Careful startsDeclaration := ⟨fun _ s => .refl s⟩
instance {kind : TokenKind} : Careful (sees kind) := ⟨fun _ s => .refl s⟩
instance {mark : Punctuation} : Careful (seesMark mark) := ⟨fun _ s => .refl s⟩
instance : Careful seesEnd := ⟨fun _ s => .refl s⟩

instance {message : String} : Careful (reportHere message) :=
  ⟨fun _ s => .of_report (.note s _) (by show s.reports < (s.note _).reports; simp)⟩

instance {span : Span} {payload : Payload Node} : Careful (complete span payload) :=
  ⟨fun _ s => .count s⟩

instance {start : Nat} {payload : Payload Node} : Careful (finish start payload) := by
  unfold finish
  infer_instance

/-- A token of a kind that no stray character has is accepted or left alone. -/
theorem careful_accept {kind : TokenKind} (hk : kind ≠ .identifier) : Careful (accept kind) := by
  refine ⟨fun r s => ?_⟩
  rw [CarefulAt, exec_accept]
  split
  · next h => exact CarefulAt.advance_of_kind (r := r) h hk
  · exact .refl s

theorem careful_require {kind : TokenKind} (hk : kind ≠ .identifier) : Careful (require kind) := by
  have haccept := careful_accept hk
  unfold require
  infer_instance

instance {mark : Punctuation} : Careful (acceptMark mark) := careful_accept nofun
instance {word : Keyword} : Careful (acceptWord word) := careful_accept nofun
instance {mark : Punctuation} : Careful (requireMark mark) := careful_require nofun
instance {word : Keyword} : Careful (require (.keyword word)) := careful_require nofun

instance {message : String} {expected : Option Expected} : Careful (missing message expected) :=
  ⟨fun r s => .of_report (Completes.missing (r := r) message expected).later
    (by show s.reports < (s.note _).reports; simp)⟩

instance {message : String} {expected : Option Expected} : Careful (wrong message expected) :=
  ⟨fun _ _ => .of_report wrong_reports.2.1.later wrong_reports.2.2.1⟩

instance {message : String} {expected : Expected} : Careful (missingOrWrong message expected) := by
  unfold missingOrWrong
  infer_instance

instance instCarefulNested {m : Parse Node} [Careful m] : Careful (nested m) := by
  refine ⟨fun r s => .look rfl (.ite (fun _ => .of) fun _ => ?_)⟩
  exact Sweeps.leave (CarefulAt.of (m := m) (r := r) (s := s.enter))

instance instCarefulOptionally {test : Parse Bool} [Careful test] [Careful m] :
    Careful (optionally test m) := by
  unfold optionally
  infer_instance

instance instCarefulUnlessAt {ends : TokenKind → Bool} {m : Parse Node} [Careful m] :
    Careful (unlessAt ends m) := by
  unfold unlessAt
  infer_instance

instance instCarefulBraced {parts : Parse (List Node)} [Careful parts] :
    Careful (braced parts) := by
  unfold braced
  infer_instance

end Instances

/-! ## Repetition and recursion -/

/-- What parses the constructs inside another is careful. -/
class Inner.IsCareful (i : Inner) : Prop where
  safe : i.safeguard = .standard
  parse : ∀ goal, Careful (i.parse goal)

section Inner

variable [H : inner.IsCareful]

instance {goal : Goal} : Careful (inner.parse goal) := H.parse goal

instance {message : String} : Careful (inner.safeguard.standstill message) := by
  rw [H.safe]
  exact inferInstanceAs (Careful (wrong message none))

instance : Careful inner.safeguard.repetition := by
  rw [H.safe]
  exact inferInstanceAs (Careful (pure () : Parse Unit))

theorem careful_iterate {σ : Type} {value : σ} {step : σ → Parse (σ × Bool)}
    (hstep : ∀ value, Careful (step value)) : Careful (inner.iterate value step) := by
  unfold Inner.iterate
  generalize inner.bound + 1 = rounds
  induction rounds generalizing value with
  | zero =>
    unfold Parser.iterate
    infer_instance
  | succ rounds ih =>
    unfold Parser.iterate
    infer_instance

theorem careful_collect {step : Parse (List Node × Bool)} (hstep : Careful step) :
    Careful (inner.collect step) := by
  unfold Inner.collect
  generalize inner.bound + 1 = rounds
  induction rounds with
  | zero =>
    unfold Parser.collect
    infer_instance
  | succ rounds ih =>
    unfold Parser.collect
    infer_instance

instance {σ : Type} {value : σ} {step : σ → Parse (σ × Bool)} [∀ value, Careful (step value)] :
    Careful (inner.iterate value step) :=
  careful_iterate inferInstance

instance {step : Parse (List Node × Bool)} [Careful step] : Careful (inner.collect step) :=
  careful_collect inferInstance

/-! ## Types and names -/

instance : Careful (arrayDepth inner) := by
  refine careful_iterate fun depth => ⟨fun r s => ?_⟩
  refine .look rfl (.look rfl (.ite (fun h => ?_) fun _ => .of))
  obtain ⟨hopen, hclose⟩ := Bool.and_eq_true_iff.1 h
  exact .consume_kind (beq_iff_eq.1 hopen) nofun (.consume_kind (beq_iff_eq.1 hclose) nofun .of)

instance : Careful (functionTypeParameter inner) := by
  unfold functionTypeParameter
  infer_instance

instance : Careful (functionTypeParameters inner) := by
  unfold functionTypeParameters
  infer_instance

instance : Careful (functionTypeParameterList inner) := by
  unfold functionTypeParameterList
  infer_instance

theorem isStray_of_typeHead? {lexeme : Lexeme} {head : TypeHead}
    (h : typeHead? lexeme = some head) : lexeme.isStray = false := by
  cases lexeme <;> first | rfl | cases h

instance : Careful (typeBody inner) := by
  refine ⟨fun r s => .look rfl (.look rfl (.ite (fun h => ?_) fun _ => ?_))⟩
  · obtain ⟨hfunction, hless⟩ := Bool.and_eq_true_iff.1 h
    have hkind : s.kind = .keyword (.basicType .function) := by
      rw [← State.kind_current r, Token.kind, beq_iff_eq.1 hfunction]
      rfl
    exact .look rfl (.consume_kind hkind nofun (.consume_kind (beq_iff_eq.1 hless) nofun .of))
  · split
    · exact .of
    · next head hhead => exact .consume (isStray_of_typeHead? hhead) .of

instance : Careful (type inner) := by
  unfold type
  infer_instance

instance : Careful (modifiers inner) := by
  refine careful_collect ⟨fun r s => .look rfl ?_⟩
  split
  · next word hlexeme => exact .consume (by rw [hlexeme]; rfl) .of
  · exact .of

theorem identifier_careful (h : (s.current r).lexeme.isStray = false) :
    CarefulAt r s identifier :=
  .consume h .of

instance : Careful declaredName := by
  refine ⟨fun r s => .look rfl ?_⟩
  split
  · next name hlexeme => exact identifier_careful (by rw [hlexeme]; rfl)
  · exact .of

instance : Careful (skipModifiers inner) := by
  refine careful_iterate fun _ => ⟨fun r s => .look rfl (.ite (fun h => ?_) fun _ => .of)⟩
  exact .consume_kind rfl (fun heq => by rw [heq] at h; cases h) .of

instance : Careful (parameter inner) := by
  unfold parameter
  infer_instance

instance : Careful (parameters inner) := by
  unfold parameters
  infer_instance

theorem parameterList_careful (h : s.kind = .punctuation .openParen) :
    CarefulAt r s (parameterList inner) :=
  .look rfl (.consume_kind h nofun .of)

instance : Careful startsTypedBinding := by
  unfold startsTypedBinding
  infer_instance

instance : Careful (binding inner) := by
  unfold binding
  infer_instance

/-! ## Expressions -/

instance : Careful startsCast := by
  refine ⟨fun r s => .look rfl ?_⟩
  split
  · exact .of
  · exact .of

theorem literal_careful {value : LiteralValue} (h : (s.current r).lexeme.isStray = false) :
    CarefulAt r s (literal value) :=
  .consume h .of

instance : Careful (stringParts inner) := by
  refine careful_collect ⟨fun r s => .look rfl ?_⟩
  split
  · next text htext =>
    have hstray : (s.current r).lexeme.isStray = false := by
      revert htext
      cases (s.current r).lexeme <;> first | exact fun _ => rfl | exact nofun
    exact (literal_careful hstray).andThen
  · exact .of

instance : Careful (stringLiterals inner) := by
  refine ⟨fun r s => .look rfl (CarefulAt.bind .of fun parts s₁ _ => ?_)⟩
  split
  · exact .of
  · exact .of

/-- Behind a token that announces a name, a name is accepted that may be a stray
character. -/
theorem announced_sweeps {f : Token → Parse β} {m : Parse β} [∀ t, Careful (f t)] [Careful m]
    (h : announcesName s.kind = true) :
    Sweeps (fun _ => False) s
      (exec (do if ← sees .identifier then f (← advance) else m) r s.take).2 := by
  by_cases hkind : s.take.kind = .identifier
  · have hsees : exec (sees .identifier) r s.take = (true, s.take) := by
      rw [← beq_iff_eq.2 hkind]
      rfl
    rw [exec_bind_eq hsees]
    exact (Sweeps.take_take h).trans (CarefulAt.of (m := f (s.take.current r)))
  · have hsees : exec (sees .identifier) r s.take = (false, s.take) := by
      rw [← beq_eq_false_iff_ne.2 hkind]
      rfl
    have hnot : s.kind ≠ .identifier := fun heq => by rw [heq] at h; cases h
    rw [exec_bind_eq hsees]
    exact (CarefulAt.advance_of_kind (r := r) rfl hnot).trans (CarefulAt.of (m := m))

/-- **Behind `::` any identifier is accepted**, a stray character too. -/
theorem inheritedName_careful (h : s.kind = .punctuation .doubleColon) :
    CarefulAt r s inheritedName := by
  have hname : announcesName s.kind = true := by rw [h]; rfl
  exact .look rfl (announced_sweeps hname)

instance : Careful (argument inner) := by
  unfold argument
  infer_instance

instance : Careful (arguments inner) := by
  unfold arguments
  infer_instance

theorem argumentList_careful (h : s.kind = .punctuation .openParen) :
    CarefulAt r s (argumentList inner) :=
  .look rfl (.consume_kind h nofun .of)

instance : Careful (newTarget inner) := by
  unfold newTarget
  infer_instance

theorem newObject_careful (h : s.kind = .keyword .newKw) : CarefulAt r s (newObject inner) := by
  refine .look rfl (.consume_kind h nofun (CarefulAt.bind .of fun target s₁ _ => ?_))
  exact (CarefulAt.optionally_sees argumentList_careful).andThen

instance {closing : Punctuation} {element : Parse Node} [Careful element] :
    Careful (elements inner closing element) := by
  unfold elements
  infer_instance

theorem arrayLiteral_careful (h : s.kind = .punctuation .openArray) :
    CarefulAt r s (arrayLiteral inner) :=
  .look rfl (.consume_kind h nofun .of)

instance : Careful (mappingEntry inner) := by
  unfold mappingEntry
  infer_instance

theorem mappingLiteral_careful (h : s.kind = .punctuation .openMapping) :
    CarefulAt r s (mappingLiteral inner) :=
  .look rfl (.consume_kind h nofun .of)

theorem parenthesized_careful (h : s.kind = .punctuation .openParen) :
    CarefulAt r s (parenthesized inner) :=
  .look rfl (.consume_kind h nofun .of)

instance : Careful (primary inner) := by
  refine ⟨fun r s => .look rfl ?_⟩
  have hkind : s.kind = (s.current r).lexeme.kind := (State.kind_current r s).symm
  cases hlexeme : (s.current r).lexeme with
  | stray c => exact .of
  | identifier name => exact identifier_careful (by rw [hlexeme]; rfl)
  | integer value => exact literal_careful (by rw [hlexeme]; rfl)
  | character c closed => exact literal_careful (by rw [hlexeme]; rfl)
  | symbol name => exact literal_careful (by rw [hlexeme]; rfl)
  | string text closed => exact .of
  | docString text closed => exact .of
  | keyword word =>
    rw [hlexeme] at hkind
    cases word with
    | trueKw | falseKw | nilKw | thisKw => exact literal_careful (by rw [hlexeme]; rfl)
    | newKw => exact newObject_careful hkind
    | _ => exact .of
  | punctuation mark =>
    rw [hlexeme] at hkind
    cases mark with
    | doubleColon => exact inheritedName_careful hkind
    | openParen => exact parenthesized_careful hkind
    | openArray => exact arrayLiteral_careful hkind
    | openMapping => exact mappingLiteral_careful hkind
    | _ => exact .of
  | _ => exact .of

instance {isRange : Bool} : Careful (rangeBound inner isRange) := by
  unfold rangeBound
  infer_instance

theorem subscript_careful {object : Node} (h : s.kind = .punctuation .openBracket) :
    CarefulAt r s (subscript inner object) :=
  .consume_kind h nofun .of

/-- **Behind `->` and `.` any identifier is accepted**, a stray character too. -/
theorem memberAccess_careful {object : Node} (h : announcesName s.kind = true) :
    CarefulAt r s (memberAccess object) := by
  have hname : Sweeps (fun _ => False) s (exec memberName r s.take).2 := announced_sweeps h
  have hfinish : ∀ name arrow,
      Careful (finish object.span.start (.memberAccess object name arrow)) :=
    fun _ _ => inferInstance
  exact hname.trans ((hfinish _ _).sweeps r _)

instance {expression : Node} : Careful (applyPostfix inner expression) := by
  refine ⟨fun r s => .look rfl ?_⟩
  split
  · next hkind => exact .andThen (CarefulAt.andThen (argumentList_careful hkind))
  · next hkind => exact .andThen (subscript_careful hkind)
  · next hkind => exact .andThen (memberAccess_careful (by rw [hkind]; rfl))
  · next hkind => exact .andThen (memberAccess_careful (by rw [hkind]; rfl))
  · next hkind => exact .andThen (.consume_kind hkind nofun .of)
  · next hkind => exact .andThen (.consume_kind hkind nofun .of)
  · exact .of

instance : Careful (postfixExpression inner) := by
  unfold postfixExpression
  infer_instance

theorem cast_careful (h : s.kind = .punctuation .openParen) : CarefulAt r s (cast inner) :=
  .look rfl (.consume_kind h nofun .of)

theorem prefixExpression_careful {operator : Punctuation} (h : s.kind = .punctuation operator) :
    CarefulAt r s (prefixExpression inner operator) :=
  .look rfl (.consume_kind h nofun .of)

instance : Careful (unaryBody inner) := by
  refine ⟨fun r s => ?_⟩
  obtain ⟨-, hsame, hopen⟩ := startsCast_runs (r := r) (s := s)
  refine CarefulAt.bind .of fun b s₁ hb => ?_
  rw [hb] at hsame hopen
  obtain rfl : s₁ = s := hsame
  refine .ite (fun hcast => cast_careful (hopen hcast)) fun _ => .look rfl ?_
  split
  · next mark hkind => exact .ite (fun _ => prefixExpression_careful hkind) fun _ => .of
  · exact .of

instance : Careful (unary inner) := by
  unfold unary
  infer_instance

instance {level : Nat} {left : Node} : Careful (applyBinary inner level left) := by
  refine ⟨fun r s => .look rfl ?_⟩
  rw [State.kind_current]
  split
  · next operator hkind => exact .ite (fun _ => .of) fun _ => .consume_kind hkind nofun .of
  · exact .of

instance {level : Nat} : Careful (binary inner level) := by
  unfold binary
  infer_instance

instance : Careful (conditional inner) := by
  unfold conditional
  infer_instance

instance : Careful (expression inner) := by
  refine ⟨fun r s => CarefulAt.bind .of fun left s₁ _ => .look rfl ?_⟩
  rw [State.kind_current]
  split
  · next operator hkind => exact .ite (fun _ => .consume_kind hkind nofun .of) fun _ => .of
  · exact .of

/-! ## Declarations and statements -/

instance {ends : TokenKind → Bool} : Careful (statementsUntil inner ends) := by
  unfold statementsUntil
  infer_instance

instance : Careful (block inner) := by
  unfold block
  infer_instance

instance : Careful (requiredBlock inner) := by
  unfold requiredBlock
  infer_instance

instance {name : Node} : Careful (declarator inner name) := by
  unfold declarator
  infer_instance

instance : Careful (moreDeclarators inner) := by
  unfold moreDeclarators
  infer_instance

instance : Careful (classMembers inner) := by
  unfold classMembers
  infer_instance

theorem classDeclaration_careful {start : Nat} {modifiers : List Node}
    (h : s.kind = .keyword .classKw) :
    CarefulAt r s (classDeclaration inner start modifiers) :=
  .consume_kind h nofun .of

instance : Careful (functionBody inner) := by
  unfold functionBody
  infer_instance

theorem functionDeclaration_careful {start : Nat} {modifiers : List Node} {type name : Node}
    (h : s.kind = .punctuation .openParen) :
    CarefulAt r s (functionDeclaration inner start modifiers type name) :=
  .andThen (parameterList_careful h)

instance {start : Nat} {modifiers : List Node} {type name : Node} :
    Careful (variableDeclaration inner start modifiers type name) := by
  unfold variableDeclaration
  infer_instance

instance : Careful (declaration inner) := by
  refine ⟨fun r s => .look rfl (CarefulAt.bind .of fun modifiers s₁ _ => ?_)⟩
  refine .sees (fun hclass => classDeclaration_careful hclass) fun _ => ?_
  refine CarefulAt.bind .of fun type s₂ _ => CarefulAt.bind .of fun name s₃ _ => ?_
  exact .sees (fun hopen => functionDeclaration_careful hopen)
    fun _ => CarefulAt.of (m := variableDeclaration inner _ modifiers type name)

instance : Careful (condition inner) := by
  unfold condition
  infer_instance

instance : Careful (forStart inner) := by
  unfold forStart
  infer_instance

instance : Careful (bindings inner) := by
  unfold bindings
  infer_instance

instance : Careful (caseLabel inner) := by
  unfold caseLabel
  infer_instance

theorem caseClause_careful (h : startsClause s.kind = true) : CarefulAt r s (caseClause inner) := by
  have hnot : s.kind ≠ .identifier := fun heq => by rw [heq] at h; cases h
  refine .look rfl (CarefulAt.bind (.consume_kind rfl hnot .of) fun head s₁ _ => ?_)
  exact .of

instance : Careful (clauses inner) := by
  refine careful_collect ⟨fun r s => .look rfl (.ite (fun _ => .of) fun _ => ?_)⟩
  exact .ite (fun hclause => .andThen (caseClause_careful hclause)) fun _ => .of

instance : Careful (catchBinding inner) := by
  unfold catchBinding
  infer_instance

instance : Careful (plainStatement inner) := by
  refine ⟨fun r s => .look rfl (.ite (fun _ => .of) fun _ => .of)⟩

instance : Careful (statementBody inner) := by
  refine ⟨fun r s => .look rfl ?_⟩
  split
  · exact .of
  · next h => exact .look rfl (.consume_kind h nofun .of)
  · next h => exact .look rfl (.consume_kind h nofun .of)
  · next h => exact .look rfl (.consume_kind h nofun .of)
  · next h => exact .look rfl (.consume_kind h nofun .of)
  · next h => exact .look rfl (.consume_kind h nofun .of)
  · next h => exact .look rfl (.consume_kind h nofun .of)
  · next h => exact .look rfl (.consume_kind h nofun .of)
  · next h => exact .look rfl (.consume_kind h nofun .of)
  · next h => exact .look rfl (.consume_kind h nofun .of)
  · next h => exact .look rfl (.consume_kind h nofun .of)
  · next h => exact .look rfl (.consume_kind h nofun .of)
  · exact .of

instance : Careful (statement inner) := by
  unfold statement
  infer_instance

end Inner

/-- **What parses the constructs of a text is careful**, at every bound. -/
theorem isCareful_ofBound (bound : Nat) : (Inner.ofBound .standard bound).IsCareful := by
  induction bound with
  | zero => exact ⟨rfl, fun _ => inferInstanceAs (Careful (missing _ _))⟩
  | succ bound ih =>
    refine ⟨rfl, fun goal => ?_⟩
    cases goal with
    | expression => exact inferInstanceAs (Careful (expression (.ofBound .standard bound)))
    | binary level => exact inferInstanceAs (Careful (binary (.ofBound .standard bound) level))
    | unary => exact inferInstanceAs (Careful (unary (.ofBound .standard bound)))
    | type => exact inferInstanceAs (Careful (type (.ofBound .standard bound)))
    | statement => exact inferInstanceAs (Careful (statement (.ofBound .standard bound)))
    | declaration => exact inferInstanceAs (Careful (declaration (.ofBound .standard bound)))

end ScriptLens.Parser
