import ScriptLens.Proofs.Operands
import ScriptLens.Proofs.TypeRuns

/-!
# Runs of expressions

The functions that parse expressions, from the primary ones outwards. What follows
a primary expression and the binary operators are repetitions that wrap the node
parsed so far into a larger one. Their invariant is that this node began where the
repetition did (`Applied`); for the binary operators it also says how tightly the
next operator may bind, which is what makes the tree follow the levels
(`binary_runs`).
-/

namespace ScriptLens.Parser

open Grammar

variable {r : Setting} {bound : Nat} {s s₁ : State} {i j : Inner}

/-! ## Primary expressions -/

theorem literal_runs {P : Phrase} {value : LiteralValue} (hkind : s.kind = literalKind value)
    (hd : ∀ id span, Derives P ⟨id, span, .literal value⟩ [literalKind value]) :
    Runs (literal value) (literal value) r s (Parses r P s) := by
  have hk : literalKind value ≠ .endOfFile := by
    unfold literalKind
    split <;> nofun
  refine .step rfl (finish_after_runs hkind hk (.nil _) rfl (State.start_current r s) ?_)
  rintro id span _ rfl
  exact hd id span

theorem isSome_stringText? (lexeme : Lexeme) :
    (stringText? lexeme).isSome = true ↔ lexeme.kind = .string := by
  cases lexeme <;> simp [stringText?, Lexeme.kind]

theorem stringParts_runs (H : Alike r bound i j) (hs : Room r (bound + 1) s) :
    Runs (stringParts i) (stringParts j) r s fun ns s' =>
      ParsesEach r .string s ns s' ∧ s'.kind ≠ .string := by
  refine H.collect (fun s ns s' => ParsesEach r .string s ns s' ∧ s'.kind ≠ .string)
    (Nat.le_refl _) hs fun s hs => .current ?_
  have hiff := isSome_stringText? (s.current r).lexeme
  rw [← Token.kind, State.kind_current] at hiff
  split
  · next text heq =>
    have hkind := hiff.1 (by rw [heq]; rfl)
    refine (literal_runs (P := .string) hkind fun _ _ => .string).bind fun n s₁ hn => ?_
    have hmoved := hn.moves (by rw [hkind]; rfl)
    refine .pure (.again ⟨hn.later, hmoved, fun ns s₂ hrest => ?_⟩)
    exact ⟨.cons hn hmoved hrest.1, hrest.2⟩
  · next heq =>
    refine .pure (.stop ⟨.nil s, fun hkind => ?_⟩)
    have hsome := hiff.2 hkind
    rw [heq] at hsome
    cases hsome

/-- A single string stands for itself, and several are put together. -/
theorem stringLiterals_runs (H : Alike r bound i j) (hs : Room r (bound + 1) s)
    (hkind : s.kind = .string) :
    Runs (stringLiterals i) (stringLiterals j) r s (Parses r .strings s) := by
  refine .position ((stringParts_runs H hs).bind fun ns s₁ ⟨hns, hend⟩ => ?_)
  -- no string is left and one was there, so at least one was read
  have hlt : s₁.upcoming.length < s.upcoming.length := by
    rcases hns.eq_or_lt with ⟨-, rfl⟩ | hlt
    · exact absurd hkind hend
    · exact hlt
  split
  · next single =>
    cases hns with
    | cons hn _ hrest =>
      cases hrest with
      | nil => exact .pure (hn.mono (fun _ => .strings) id)
  · next hnot =>
    refine finish_runs hns.gives rfl (.inl rfl) (fun _ => hlt) fun id span ks hks => ?_
    refine .stringConcat ?_ hks
    match ns, hns with
    | [], .nil _ => exact absurd hlt (Nat.lt_irrefl _)
    | [n], _ => exact absurd rfl (hnot n)
    | _ :: _ :: _, _ => exact Nat.le_add_left _ _

theorem inheritedName_runs (hkind : s.kind = .punctuation .doubleColon) :
    Runs inheritedName inheritedName r s (Parses r .primary s) := by
  refine .position (.step rfl (.sees (fun hname => .step rfl ?_) fun _ => ?_))
  · have hsub := (Gives.mark (r := r) hkind).later.upcoming_subset
    have hmem := hsub (State.current_mem r (hname ▸ nofun))
    have hword : WordOf s.upcoming ("::" ++ (s.take.current r).lexeme.text) :=
      .inr ⟨_, hmem, (State.kind_current r _).trans hname, .inr rfl⟩
    refine finishes_after_runs hkind nofun (.take hname nofun) (.identifier hword) rfl ?_
    rintro id span _ rfl
    exact .inheritedName
  · refine reportHere_runs.bind fun _ s₁ hreport => ?_
    exact finishes_after_runs hkind nofun hreport (.identifier (.inl rfl)) rfl nofun

/-! ## Arguments -/

theorem argument_runs (H : Alike r bound i j) (hs : Room r bound s) :
    Runs (argument i) (argument j) r s (Parses r .argument s) := by
  refine .position ((H.parses .expression hs).bind fun value s₁ hvalue => ?_)
  refine .accept (fun hdots => ?_) fun _ => .pure (hvalue.mono (fun _ => .argument) id)
  refine finish_runs (hvalue.gives.and (.mark hdots)) rfl (.inl rfl) (fun hmust => ?_) ?_
  · exact Nat.lt_trans (State.length_take_mark hdots) (hvalue.moves hmust)
  · rintro id span _ ⟨_, hvalue, _, rfl, rfl⟩
    exact .spread hvalue

theorem arguments_runs (H : Alike r bound i j) (hs : Room r bound s) :
    Runs (arguments i) (arguments j) r s fun ns s' =>
      Gives r s ns (words (OrNone (Series (Derives .argument)) ns)) s' := by
  refine .sees (fun _ => .pure ?_) fun _ => ?_
  · exact (Gives.nil s).mono fun ks hks => hks ▸ .none
  · have hitem := fun s hs => (argument_runs H (s := s) hs).mono fun n s' hn => hn.gives
    exact (H.series hs hitem).mono fun ns s' hns => hns.mono fun ks hks => .some hks

/-- Nodes in order end before the last of them does, or the token behind it. -/
theorem stop_getLast {lower upper : Nat} {ns : List Node} (previousEnd : Nat)
    (h : Node.InOrder lower ns upper) :
    let stop := (ns.getLast?.map fun last => max last.span.stop previousEnd).getD previousEnd
    previousEnd ≤ stop ∧ (stop ≤ previousEnd ∨ ∃ n ∈ ns, stop = n.span.stop)
      ∧ ∀ n ∈ ns, n.span.stop ≤ stop := by
  cases hlast : ns.getLast? with
  | none =>
    obtain rfl := List.getLast?_eq_none_iff.1 hlast
    exact ⟨Nat.le_refl _, .inl (Nat.le_refl _), nofun⟩
  | some last =>
    have hbefore := h.getLast hlast
    refine ⟨Nat.le_max_right _ _, ?_, fun n hn =>
      Nat.le_trans (hbefore.mem hn).2.2 (Nat.le_max_left _ _)⟩
    rcases Nat.le_total last.span.stop previousEnd with hle | hle
    · exact .inl (Nat.max_le.2 ⟨hle, Nat.le_refl _⟩)
    · exact .inr ⟨last, List.mem_of_getLast? hlast, Nat.max_eq_left hle⟩

/-- **A list of arguments**, which covers all of them. -/
theorem argumentList_runs (H : Alike r bound i j) (hs : Room r (bound + 1) s)
    (hopen : s.kind = .punctuation .openParen) :
    Runs (argumentList i) (argumentList j) r s fun list s' =>
      Gives r s.take list.items
        (words (OrNone (Series (Derives .argument)) list.items) * {[.punctuation .closeParen]}) s'
      ∧ GoesThrough r s list s' ∧ ∀ n ∈ list.items, n.span.stop ≤ list.span.stop := by
  have hs' := hs.take hopen nofun
  have hmark := (Gives.mark (r := r) hopen).later
  refine .position (.step rfl ?_)
  refine (arguments_runs H hs').bind fun ns s₁ hns => ?_
  refine requireMark_runs.bind fun _ s₂ hclose => ?_
  have hparts := hns.skip hclose
  have hin := (hparts.passes.inOrder hs'.fits).1
  obtain ⟨hend, hstop, hcovers⟩ := stop_getLast s₂.previousEnd hin
  have hlt : s.position r < s₂.previousEnd :=
    hs.fits.position_lt_previousEnd (hmark.trans hparts.later)
      (Nat.lt_of_le_of_lt hparts.later.length_le (State.length_take_mark hopen))
  refine .get (.pure ⟨hparts, ⟨Nat.le_refl _, Nat.lt_of_lt_of_le hlt hend, hstop, ?_⟩, hcovers⟩)
  exact fun n hn => Nat.le_trans (hs.fits.position_le hmark) (hin.mem hn).1

/-- What has a list of arguments is finished. -/
theorem Finishes.arguments {payload : Payload Node} {list : ArgumentList Node}
    (hsentinel : payload.kind.isSentinel = false) (hblock : payload.kind ≠ .block)
    (hword : ∀ word, payload.word? ≠ some word) (hlist : payload.list? = some list)
    (hthrough : GoesThrough r s list s₁)
    (hcovers : ∀ n ∈ list.items, n.span.stop ≤ list.span.stop) (hfits : payload.PartsFit) :
    Finishes r s payload s₁ := by
  refine ⟨hsentinel, hblock, fun word heq => absurd heq (hword word), fun list' heq => ?_, hfits⟩
  obtain rfl := Option.some.inj (hlist.symm.trans heq)
  exact ⟨hthrough, fun n hn => .inl (hcovers n hn)⟩

/-! ## Compound primary expressions -/

theorem newTarget_runs (H : Alike r bound i j) (hs : Room r (bound + 1) s) :
    Runs (newTarget i) (newTarget j) r s (Parses r .target s) := by
  refine .sees (fun hkind => ?_) fun _ => ?_
  · exact (stringLiterals_runs H hs hkind).mono fun n s' hn => hn.mono (fun _ => .pathTarget) id
  · exact (type_runs H hs).mono fun n s' hn => hn.mono (fun _ => .typeTarget) id

theorem newObject_runs (H : Alike r bound i j) (hs : Room r (bound + 1) s)
    (hkind : s.kind = .keyword .newKw) :
    Runs (newObject i) (newObject j) r s (Parses r .primary s) := by
  have hs' := (hs.take hkind nofun).weaken
  refine .position (.step rfl ((newTarget_runs H hs').bind fun target s₁ htarget => ?_))
  have hs₁ := hs'.gives htarget.gives
  refine (optionally_look_runs sees_runs fun hopen => (argumentList_runs H hs₁ hopen).mono
    fun list s' hlist => And.intro ((Gives.mark (r := r) hopen).and hlist.1) hlist.2).bind ?_
  rintro _ s₂ (⟨rfl, rfl⟩ | ⟨list, rfl, hlist, hthrough, hcovers⟩)
  · have hfinishes : Finishes r s (.newObject target none) s₂ :=
      ⟨rfl, nofun, nofun, nofun, trivial, trivial⟩
    refine finishes_after_runs hkind nofun htarget.gives hfinishes rfl fun id span ks hks => ?_
    exact .newObject hks
  · have hbefore := (Gives.take (r := r) hkind nofun).later.trans htarget.later
    have hfinishes : Finishes r s (.newObject target (some list)) s₂ :=
      .arguments rfl nofun nofun rfl (hthrough.mono hs.fits hbefore hlist.later (.refl _)) hcovers
        ⟨trivial, trivial⟩
    refine finishes_after_runs hkind nofun (htarget.gives.and hlist) hfinishes rfl ?_
    rintro id span _ ⟨_, ht, _, ⟨_, rfl, _, ⟨_, ha, _, rfl, rfl⟩, rfl⟩, rfl⟩
    exact .newObjectWith ht ha

/-- The elements of a literal. One that consumed nothing stopped at a token, which
is consumed then. -/
theorem elements_runs {P : Phrase} {closing : Punctuation} {element element' : Parse Node}
    (H : Alike r bound i j) (hs : Room r bound s)
    (hitem : ∀ s, Room r bound s → Runs element element' r s (Parses r P s)) :
    Runs (elements i closing element) (elements j closing element') r s fun ns s' =>
      Gives r s ns (words (LooseSeries (Derives P) ns)) s' := by
  refine H.collect (fun s ns s' => Gives r s ns (words (LooseSeries (Derives P) ns)) s')
    (Nat.le_succ _) hs fun s hs => ?_
  refine .step rfl (.step rfl (.ite (fun _ => .pure (.stop ?_)) fun hgo => ?_))
  · exact (Gives.nil s).mono fun ks hks => hks ▸ .nil
  have hend : s.kind ≠ .endOfFile := beq_eq_false_iff_ne.1 (Bool.or_eq_false_iff.1 hgo).2
  refine .position ((hitem s hs).bind fun n s₁ hn => .accept (fun hcomma => ?_) fun _ => ?_)
  · exact .pure (.again (hn.gives.comma hcomma .cons))
  · refine .position (.step rfl (.ite (fun hstill => ?_) fun _ => .pure (.stop ?_)))
    · -- the element consumed nothing, so the token it stopped at is the one it was asked for at
      have hup := hs.fits.upcoming_eq hn.later (beq_iff_eq.1 (Bool.and_eq_true_iff.1 hstill).1)
      have hend₁ : s₁.kind ≠ .endOfFile := by rwa [State.kind, hup, ← State.kind]
      refine wrong_reports.bind fun m s₂ h => .pure (.again ?_)
      obtain ⟨hwrong, hlt, hmove⟩ := h
      refine ⟨hn.later.trans hwrong.later, hup ▸ hmove hend₁, fun ns s₃ hns => ?_⟩
      refine .of_report (.child hn.completes (.child hwrong hns.passes)) ?_
      exact Nat.lt_of_le_of_lt hn.later.reports (Nat.lt_of_lt_of_le hlt hns.later.reports)
    · exact hn.gives.mono fun ks hks => .single hks

theorem arrayLiteral_runs (H : Alike r bound i j) (hs : Room r (bound + 1) s)
    (hkind : s.kind = .punctuation .openArray) :
    Runs (arrayLiteral i) (arrayLiteral j) r s (Parses r .primary s) := by
  have hs' := hs.take hkind nofun
  refine .position (.step rfl ?_)
  refine (elements_runs H hs' fun s hs => H.parses .expression hs).bind fun ns s₁ hns => ?_
  refine requireMark_runs.bind fun _ s₂ hbrace => ?_
  refine requireMark_runs.bind fun _ s₃ hparen => ?_
  refine finish_after_runs hkind nofun (hns.skip (hbrace.and hparen)) rfl rfl ?_
  rintro id span _ ⟨_, hns, _, ⟨_, rfl, _, rfl, rfl⟩, rfl⟩
  exact .arrayLiteral hns

theorem mappingEntry_runs (H : Alike r bound i j) (hs : Room r bound s) :
    Runs (mappingEntry i) (mappingEntry j) r s (Parses r .mappingEntry s) := by
  refine .position ((H.parses .expression hs).bind fun key s₁ hkey => ?_)
  have hs₁ := hs.gives hkey.gives
  refine .bind (optionally_require_runs nofun fun hcolon =>
    H.gives .expression (hs₁.gives (.mark hcolon))) fun value s₂ hvalue => ?_
  refine finish_runs (hkey.gives.and hvalue) rfl (.inl rfl) (fun hmust => ?_) ?_
  · exact Nat.lt_of_le_of_lt hvalue.later.length_le (hkey.moves hmust)
  · rintro id span _ ⟨_, hkey, _, ⟨_, _, rfl, hvalue, rfl⟩, rfl⟩
    exact .mappingEntry hkey hvalue

theorem mappingLiteral_runs (H : Alike r bound i j) (hs : Room r (bound + 1) s)
    (hkind : s.kind = .punctuation .openMapping) :
    Runs (mappingLiteral i) (mappingLiteral j) r s (Parses r .primary s) := by
  have hs' := hs.take hkind nofun
  refine .position (.step rfl ?_)
  refine (elements_runs H hs' fun s hs => mappingEntry_runs H hs).bind fun ns s₁ hns => ?_
  refine requireMark_runs.bind fun _ s₂ hbracket => ?_
  refine requireMark_runs.bind fun _ s₃ hparen => ?_
  refine finish_after_runs hkind nofun (hns.skip (hbracket.and hparen)) rfl rfl ?_
  rintro id span _ ⟨_, hns, _, ⟨_, rfl, _, rfl, rfl⟩, rfl⟩
  exact .mappingLiteral hns

theorem parenthesized_runs (H : Alike r bound i j) (hs : Room r (bound + 1) s)
    (hkind : s.kind = .punctuation .openParen) :
    Runs (parenthesized i) (parenthesized j) r s (Parses r .primary s) := by
  have hs' := hs.take hkind nofun
  refine .position (.step rfl ((H.gives .expression hs').bind fun e s₁ he => ?_))
  refine requireMark_runs.bind fun _ s₂ hclose => ?_
  refine finish_after_runs hkind nofun (he.skip hclose) rfl rfl ?_
  rintro id span _ ⟨_, he, _, rfl, rfl⟩
  exact .parenthesized he

theorem primary_runs (H : Alike r bound i j) (hs : Room r (bound + 1) s) :
    Runs (primary i) (primary j) r s (Parses r .primary s) := by
  have hkind : s.kind = (s.current r).lexeme.kind := (State.kind_current r s).symm
  have hliteral : ∀ value, s.kind = literalKind value →
      Runs (literal value) (literal value) r s (Parses r .primary s) :=
    fun value hvalue => literal_runs hvalue fun _ _ => .literal
  have hstrings : s.kind = .string →
      Runs (stringLiterals i) (stringLiterals j) r s (Parses r .primary s) := fun hstring =>
    (stringLiterals_runs H hs hstring).mono fun n s' hn => hn.mono (fun _ => .ofStrings) id
  refine .current ?_
  cases hlexeme : (s.current r).lexeme with
  | stray c => exact wrong_runs
  | identifier name =>
    rw [hlexeme] at hkind
    exact (identifier_runs hkind).mono fun n s' hn => hn.mono (fun _ => .ofName) id
  | integer value => exact hliteral (.int value) (by rw [hkind, hlexeme]; rfl)
  | character c closed => exact hliteral (.char c) (by rw [hkind, hlexeme]; rfl)
  | symbol name => exact hliteral (.symbol name) (by rw [hkind, hlexeme]; rfl)
  | string text closed => exact hstrings (by rw [hkind, hlexeme]; rfl)
  | docString text closed => exact hstrings (by rw [hkind, hlexeme]; rfl)
  | keyword word =>
    rw [hlexeme] at hkind
    cases word with
    | trueKw => exact hliteral (.bool true) hkind
    | falseKw => exact hliteral (.bool false) hkind
    | nilKw => exact hliteral .nil hkind
    | thisKw => exact hliteral .this hkind
    | newKw => exact newObject_runs H hs hkind
    | _ => exact missingOrWrong_runs rfl
  | punctuation mark =>
    rw [hlexeme] at hkind
    cases mark with
    | doubleColon => exact inheritedName_runs hkind
    | openParen => exact parenthesized_runs H hs hkind
    | openArray => exact arrayLiteral_runs H hs hkind
    | openMapping => exact mappingLiteral_runs H hs hkind
    | _ => exact missingOrWrong_runs rfl
  | _ => exact missingOrWrong_runs rfl

/-! ## What follows a primary expression -/

section Postfix

variable {n : Node}

theorem subscript_runs (H : Alike r bound i j) (hs : s.Fits r) (hs₁ : Room r (bound + 1) s₁)
    (hn : Parses r .postfixed s n s₁) (hopen : s₁.kind = .punctuation .openBracket) :
    Runs (subscript i n) (subscript j n) r s₁ (Applied r .postfixed s s₁) := by
  have hs' := hs₁.take hopen nofun
  refine .step rfl (.bind (unlessAt_runs fun _ => H.gives .expression hs')
    fun index s₂ ⟨hindex, habsent⟩ => .accept (fun hdots => ?_) fun hdots => ?_)
  · have hdots' := Gives.mark (r := r) hdots
    have hs₃ := (hs'.gives hindex).gives hdots'
    refine .bind (unlessAt_runs fun _ => H.gives .expression hs₃) fun upper s₄ ⟨hupper, _⟩ => ?_
    refine requireMark_runs.bind fun _ s₅ hclose => ?_
    refine apply_runs hs hn hopen nofun (hindex.and (hdots'.and (hupper.skip hclose))) (.free rfl)
      rfl (.inl rfl) ?_
    rintro id span ks hks _ ⟨_, hlower, _, ⟨_, rfl, _, ⟨_, hupper, _, rfl, rfl⟩, rfl⟩, rfl⟩
    exact .range hks hlower hupper
  · refine .step rfl (requireMark_runs.bind fun _ s₃ hclose => ?_)
    refine apply_runs hs hn hopen nofun (hindex.skip hclose) (.free rfl) (List.append_nil _)
      (.inl rfl) ?_
    rintro id span ks hks _ ⟨_, hword, _, rfl, rfl⟩
    -- an index is absent only before `..`, which would have been consumed
    cases hword with
    | none => exact absurd (beq_iff_eq.1 (habsent rfl)) hdots
    | some hword => exact .subscript hks hword

theorem memberName_runs : Runs memberName memberName r s (Parses r .name s) := by
  refine .sees (fun hkind => identifier_runs hkind) fun _ => missingOrWrong_runs rfl

theorem memberAccess_runs (hs : s.Fits r) (hn : Parses r .postfixed s n s₁)
    (hkind : s₁.kind = .punctuation .arrow ∨ s₁.kind = .punctuation .dot) :
    Runs (memberAccess n) (memberAccess n) r s₁ (Applied r .postfixed s s₁) := by
  refine .step rfl (memberName_runs.bind fun name s₂ hname => ?_)
  rw [State.kind_current]
  rcases hkind with hkind | hkind
  · rw [hkind]
    exact apply_runs hs hn hkind nofun hname.gives (.free rfl) rfl (.inl rfl)
      fun id span ks hks ms hms => .arrowAccess hks hms
  · rw [hkind]
    exact apply_runs hs hn hkind nofun hname.gives (.free rfl) rfl (.inl rfl)
      fun id span ks hks ms hms => .dotAccess hks hms

theorem call_runs (H : Alike r bound i j) (hs : s.Fits r) (hs₁ : Room r (bound + 1) s₁)
    (hn : Parses r .postfixed s n s₁) (hopen : s₁.kind = .punctuation .openParen) :
    Runs (call i n) (call j n) r s₁ (Applied r .postfixed s s₁) := by
  refine (argumentList_runs H hs₁ hopen).bind fun list s₂ ⟨hlist, hthrough, hcovers⟩ => ?_
  have hlater := (Gives.mark (r := r) hopen).later.trans hlist.later
  have hfinishes : Finishes r s (.call n list) s₂ :=
    .arguments rfl nofun nofun rfl (hthrough.mono hs hn.later hlater (.refl _)) hcovers
      ⟨trivial, trivial⟩
  refine apply_runs hs hn hopen nofun hlist hfinishes rfl (.inl rfl) ?_
  rintro id span ks hks _ ⟨_, ha, _, rfl, rfl⟩
  exact .call hks ha

theorem postfixUnary_runs {operator : Punctuation} (hs : s.Fits r)
    (hn : Parses r .postfixed s n s₁) (hkind : s₁.kind = .punctuation operator)
    (hoperator : operator ∈ [Punctuation.increment, .decrement]) :
    Runs (postfixUnary operator n) (postfixUnary operator n) r s₁
      (Applied r .postfixed s s₁) := by
  refine .step rfl (apply_runs hs hn hkind nofun (.nil _) (.free rfl) rfl (.inl rfl) ?_)
  rintro id span ks hks _ rfl
  exact .postfixUnary hoperator hks

/-- What follows an expression is applied to it, or nothing does. -/
theorem applyPostfix_runs (H : Alike r bound i j) (hs : s.Fits r) (hs₁ : Room r (bound + 1) s₁)
    (hn : Parses r .postfixed s n s₁) :
    Runs (applyPostfix i n) (applyPostfix j n) r s₁ fun next s' =>
      Round (Applied r .postfixed s s₁ next.1 s') (next.1 = n ∧ s' = s₁) next.2 := by
  have hyes : ∀ {m m' : Parse Node}, Runs m m' r s₁ (Applied r .postfixed s s₁) →
      Runs (do return (← m, true)) (do return (← m', true)) r s₁ fun next s' =>
        Round (Applied r .postfixed s s₁ next.1 s') (next.1 = n ∧ s' = s₁) next.2 :=
    fun h => h.bind fun n' s' hn' => .pure (.again hn')
  refine .currentKind ?_
  split
  · next hkind => exact hyes (call_runs H hs hs₁ hn hkind)
  · next hkind => exact hyes (subscript_runs H hs hs₁ hn hkind)
  · next hkind => exact hyes (memberAccess_runs hs hn (.inl hkind))
  · next hkind => exact hyes (memberAccess_runs hs hn (.inr hkind))
  · next hkind => exact hyes (postfixUnary_runs hs hn hkind (by simp))
  · next hkind => exact hyes (postfixUnary_runs hs hn hkind (by simp))
  · exact .pure (.stop ⟨rfl, rfl⟩)

end Postfix

theorem postfixExpression_runs (H : Alike r bound i j) (hs : Room r (bound + 1) s) :
    Runs (postfixExpression i) (postfixExpression j) r s (Parses r .postfixed s) := by
  refine (primary_runs H hs).bind fun n s₁ hn => ?_
  refine H.iterate (Parses r .postfixed s) _ (Nat.le_refl _) (hs.gives hn.gives)
    (hn.mono (fun _ => .primary) id) fun n s₁ hs₁ hn => ?_
  refine (applyPostfix_runs H hs.fits hs₁ hn).mono ?_
  rintro ⟨n', _⟩ s₂ (happlied | ⟨rfl, rfl⟩)
  · exact .again ⟨happlied.later, happlied.shorter, happlied.parses⟩
  · exact .stop hn

/-! ## Unary operators -/

theorem cast_runs (H : Alike r bound i j) (hs : Room r (bound + 1) s)
    (hkind : s.kind = .punctuation .openParen) :
    Runs (cast i) (cast j) r s (Parses r .unary s) := by
  have hs' := hs.take hkind nofun
  refine .position (.step rfl ((type_runs H hs'.weaken).bind fun type s₁ htype => ?_))
  refine requireMark_runs.bind fun _ s₂ hclose => ?_
  have hs₂ := (hs'.gives htype.gives).gives hclose
  refine (H.gives .unary hs₂).bind fun operand s₃ hoperand => ?_
  refine finish_after_runs hkind nofun (htype.gives.and (hclose.and hoperand)) rfl rfl ?_
  rintro id span _ ⟨_, ht, _, ⟨_, rfl, _, ho, rfl⟩, rfl⟩
  exact .cast ht ho

theorem prefixExpression_runs {operator : Punctuation} (H : Alike r bound i j)
    (hs : Room r (bound + 1) s) (hkind : s.kind = .punctuation operator)
    (hoperator : isPrefixOperator operator = true) :
    Runs (prefixExpression i operator) (prefixExpression j operator) r s
      (Parses r .unary s) := by
  have hs' := hs.take hkind nofun
  refine .position (.step rfl ((H.gives .unary hs').bind fun operand s₁ hoperand => ?_))
  refine finish_after_runs hkind nofun hoperand rfl rfl fun id span ks hks => ?_
  refine .prefixUnary ?_ hks
  cases operator <;> first | decide | cases hoperator

theorem startsCast_runs :
    Runs startsCast startsCast r s fun b s' =>
      s' = s ∧ (b = true → s.kind = .punctuation .openParen) := by
  refine .get ?_
  cases hup : s.upcoming with
  | nil => exact .pure ⟨rfl, nofun⟩
  | cons opening rest =>
    refine .pure ⟨rfl, fun h => ?_⟩
    rw [State.kind, hup]
    exact beq_iff_eq.1 (Bool.and_eq_true_iff.1 h).1

theorem unaryBody_runs (H : Alike r bound i j) (hs : Room r (bound + 1) s) :
    Runs (unaryBody i) (unaryBody j) r s (Parses r .unary s) := by
  have hplain : Runs (postfixExpression i) (postfixExpression j) r s (Parses r .unary s) :=
    (postfixExpression_runs H hs).mono fun n s' hn => hn.mono (fun _ => .postfixed) id
  refine startsCast_runs.bind ?_
  rintro b _ ⟨rfl, hb⟩
  refine .ite (fun hcast => cast_runs H hs (hb hcast)) fun _ => .currentKind ?_
  split
  · next mark hkind =>
    exact .ite (fun hop => prefixExpression_runs H hs hkind hop) fun _ => hplain
  · exact hplain

theorem unary_runs (H : Alike r bound i j) (hs : Room r (bound + 1) s) :
    Runs (unary i) (unary j) r s (Parses r .unary s) :=
  nested_runs (unaryBody_runs H hs.enter)

/-! ## Binary operators -/

/-- The level of an operator is one more than its place among the operators. -/
theorem mem_operatorsAt {operator : Punctuation} {level : Nat}
    (h : binaryLevel (.punctuation operator) = level + 1) : operator ∈ operatorsAt level := by
  have hplace : binaryLevel (.punctuation operator) = 0
      ∨ operator ∈ operatorsAt (binaryLevel (.punctuation operator) - 1) := by
    cases operator <;> decide
  rcases hplace with hzero | hmem
  · rw [hzero] at h
    cases h
  · rwa [h] at hmem

theorem binaryLevel_le (kind : TokenKind) : binaryLevel kind ≤ 10 := by
  cases kind with
  | punctuation mark => cases mark <;> decide
  | _ => exact Nat.zero_le _

section Binary

variable {level : Nat} {left : Node}

/-- A left operand between two levels: it is made of operators that are tighter than
the level `top`, and the operator that follows is not much tighter than those. -/
def Operand (r : Setting) (level : Nat) (s : State) (left : Node) (s₁ : State) : Prop :=
  ∃ top, level ≤ top ∧ binaryLevel s₁.kind ≤ top + 1
    ∧ left.Tighter top ∧ Parses r (.binary top) s left s₁

theorem Operand.of_unary (h : Parses r .unary s left s₁) (hleft : left.IsOperand) :
    Operand r level s left s₁ := by
  refine ⟨max level 10, Nat.le_max_left _ _, ?_, hleft.tighter,
    h.mono (fun _ => .unary) id⟩
  exact Nat.le_trans (binaryLevel_le _) (Nat.le_trans (Nat.le_max_right level 10) (Nat.le_succ _))

theorem Operand.parses {tighter : Nat} (h : Operand r level s left s₁)
    (hle : tighter ≤ level ∨ tighter < binaryLevel s₁.kind) :
    Parses r (.binary tighter) s left s₁ ∧ left.Tighter tighter := by
  obtain ⟨top, hlevel, hnext, htop, hleft⟩ := h
  have hle : tighter ≤ top := by omega
  exact ⟨hleft.mono (fun _ => .loosen hle) id, htop.mono hle⟩

/-- A binary operator is applied to its left operand. The right operand takes all
operators that bind more tightly, so the next one does not. -/
theorem applyBinary_runs (H : Alike r bound i j) (hs : s.Fits r) (hs₁ : Room r (bound + 1) s₁)
    (hleft : Operand r level s left s₁) :
    Runs (applyBinary i level left) (applyBinary j level left) r s₁ fun next s' =>
      Round (Later s₁ s' ∧ s'.upcoming.length < s₁.upcoming.length ∧ Operand r level s next.1 s')
        (Parses r (.binary level) s next.1 s' ∧ next.1.Tighter level
          ∧ binaryLevel s'.kind ≤ level) next.2 := by
  obtain ⟨hparses, htight⟩ := hleft.parses (.inl (Nat.le_refl _))
  refine .current ?_
  rw [State.kind_current]
  split
  · next operator hkind =>
    refine .ite_prop (fun hle => .pure (.stop ⟨hparses, htight, ?_⟩)) fun hlt => ?_
    · rwa [hkind]
    -- an operator that binds more tightly than some level has a place among the operators
    obtain ⟨tighter, htighter⟩ := Nat.exists_eq_succ_of_ne_zero (Nat.ne_of_gt
      (Nat.lt_of_le_of_lt (Nat.zero_le level) (Nat.not_le.1 hlt)))
    rw [htighter] at hlt ⊢
    have hs' := hs₁.take hkind nofun
    refine .step rfl ((H.done (.binary (tighter + 1)) _ hs').bind fun right s₂ hright => ?_)
    obtain ⟨hright, hrest, -⟩ := hright
    obtain ⟨hright', hnext⟩ := hrest _ rfl
    obtain ⟨hoperand, hleft'⟩ : Parses r (.binary tighter) s left s₁ ∧ left.Tighter tighter :=
      hleft.parses (.inr (by rw [hkind, htighter]; exact Nat.lt_succ_self _))
    have hfinishes : Finishes r s (.binary left operator right) s₂ :=
      ⟨rfl, nofun, nofun, nofun, .inr ⟨tighter, htighter, hleft', hright'⟩, trivial⟩
    refine (((apply_runs (P := .binary tighter) hs hoperand hkind nofun hright.gives hfinishes
      rfl (.inr (State.start_current r s₁)) ?_).and finish_counts).yields finish_yields).bind ?_
    · intro id span ks hks ms hms
      exact .binary (Nat.le_refl _) (mem_operatorsAt htighter) hks hms
    · rintro n _ ⟨⟨hn, rfl⟩, hpayload⟩
      refine .pure (.again ⟨hn.later, hn.shorter, tighter, ?_, hnext, ?_, hn.parses⟩)
      · exact Nat.le_of_lt_succ (Nat.not_le.1 hlt)
      · exact .of_binary hpayload (by rw [htighter]; exact Nat.lt_succ_self _)
  · next hkind =>
    refine .pure (.stop ⟨hparses, htight, ?_⟩)
    have hzero : binaryLevel s₁.kind = 0 := by
      unfold binaryLevel
      split
      · next mark heq => exact absurd heq (hkind mark)
      · rfl
    rw [hzero]
    exact Nat.zero_le _

end Binary

/-- **Binary operators follow the levels**: the tree is one of operators that bind
more tightly than the level, also where it derives nothing, and no such operator
follows. -/
theorem binary_runs (H : Alike r bound i j) (hs : Room r (bound + 1) s) (level : Nat) :
    Runs (binary i level) (binary j level) r s fun n s' =>
      Parses r (.binary level) s n s' ∧ n.Tighter level ∧ binaryLevel s'.kind ≤ level := by
  refine ((unary_runs H hs).yields unary_isOperand).bind fun n s₁ ⟨hn, hoperand⟩ => ?_
  exact H.iterate (Operand r level s) _ (Nat.le_refl _) (hs.gives hn.gives)
    (.of_unary hn hoperand)
    fun left s₂ hs₂ hleft => applyBinary_runs H hs.fits hs₂ hleft

/-! ## Conditionals and assignments -/

theorem conditional_runs (H : Alike r bound i j) (hs : Room r (bound + 1) s) :
    Runs (conditional i) (conditional j) r s fun n s' =>
      Parses r .conditional s n s' ∧ ¬n.IsAssignment := by
  refine (binary_runs H hs 0).bind fun condition s₁ ⟨hcondition, htight, _⟩ => ?_
  refine .position (.accept (fun hmark => ?_) fun _ => ?_)
  · have hs₁ := (hs.gives hcondition.gives).take hmark nofun
    refine .bind (nested_runs (H.parses .expression hs₁.enter)) fun whenTrue s₂ htrue => ?_
    have hs₂ := hs₁.gives htrue.gives
    refine .bind (optionally_require_runs nofun fun hcolon => (nested_runs
      (H.parses .expression (hs₂.gives (.mark hcolon)).enter)).mono fun n s' hn => hn.gives)
        fun whenFalse s₃ hfalse => ?_
    have hfinishes : Finishes r s (.conditional condition whenTrue whenFalse) s₃ :=
      ⟨rfl, nofun, nofun, nofun, htight, trivial⟩
    refine ((apply_runs hs.fits hcondition hmark nofun (htrue.gives.and hfalse) hfinishes rfl
      (.inr rfl) ?_).yields finish_yields).mono fun n s' ⟨hn, hpayload⟩ =>
        ⟨hn.parses, Node.not_isAssignment_of_conditional hpayload⟩
    rintro id span ks hks _ ⟨_, ht, _, ⟨_, _, rfl, hf, rfl⟩, rfl⟩
    exact .conditional hks ht hf
  · exact .pure ⟨hcondition.mono (fun _ => .ofBinary) id, htight.not_isAssignment⟩

theorem expression_runs (H : Alike r bound i j) (hs : Room r (bound + 1) s) :
    Runs (expression i) (expression j) r s (Parses r .expression s) := by
  refine (conditional_runs H hs).bind fun left s₁ ⟨hleft, hnot⟩ => .current ?_
  have hdone : Runs (pure left) (pure left) r s₁ (Parses r .expression s) :=
    .pure (hleft.mono (fun _ => .ofConditional) id)
  rw [State.kind_current]
  split
  · next operator hkind =>
    refine .ite (fun hassign => ?_) fun _ => hdone
    have hs₁ := (hs.gives hleft.gives).take hkind nofun
    refine .step rfl (.bind (nested_runs (H.parses .expression hs₁.enter))
      fun right s₂ hright => ?_)
    have hfinishes : Finishes r s (.binary left operator right) s₂ :=
      ⟨rfl, nofun, nofun, nofun, .inl ⟨hassign, hnot⟩, trivial⟩
    refine (apply_runs hs.fits hleft hkind nofun hright.gives hfinishes rfl
      (.inr (State.start_current r s₁)) ?_).mono fun n s' hn => hn.parses
    intro id span ks hks ms hms
    exact .assignment hassign hks hms
  · exact hdone

end ScriptLens.Parser
