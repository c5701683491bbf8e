import ScriptLens.Proofs.Runs

/-!
# Runs of types, names and parameters

One statement for each function that parses a type, a name or a parameter, with
the tokens it is asked for at as hypotheses. None of them opens another function:
a construct is put together from what is known of its parts.
-/

namespace ScriptLens.Parser

open Grammar

variable {r : Setting} {bound size : Nat} {s : State} {i j : Inner}

/-! ## Words

A node that is a word is finished behind the token that spells it. -/

theorem WordOf.current (h : s.kind = .identifier) :
    WordOf s.upcoming (s.current r).lexeme.text := by
  have hmem := State.current_mem r (s := s) (h ▸ nofun)
  exact .inr ⟨_, hmem, (State.kind_current r s).trans h, .inl rfl⟩

/-- An identifier is finished. -/
theorem Finishes.identifier {s₁ : State} {name : String} (h : WordOf s.upcoming name) :
    Finishes r s (.identifier name) s₁ :=
  ⟨rfl, nofun, fun _ heq => Option.some.inj heq ▸ h, nofun, trivial, trivial⟩

/-- A type that is a word is finished. -/
theorem Finishes.typeName {s₁ : State} {head : TypeHead} {depth : Nat}
    (h : ∀ name, head = .named name → WordOf s.upcoming name) :
    Finishes r s (.typeName head depth) s₁ := by
  refine ⟨rfl, nofun, fun word heq => ?_, nofun, trivial, trivial⟩
  cases head with
  | named name => exact Option.some.inj heq ▸ h name rfl
  | basic t => cases heq
  | nil => cases heq

/-! ## Types -/

theorem brackets_append (depth : Nat) :
    brackets depth ++ [.punctuation .openBracket, .punctuation .closeBracket]
      = brackets (depth + 1) := by
  induction depth with
  | zero => rfl
  | succ depth ih =>
    rw [brackets, List.cons_append, List.cons_append, ih]
    rfl

theorem arrayDepth_runs (H : Alike r bound i j) (hs : Room r (bound + 1) s) :
    Runs (arrayDepth i) (arrayDepth j) r s fun depth s' => Gives r s [] {brackets depth} s' := by
  refine H.iterate (fun depth s₁ => Gives r s [] {brackets depth} s₁) _ (Nat.le_refl _) hs
    (.nil s) fun depth s₁ _ hdepth => ?_
  refine .sees (fun hopen => .nextKind ?_) fun _ => .nextKind (.pure (.stop hdepth))
  refine .ite (fun hclose => ?_) fun _ => .pure (.stop hdepth)
  replace hclose : s₁.take.kind = .punctuation .closeBracket := by simpa using hclose
  refine (advance_runs hopen nofun).bind ?_
  rintro _ _ ⟨-, rfl, hfirst⟩
  refine (advance_runs hclose nofun).bind ?_
  rintro _ _ ⟨-, rfl, hsecond⟩
  refine .pure (.again ⟨hfirst.later.trans hsecond.later, ?_, ?_⟩)
  · exact Nat.lt_trans (State.length_take_mark hclose) (State.length_take_mark hopen)
  · refine (hdepth.and (hfirst.and hsecond)).mono ?_
    rintro _ ⟨_, rfl, _, ⟨_, rfl, _, rfl, rfl⟩, rfl⟩
    exact brackets_append depth

/-- A parameter of a function type is a type or `...`. -/
theorem functionTypeParameter_runs (H : Alike r bound i j) (hs : Room r bound s) :
    Runs (functionTypeParameter i) (functionTypeParameter j) r s fun n s' =>
      Gives r s [n] (words (Derives .typeParameter n)) s'
        ∧ (n.kind = .ellipsis ∨ n.kind.fillsType = true) := by
  refine .position (.accept (fun hdots => ?_) fun _ => ?_)
  · have hfinish : Runs (finish (s.position r) .ellipsis) (finish (s.position r) .ellipsis) r
        s.take (Parses r .typeParameter s) := by
      refine finish_after_runs hdots nofun (.nil _) rfl rfl ?_
      rintro id span _ rfl
      exact .typeEllipsis
    exact (hfinish.yields finish_yields).mono fun n s' ⟨hn, hpayload⟩ =>
      ⟨hn.gives, .inl (congrArg Payload.kind hpayload)⟩
  · exact (H.type hs).mono fun n s' ⟨hn, hfills⟩ =>
      ⟨hn.gives.mono fun _ => .typeParameter, .inr hfills⟩

theorem functionTypeParameters_runs (H : Alike r bound i j) (hs : Room r bound s) :
    Runs (functionTypeParameters i) (functionTypeParameters j) r s fun ns s' =>
      Gives r s ns (words (OrNone (Series (Derives .typeParameter)) ns)) s'
        ∧ ∀ n ∈ ns, n.kind = .ellipsis ∨ n.kind.fillsType = true := by
  refine .sees (fun _ => .pure ⟨?_, nofun⟩) fun _ => ?_
  · exact (Gives.nil s).mono fun ks hks => hks ▸ .none
  · exact (H.series_of hs fun s hs => functionTypeParameter_runs H hs).mono fun ns s' hns =>
      ⟨hns.1.mono fun ks hks => .some hks, hns.2⟩

theorem functionTypeParameterList_runs (H : Alike r bound i j) (hs : Room r bound s) :
    Runs (functionTypeParameterList i) (functionTypeParameterList j) r s fun ns s' =>
      Gives r s ns ({[.punctuation .openParen]} *
        (words (OrNone (Series (Derives .typeParameter)) ns) * {[.punctuation .closeParen]})) s'
        ∧ ∀ n ∈ ns, n.kind = .ellipsis ∨ n.kind.fillsType = true := by
  refine .require (fun hopen => ?_) fun _ => .pure ⟨.report s _, nofun⟩
  have hmark := Gives.mark (r := r) hopen
  refine (functionTypeParameters_runs H (hs.gives hmark)).bind fun ns s₁ ⟨hns, hfill⟩ => ?_
  refine requireMark_runs.bind fun _ s₂ hclose => .pure ⟨?_, hfill⟩
  exact hmark.and (hns.skip hclose)

theorem functionType_runs (H : Alike r bound i j) (hs : Room r (bound + 1) s)
    (hword : s.kind = .keyword (.basicType .function))
    (hless : s.take.kind = .punctuation .less) :
    Runs (functionType i) (functionType j) r s (Parses r .type s) := by
  have hless' := Gives.mark (r := r) hless
  have hs₂ : Room r bound s.take.take := (hs.take hword nofun).gives hless'
  refine .position (.step rfl (.step rfl ?_))
  refine (H.type hs₂).bind fun returnType s₃ ⟨htype, hfills⟩ => ?_
  have hreturn := htype.gives
  refine (functionTypeParameterList_runs H (hs₂.gives hreturn)).bind fun ps s₄ ⟨hps, hfill⟩ => ?_
  refine requireMark_runs.bind fun _ s₅ hgreater => ?_
  have hs₅ := ((hs₂.gives hreturn).gives hps).gives hgreater
  refine (arrayDepth_runs H hs₅.weaken).bind fun depth s₆ hdepth => ?_
  have hparts := hreturn.and ((hps.skip hgreater).skip hdepth)
  have hfinishes : Finishes r s
      (.functionType returnType ps (ps.any (·.kind == .ellipsis)) depth) s₆ :=
    ⟨rfl, nofun, nofun, nofun, trivial, hfills, hfill, rfl⟩
  refine finishes_after_runs hword nofun (hless'.and hparts) hfinishes rfl ?_
  rintro id span _
    ⟨_, rfl, _, ⟨_, hr, _, ⟨_, ⟨_, ⟨_, rfl, _, ⟨_, hp, _, rfl, rfl⟩, rfl⟩, _, rfl, rfl⟩, _, rfl,
      rfl⟩, rfl⟩, rfl⟩
  simpa using Derives.functionType hr hp

theorem kind_of_typeHead? {lexeme : Lexeme} {head : TypeHead}
    (h : typeHead? lexeme = some head) : lexeme.kind = head.kind := by
  unfold typeHead? at h
  split at h <;> cases h <;> rfl

theorem text_of_typeHead? {lexeme : Lexeme} {name : String}
    (h : typeHead? lexeme = some (.named name)) : lexeme.text = name := by
  unfold typeHead? at h
  split at h <;> cases h
  rfl

theorem TypeHead.kind_ne_endOfFile (head : TypeHead) : head.kind ≠ .endOfFile := by
  cases head <;> nofun

theorem typeBody_runs (H : Alike r bound i j) (hs : Room r (bound + 1) s) :
    Runs (typeBody i) (typeBody j) r s (Parses r .type s) := by
  refine .current (.nextKind (.ite (fun h => ?_) fun _ => ?_))
  · rw [Bool.and_eq_true, beq_iff_eq, beq_iff_eq] at h
    refine functionType_runs H hs ?_ h.2
    rw [← State.kind_current r s, Token.kind, h.1]
    rfl
  · split
    · exact missingOrWrong_runs rfl
    · next head hhead =>
      have hkind : s.kind = head.kind := by
        rw [← State.kind_current r s]
        exact kind_of_typeHead? hhead
      have hne := TypeHead.kind_ne_endOfFile head
      refine .step rfl ?_
      refine (arrayDepth_runs H (hs.gives (.take hkind hne))).bind fun depth s₁ hdepth => ?_
      refine finishes_after_runs hkind hne hdepth (.typeName ?_) (State.start_current r s) ?_
      · rintro name rfl
        rw [← text_of_typeHead? hhead]
        exact .current hkind
      · rintro id span _ rfl
        exact .typeName head

theorem fillsType_of_isSentinel {n : Node} (h : n.kind.isSentinel = true) :
    n.kind.fillsType = true := by
  rw [NodeKind.fillsType, h, Bool.or_true]

/-- Where a type is asked for, a type is given or a placeholder. -/
theorem type_fills : Yields (type i) fun n => n.kind.fillsType = true := by
  refine nested_yields (fun _ => fillsType_of_isSentinel) (.skip fun token => .skip fun _ => ?_)
  refine .ite (.skip fun _ => .skip fun _ => .skip fun _ => .skip fun _ => ?_) ?_
  · exact .skip fun _ => .skip fun _ => .skip fun _ => fun _ _ => rfl
  · split
    · exact missingOrWrong_yields fun _ => fillsType_of_isSentinel
    · exact .skip fun _ => .skip fun _ => fun _ _ => rfl

theorem type_runs (H : Alike r bound i j) (hs : Room r (bound + 1) s) :
    Runs (type i) (type j) r s (Parses r .type s) :=
  nested_runs (typeBody_runs H hs.enter)

/-! ## Modifiers and names -/

theorem modifiers_runs (H : Alike r bound i j) (hs : Room r (bound + 1) s) :
    Runs (modifiers i) (modifiers j) r s (ParsesEach r .modifier s) := by
  refine H.collect (ParsesEach r .modifier) (Nat.le_refl _) hs fun s hs => .current ?_
  split
  · next word hword =>
    have hkind : s.kind = .keyword (.modifier word) := by
      rw [← State.kind_current r s, Token.kind, hword]
      rfl
    refine .step rfl ((finish_after_runs (P := .modifier) hkind nofun (.nil _) rfl
      (State.start_current r s) ?_).bind fun n s₁ hn => ?_)
    · rintro id span _ rfl
      exact .modifier
    · have hmoved := hn.moves (by rw [hkind]; rfl)
      exact .pure (.again ⟨hn.later, hmoved, fun ns s₂ hns => .cons hn hmoved hns⟩)
  · exact .pure (.stop (.nil s))

/-- The words that are read off modifiers are the tokens that these consist of. -/
theorem modifierKinds_eq {ns : List Node} {ks : List TokenKind}
    (h : Many (Derives .modifier) ns ks) : modifierKinds (ns.filterMap modifierWord?) = ks := by
  induction h with
  | nil => rfl
  | cons hn _ ih =>
    cases hn
    rw [← ih]
    rfl

/-- An identifier is read where one stands. -/
theorem identifier_runs (hkind : s.kind = .identifier) :
    Runs identifier identifier r s (Parses r .name s) := by
  refine .step rfl (finishes_after_runs hkind nofun (.nil _) (.identifier (.current hkind))
    (State.start_current r s) ?_)
  rintro id span _ rfl
  exact .name

theorem declaredName_runs : Runs declaredName declaredName r s (Parses r .name s) := by
  refine .current ?_
  split
  · next name hname =>
    refine identifier_runs ?_
    rw [← State.kind_current r s, Token.kind, hname]
    rfl
  · exact missingOrWrong_runs rfl

/-! ## Parameters -/

theorem skipModifiers_runs (H : Alike r bound i j) (hs : Room r (bound + 1) s) :
    Runs (skipModifiers i) (skipModifiers j) r s fun _ s' =>
      Gives r s [] (words fun ks => ∀ k ∈ ks, k.isModifier) s'
        ∧ (s' = s ∨ s'.upcoming.length < s.upcoming.length) := by
  refine H.iterate
    (fun _ s₁ => Gives r s [] (words fun ks => ∀ k ∈ ks, k.isModifier) s₁
      ∧ (s₁ = s ∨ s₁.upcoming.length < s.upcoming.length)) _ (Nat.le_refl _) hs
    ⟨(Gives.nil s).mono ?_, .inl rfl⟩ fun _ s₁ _ hI => ?_
  · rintro _ rfl k hk
    cases hk
  · refine .currentKind (.ite (fun hmod => ?_) fun _ => .pure (.stop hI))
    have hne : s₁.kind ≠ .endOfFile := by
      intro heq
      rw [heq] at hmod
      cases hmod
    have htake := Gives.take (r := r) rfl hne
    have hshort := State.length_take rfl hne
    refine .step rfl (.pure (.again ⟨htake.later, hshort, ?_, .inr ?_⟩))
    · refine (hI.1.and htake).mono ?_
      rintro _ ⟨ks, hks, _, rfl, rfl⟩ k hk
      rcases List.mem_append.1 hk with hk | hk
      · exact hks k hk
      · rw [List.mem_singleton.1 hk]
        exact hmod
    · exact Nat.lt_of_lt_of_le hshort hI.1.later.length_le

theorem parameter_runs (H : Alike r bound i j) (hs : Room r (bound + 1) s) :
    Runs (parameter i) (parameter j) r s (Parses r .parameter s) := by
  refine .position (.accept (fun hdots => ?_) fun _ => ?_)
  · refine finish_after_runs hdots nofun (.nil _) rfl rfl ?_
    rintro id span _ rfl
    exact .parameterEllipsis
  · refine (skipModifiers_runs H hs).bind fun _ s₁ ⟨hmods, hmoved⟩ => ?_
    refine ((type_runs H (hs.gives hmods)).yields type_fills).bind ?_
    rintro type s₂ ⟨htype, hfills⟩
    refine declaredName_runs.bind fun name s₃ hname => ?_
    have hparts := hmods.and (htype.gives.and hname.gives)
    -- the modifiers move, or else the type does, at the same token
    have hshort : mustMove .parameter s.kind = true →
        s₃.upcoming.length < s.upcoming.length := by
      intro hmust
      rcases hmoved with rfl | hlt
      · exact Nat.lt_of_le_of_lt hname.later.length_le (htype.moves hmust)
      · exact Nat.lt_of_le_of_lt (htype.later.trans hname.later).length_le hlt
    refine .accept (fun hdots => ?_) fun _ => ?_
    · have hmark := Gives.mark (r := r) hdots
      have hfinishes : Finishes r s (.parameter type name true) s₃.take :=
        ⟨rfl, nofun, nofun, nofun, trivial, hfills⟩
      refine finishes_runs (hparts.and hmark) hfinishes (.inl rfl) (fun hmust => ?_) ?_
      · exact Nat.lt_trans (State.length_take_mark hdots) (hshort hmust)
      · rintro id span _ ⟨_, ⟨_, hm, _, ⟨_, ht, _, hn, rfl⟩, rfl⟩, _, rfl, rfl⟩
        have hrule : Derives .parameter ⟨id, span, .parameter type name true⟩ _ :=
          .parameter hm ht hn
        simpa [markIf] using hrule
    · have hfinishes : Finishes r s (.parameter type name false) s₃ :=
        ⟨rfl, nofun, nofun, nofun, trivial, hfills⟩
      refine finishes_runs hparts hfinishes (.inl rfl) hshort ?_
      rintro id span _ ⟨_, hm, _, ⟨_, ht, _, hn, rfl⟩, rfl⟩
      have hrule : Derives .parameter ⟨id, span, .parameter type name false⟩ _ :=
        .parameter hm ht hn
      simpa [markIf] using hrule

/-! A parameter ends with its last token, or it has no name. A list of parameters is closed by
a token behind the last of them, or else the last one may reach over its end. -/

/-- A declared name ends with its token, or it is missing. -/
theorem declaredName_ends (hs : s.Fits r) :
    Runs declaredName declaredName r s fun n s' => n.span.stop ≤ s'.previousEnd
      ∨ n.kind = .missing ∧ n.span = .emptyAt (s'.position r) := by
  refine .current ?_
  split
  · next name hname =>
    have hkind : s.kind = .identifier := by
      rw [← State.kind_current r s, Token.kind, hname]
      rfl
    have hlt := hs.position_lt_previousEnd_take hkind nofun
    refine .step rfl (finish_spans.mono ?_)
    rintro n _ ⟨rfl, -, hspan⟩
    rw [hspan, State.start_current]
    exact .inl (Nat.max_le.2 ⟨Nat.le_refl _, Nat.le_of_lt hlt⟩)
  · refine .currentKind (.ite (fun _ => ⟨rfl, .inr ⟨rfl, rfl⟩⟩) fun hgo => ?_)
    refine (wrong_ends fun hend => ?_).mono fun n s' hn => .inl hn
    rw [hend] at hgo
    cases hgo

/-- **A parameter ends with its last token or has no name.** -/
theorem parameter_ends (H : Alike r bound i j) (hs : Room r (bound + 1) s) :
    Runs (parameter i) (parameter j) r s fun n s' =>
      n.span.stop ≤ s'.previousEnd ∨ Unnamed r s' n := by
  refine .position (.accept (fun hdots => ?_) fun _ => ?_)
  · have hlt := hs.fits.position_lt_previousEnd_take hdots nofun
    refine finish_spans.mono ?_
    rintro n _ ⟨rfl, -, hspan⟩
    rw [hspan]
    exact .inl (stop_spanOver_le_previousEnd (Nat.le_refl _) (Nat.le_of_lt hlt))
  · refine (skipModifiers_runs H hs).bind fun _ s₁ ⟨hmods, _⟩ => ?_
    have hs₁ := hs.gives hmods
    refine (type_runs H hs₁).bind fun type s₂ htype => ?_
    have hs₂ := hs₁.gives htype.gives
    refine (declaredName_runs.and (declaredName_ends hs₂.fits)).bind
      fun name s₃ ⟨hname, hend⟩ => ?_
    have hparts := hmods.and (htype.gives.and hname.gives)
    have hin := (hparts.passes.inOrder hs.fits).1
    refine .accept (fun hdots => finish_spans.mono ?_) fun _ => finish_spans.mono ?_
    · have hlt := (hs₂.gives hname.gives).fits.position_lt_previousEnd_take hdots nofun
      rintro n _ ⟨rfl, -, hspan⟩
      rw [hspan]
      exact .inl (stop_spanOver_le_previousEnd hin (Nat.le_of_lt hlt))
    · rintro n _ ⟨rfl, hpayload, hspan⟩
      rcases hend with hle | ⟨hmissing, hempty⟩
      · rw [hspan]
        exact .inl (stop_spanOver_le_previousEnd (hin.getLast rfl) hle)
      · refine .inr ⟨Nat.le_antisymm ?_ ?_, type, name, hpayload, hmissing, hempty⟩
        · rw [hspan]
          exact stop_spanOver_le_position hs.fits hparts.later (.inl rfl) hin
        · have hle : name.span.stop ≤ n.span.stop :=
            hspan ▸ le_stop_spanOver_of_mem (by simp [Payload.children])
          rwa [hempty] at hle

theorem parameters_runs (H : Alike r bound i j) (hs : Room r bound s) :
    Runs (parameters i) (parameters j) r s fun ns s' =>
      Gives r s ns (words (LooseSeries (Derives .parameter) ns)) s' := by
  refine H.collect (fun s ns s' => Gives r s ns (words (LooseSeries (Derives .parameter) ns)) s')
    (Nat.le_succ _) hs fun s hs => ?_
  refine .currentKind (.ite (fun _ => .pure (.stop ?_)) fun _ => .position ?_)
  · exact (Gives.nil s).mono fun ks hks => hks ▸ .nil
  refine (parameter_runs H hs.weaken).bind fun n s₁ hn => ?_
  refine .accept (fun hk => .pure (.again (hn.gives.comma hk .cons))) fun _ => ?_
  refine .position (.ite (fun _ => ?_) fun _ => .pure (.stop ?_))
  · refine wrong_reports.bind fun m s₂ ⟨hwrong, hlt, _⟩ => .pure (.stop ?_)
    exact .of_report (.child hn.completes hwrong.passes) (Nat.lt_of_le_of_lt hn.later.reports hlt)
  · exact hn.gives.mono fun ks hks => .single hks

/-- Of the parameters only the last one may have no name and no token behind it. -/
theorem parameters_end (H : Alike r bound i j) (hs : Room r bound s) :
    Runs (parameters i) (parameters j) r s fun ns s' => Later s s' ∧ ∀ n ∈ ns,
      n.span.stop ≤ s'.previousEnd ∨ ns.getLast? = some n ∧ Unnamed r s' n := by
  refine H.collect (fun s ns s' => Later s s' ∧ ∀ n ∈ ns,
    n.span.stop ≤ s'.previousEnd ∨ ns.getLast? = some n ∧ Unnamed r s' n)
    (Nat.le_succ _) hs fun s hs => ?_
  have hnone : ∀ n ∈ [], n.span.stop ≤ s.previousEnd ∨ [].getLast? = some n ∧ Unnamed r s n :=
    List.forall_mem_nil _
  refine .currentKind (.ite (fun _ => .pure (.stop ⟨.refl s, hnone⟩)) fun hgo => .position ?_)
  refine ((parameter_runs H hs.weaken).and (parameter_ends H hs.weaken)).bind ?_
  rintro n s₁ ⟨hn, hend⟩
  have hs₁ := hs.gives hn.gives
  have hstop : n.span.stop ≤ s₁.position r := (hn.completes.span hs.fits).stop_le
  refine .accept (fun hk => .pure (.again ?_)) fun _ => ?_
  · have hmark := (Gives.mark (r := r) hk).later
    refine ⟨hn.later.trans hmark, ?_, ?_⟩
    · exact Nat.lt_of_lt_of_le (State.length_take_mark hk) hn.later.length_le
    rintro ns s₂ ⟨hl, hns⟩
    refine ⟨(hn.later.trans hmark).trans hl, ?_⟩
    have hlt := hs₁.fits.position_lt_previousEnd_take hk nofun
    have hle := (hmark.fits hs₁.fits).previousEnd_mono hl
    refine List.forall_mem_cons.2 ⟨.inl (by omega), fun m hm => (hns m hm).imp_right ?_⟩
    rintro ⟨hlast, hm⟩
    exact ⟨by rw [List.getLast?_append, hlast]; rfl, hm⟩
  · refine .position (.ite (fun hstill => ?_) fun _ => .pure (.stop ⟨hn.later, ?_⟩))
    · -- the parameter consumed nothing, so the token it stopped at is consumed behind it
      have hup := hs.fits.upcoming_eq hn.later (beq_iff_eq.1 hstill)
      have hkind : s₁.kind ≠ .endOfFile := by
        intro heq
        rw [State.kind, hup, ← State.kind] at heq
        rw [heq] at hgo
        cases hgo
      refine (wrong_reports.and (wrong_ends hkind)).bind ?_
      rintro m s₂ ⟨⟨hwrong, _, hmove⟩, hm⟩
      refine .pure (.stop ⟨hn.later.trans hwrong.later, ?_⟩)
      have hlt := hs₁.fits.position_lt_previousEnd hwrong.later (hmove hkind)
      exact List.forall_mem_cons.2 ⟨.inl (by omega), List.forall_mem_singleton.2 (.inl hm)⟩
    · exact List.forall_mem_singleton.2 (hend.imp_right fun h => ⟨rfl, h⟩)

/-- **A list of parameters**, which covers all of them, unless one reaches over its end. -/
theorem parameterList_runs (H : Alike r bound i j) (hs : Room r (bound + 1) s)
    (hopen : s.kind = .punctuation .openParen) :
    Runs (parameterList i) (parameterList j) r s fun list s' =>
      Gives r s.take list.items
        (words (LooseSeries (Derives .parameter) list.items) * {[.punctuation .closeParen]}) s'
      ∧ GoesThrough r s list s'
      ∧ ∀ n ∈ list.items, n.span.stop ≤ list.span.stop ∨ ReachesOver r s list n s' := by
  have hs' := hs.take hopen nofun
  have hmark := (Gives.mark (r := r) hopen).later
  refine .position (.step rfl ?_)
  refine ((parameters_runs H hs').and (parameters_end H hs')).bind fun ns s₁ ⟨hns, _, hend⟩ => ?_
  have hin := (hns.passes.inOrder hs'.fits).1
  have hs₁ := hs'.gives hns
  -- the list goes up to where the run is, with a closing token or without one
  have hthrough : ∀ {s₂}, Later s₁ s₂ →
      GoesThrough r s ⟨⟨s.position r, s₂.previousEnd⟩, ns⟩ s₂ := fun hl => by
    have hshort : _ < s.upcoming.length :=
      Nat.lt_of_le_of_lt (hns.later.trans hl).length_le (State.length_take_mark hopen)
    refine ⟨Nat.le_refl _, ?_, .inl (Nat.le_refl _), fun n hn => ?_⟩
    · exact hs.fits.position_lt_previousEnd (hmark.trans (hns.later.trans hl)) hshort
    · exact Nat.le_trans (hs.fits.position_le hmark) (hin.mem hn).1
  refine .require (fun hclose => .get (.pure ?_)) fun _ => .get (.pure ?_)
  · have hgives := Gives.mark (r := r) hclose
    refine ⟨hns.skip hgives, hthrough hgives.later, fun n hn => .inl ?_⟩
    have hlt := hs₁.fits.position_lt_previousEnd_take hclose nofun
    exact Nat.le_trans (hin.mem hn).2.2 (Nat.le_of_lt hlt)
  · refine ⟨hns.skip (.report s₁ _), hthrough (.note _ _), fun n hn => (hend n hn).imp_right ?_⟩
    rintro ⟨hlast, hunnamed⟩
    exact ⟨hlast, s₁, hmark.trans hns.later, .note _ _, rfl, hunnamed⟩

/-! ## Bindings -/

/-- The test for a type before a binding only looks. -/
theorem startsTypedBinding_runs :
    Runs startsTypedBinding startsTypedBinding r s fun b s' => s' = s ∧ (b = true → True) := by
  have hdone : ∀ b : Bool, s = s ∧ (b = true → True) := fun _ => ⟨rfl, fun _ => trivial⟩
  refine .currentKind (.ite (fun _ => .pure (hdone _)) fun _ => .ite (fun _ => ?_) fun _ => ?_)
  · exact .nextKind (.pure (hdone _))
  · exact .pure (hdone _)

theorem binding_runs (H : Alike r bound i j) (hs : Room r (bound + 1) s) :
    Runs (binding i) (binding j) r s (Parses r .binding s) := by
  refine .position ?_
  refine .bind (optionally_look_runs startsTypedBinding_runs fun _ =>
    (type_runs H hs).yields type_fills) fun o s₁ ho => ?_
  refine declaredName_runs.bind fun name s₂ hname => ?_
  rcases ho with ⟨rfl, rfl⟩ | ⟨type, rfl, htype, hfills⟩
  · have hfinishes : Finishes r s₁ (.binding none name) s₂ :=
      ⟨rfl, nofun, nofun, nofun, trivial, nofun⟩
    refine finishes_runs hname.gives hfinishes (.inl rfl) hname.moves ?_
    intro id span ks hks
    exact .binding .none hks
  · have hfinishes : Finishes r s (.binding (some type) name) s₂ :=
      ⟨rfl, nofun, nofun, nofun, trivial, fun _ ht => Option.mem_some.1 ht ▸ hfills⟩
    refine finishes_runs (htype.gives.and hname.gives) hfinishes (.inl rfl) (fun hmust => ?_) ?_
    · exact Nat.lt_of_le_of_lt hname.later.length_le (htype.moves hmust)
    · rintro id span _ ⟨ks, hks, ms, hms, rfl⟩
      exact .binding (.some hks) hms

end ScriptLens.Parser
