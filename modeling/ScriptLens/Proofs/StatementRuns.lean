import ScriptLens.Proofs.ExpressionRuns

/-!
# Runs of declarations and statements

A statement consumes a token wherever one is left. The token that decides which
statement is parsed is consumed by it, and a declaration or an expression is tried
only at a token that starts one (`startsDeclaration_runs`,
`isClosing_of_startsExpression`), where neither can be absent. So the safeguard of
a list of statements is never called: the position after a statement is not the one
before it.
-/

namespace ScriptLens.Parser

open Grammar

variable {r : Setting} {bound : Nat} {s s₁ : State} {i j : Inner}

/-! ## What starts a declaration or an expression -/

/-- A token that starts a declaration cannot follow an absent one. -/
theorem isClosing_of_declares {first : Token} {rest : List Token}
    (h : declares (first :: rest) = true) : isClosing first.kind = false := by
  simp only [declares] at h
  cases hkind : first.kind with
  | keyword word =>
    rw [hkind] at h
    cases word <;> first | rfl | cases h
  | punctuation mark =>
    rw [hkind] at h
    cases h
  | endOfFile =>
    rw [hkind] at h
    cases h
  | _ => rfl

theorem startsDeclaration_runs :
    Runs startsDeclaration startsDeclaration r s fun b s' =>
      s' = s ∧ (b = true → isClosing s.kind = false) := by
  refine .get (.pure ⟨rfl, fun h => ?_⟩)
  cases hup : s.upcoming with
  | nil =>
    rw [hup] at h
    cases h
  | cons first rest =>
    rw [hup] at h
    rw [State.kind, hup]
    exact isClosing_of_declares h

theorem isClosing_of_startsExpression {kind : TokenKind} (h : startsExpression kind = true) :
    isClosing kind = false := by
  cases kind with
  | keyword word => cases word <;> first | rfl | cases h
  | punctuation mark => cases mark <;> first | rfl | cases h
  | endOfFile => cases h
  | _ => rfl

/-! ## Blocks -/

theorem statementsUntil_runs {ends : TokenKind → Bool} (H : Alike r bound i j)
    (hs : Room r bound s) :
    Runs (statementsUntil i ends) (statementsUntil j ends) r s fun ns s' =>
      ParsesEach r .statement s ns s' ∧ (s'.kind == .endOfFile || ends s'.kind) = true := by
  refine H.collect (fun s ns s' =>
    ParsesEach r .statement s ns s' ∧ (s'.kind == .endOfFile || ends s'.kind) = true)
    (Nat.le_succ _) hs fun s hs => ?_
  refine .currentKind (.ite (fun hend => .pure (.stop ⟨.nil s, hend⟩)) fun hgo => .position ?_)
  refine (H.parses .statement hs).bind fun n s₁ hn => ?_
  have hmoved := hn.moves (bne_iff_ne.2 (beq_eq_false_iff_ne.1 (Bool.or_eq_false_iff.1 hgo).1))
  refine .currentKind (.position (.ite (fun hstill => ?_) fun _ => .pure (.again ?_)))
  · -- the two safeguards may differ here, but the statement moved
    have hpos := hs.fits.position_lt hn.later hmoved
    exact absurd (beq_iff_eq.1 (Bool.and_eq_true_iff.1 hstill).1) (Nat.ne_of_gt hpos)
  · exact ⟨hn.later, hmoved, fun ns s₂ ⟨hns, hlast⟩ => ⟨.cons hn hmoved hns, hlast⟩⟩

/-- A block is finished behind its closing brace. -/
theorem closedBlock_runs {ns : List Node} (hs : s.Fits r)
    (hkind : s.kind = .punctuation .openBrace) (h : ParsesEach r .statement s.take ns s₁)
    (hclose : s₁.kind = .punctuation .closeBrace) :
    Runs (complete (spanOver (s.position r) s₁.take.previousEnd ns) (.block ns))
      (complete (spanOver (s.position r) s₁.take.previousEnd ns) (.block ns)) r s₁.take
      (Parses r .block s) := by
  have hparts := (Gives.mark (r := r) hkind).and h.gives
  have hall := hparts.skip (.mark hclose)
  have hshort := Nat.lt_of_le_of_lt h.later.length_le (State.length_take_mark hkind)
  have hcompletes := @Completes.finish r s s₁.take (s.position r) (.block ns) rfl
    ⟨trivial, trivial⟩ ⟨fun _ => hparts.passes.endsWithBrace hs hclose, nofun, nofun⟩ hall.passes
    (.inl rfl)
  refine ⟨rfl, hcompletes, fun hquiet => ?_, fun _ => ?_⟩
  · obtain ⟨_, ⟨_, ⟨_, rfl, ks, hks, rfl⟩, _, rfl, rfl⟩, heq⟩ := hall.spells hquiet
    exact ⟨_, .block hks, heq⟩
  · exact Nat.lt_trans (State.length_take_mark hclose) hshort

/-- A block that is still open where nothing is left reaches up to the end of the
text. -/
theorem openBlock_runs {ns : List Node} (hkind : s.kind = .punctuation .openBrace)
    (h : Passes r s.take ns s₁) (hlt : s.reports < s₁.reports) (hup : s₁.upcoming = []) :
    Runs
      (complete ⟨(spanOver (s.position r) s₁.previousEnd ns).start,
        max (spanOver (s.position r) s₁.previousEnd ns).stop r.length⟩ (.block ns))
      (complete ⟨(spanOver (s.position r) s₁.previousEnd ns).start,
        max (spanOver (s.position r) s₁.previousEnd ns).stop r.length⟩ (.block ns)) r s₁
      (Parses r .block s) := by
  have hmark := Gives.mark (r := r) hkind
  have hshort := Nat.lt_of_le_of_lt h.later.length_le (State.length_take_mark hkind)
  exact ⟨rfl, .of_report (.openBlock (hmark.passes.append h) hup) hlt fun _ => hshort⟩

theorem block_runs (H : Alike r bound i j) (hs : Room r (bound + 1) s)
    (hkind : s.kind = .punctuation .openBrace) :
    Runs (block i) (block j) r s (Parses r .block s) := by
  refine .position (.require (fun _ => ?_) fun hnot => absurd hkind hnot)
  have hs' := hs.take hkind nofun
  refine (statementsUntil_runs H hs').bind fun ns s₁ ⟨hns, hlast⟩ => ?_
  refine .require (fun hclose => .get (.read (.step rfl (.ite nofun fun _ => ?_)))) fun hopen =>
    .get (.read (.step rfl (.ite (fun hend => ?_) fun hgo => ?_)))
  -- closed; open at the end of the text; the statements end at one of the two
  · exact closedBlock_runs hs.fits hkind hns hclose
  · refine openBlock_runs hkind (hns.gives.skip (.report (L := 0) _ _)).passes ?_ ?_
    · rw [State.reports_note]
      exact Nat.lt_succ_of_le ((Gives.mark (r := r) hkind).later.trans hns.later).reports
    · exact (hs'.gives hns.gives).fits.upcoming_eq_nil (beq_iff_eq.1 hend)
  · rw [Bool.or_eq_true, beq_iff_eq, beq_iff_eq] at hlast
    exact absurd hlast (not_or.2 ⟨beq_eq_false_iff_ne.1 hgo, hopen⟩)

/-- A block that has to be there. Only its opening brace makes it consume. -/
theorem requiredBlock_runs (H : Alike r bound i j) (hs : Room r (bound + 1) s) :
    Runs (requiredBlock i) (requiredBlock j) r s (Parses r .block s) := by
  refine .sees (fun hkind => block_runs H hs hkind) fun hkind => missing_runs ?_
  exact beq_eq_false_iff_ne.2 hkind

/-! ## Variables -/

theorem declarator_runs {name : Node} (H : Alike r bound i j) (hs : s.Fits r)
    (hs₁ : Room r (bound + 1) s₁) (hname : Parses r .name s name s₁) :
    Runs (declarator i name) (declarator j name) r s₁ (Parses r .declarator s) := by
  refine .bind (optionally_accept_runs nofun fun hassign =>
    H.gives .expression (hs₁.take hassign nofun)) fun value s₂ hvalue => ?_
  have hstart := (hname.completes.span hs).start_eq
  refine finish_runs (hname.gives.and hvalue) rfl (.inl hstart) (fun hmust => ?_) ?_
  · exact Nat.lt_of_le_of_lt hvalue.later.length_le (hname.moves hmust)
  · rintro id span _ ⟨_, hn, _, hv, rfl⟩
    exact .declarator hn hv

/-- What follows the first variable of a declaration completes the series. -/
theorem moreDeclarators_runs (H : Alike r bound i j) (hs : Room r (bound + 1) s) :
    Runs (moreDeclarators i) (moreDeclarators j) r s fun ns s' =>
      Gives r s ns (words fun ms => ∀ n ks, Derives .declarator n ks →
        Series (Derives .declarator) (n :: ns) (ks ++ ms)) s' := by
  refine H.collect (fun s ns s' => Gives r s ns (words fun ms => ∀ n ks,
    Derives .declarator n ks → Series (Derives .declarator) (n :: ns) (ks ++ ms)) s')
    (Nat.le_refl _) hs fun s hs => ?_
  refine .accept (fun hcomma => ?_) fun _ => .pure (.stop ?_)
  · have hmark := Gives.mark (r := r) hcomma
    have hs' := hs.gives hmark
    refine declaredName_runs.bind fun name s₁ hname => ?_
    refine (declarator_runs H hs'.fits (hs'.gives hname.gives) hname).bind fun m s₂ hm => ?_
    refine .pure (.again ⟨hmark.later.trans hm.later, ?_, fun ns s₃ hns => ?_⟩)
    · exact Nat.lt_of_le_of_lt hm.later.length_le (State.length_take_mark hcomma)
    · refine (hmark.and (hm.gives.and hns)).mono ?_
      rintro _ ⟨_, rfl, _, ⟨ks, hks, ms, hms, rfl⟩, rfl⟩ n ls hls
      exact .cons hls (hms m ks hks)
  · refine (Gives.nil s).mono ?_
    rintro _ rfl n ks hks
    rw [List.append_nil]
    exact .single hks

/-! ## Declarations

A declaration begins with its modifiers, so it is described from the state `s`
before them, while its functions run from the state `s₁` behind them. -/

theorem classMembers_runs (H : Alike r bound i j) (hs : Room r bound s) :
    Runs (classMembers i) (classMembers j) r s fun ns s' =>
      Gives r s ns (words (Members (Derives .declaration) ns)) s' := by
  refine H.collect (fun s ns s' => Gives r s ns (words (Members (Derives .declaration) ns)) s')
    (Nat.le_succ _) hs fun s hs => ?_
  refine .step rfl (.step rfl (.ite (fun _ => .pure (.stop ?_)) fun hgo => ?_))
  · exact (Gives.nil s).mono fun ks hks => hks ▸ .nil
  have hend : s.kind ≠ .endOfFile := beq_eq_false_iff_ne.1 (Bool.or_eq_false_iff.1 hgo).2
  refine startsDeclaration_runs.bind ?_
  rintro b _ ⟨rfl, hb⟩
  refine .ite (fun hdeclares => ?_) fun _ => .accept (fun hmark => ?_) fun _ => ?_
  · refine (H.parses .declaration hs).bind fun n s₁ hn => .pure (.again ?_)
    have hmoved := hn.moves (by simp [mustMove, Goal.phrase, hb hdeclares])
    refine ⟨hn.later, hmoved, fun ns s₂ hns => (hn.gives.and hns).mono ?_⟩
    rintro _ ⟨_, hks, _, hms, rfl⟩
    exact .cons hks hms
  · have hmark' := Gives.mark (r := r) hmark
    refine .pure (.again ⟨hmark'.later, State.length_take_mark hmark, fun ns s₂ hns => ?_⟩)
    refine (hmark'.and hns).mono ?_
    rintro _ ⟨_, rfl, _, hms, rfl⟩
    exact .semicolon hms
  · refine wrong_reports.bind fun n s₁ ⟨hwrong, hlt, hmove⟩ => .pure (.again ?_)
    refine ⟨hwrong.later, hmove hend, fun ns s₂ hns => ?_⟩
    exact .of_report (.child hwrong hns.passes) (Nat.lt_of_lt_of_le hlt hns.later.reports)

theorem classDeclaration_runs {modifiers : List Node} (H : Alike r bound i j)
    (hs₁ : Room r (bound + 1) s₁) (hmodifiers : ParsesEach r .modifier s modifiers s₁)
    (hkind : s₁.kind = .keyword .classKw) :
    Runs (classDeclaration i (s.position r) modifiers)
      (classDeclaration j (s.position r) modifiers) r s₁ (Parses r .declaration s) := by
  have hword := Gives.take (r := r) hkind nofun
  have hs₂ := hs₁.take hkind nofun
  refine .step rfl (declaredName_runs.bind fun name s₃ hname => ?_)
  have hs₃ := hs₂.gives hname.gives
  refine .bind (braced_runs fun hopen => classMembers_runs H (hs₃.gives (.mark hopen)))
    fun members s₄ hmembers => ?_
  have hparts := hmodifiers.gives.and (hword.and (hname.gives.and hmembers))
  have hshort : s₄.upcoming.length < s.upcoming.length := by
    have hrest := (hname.gives.and hmembers).later.length_le
    have htake := State.length_take hkind nofun
    have hbefore := hmodifiers.later.length_le
    omega
  refine .accept (fun hmark => ?_) fun _ => ?_
  · have hmark' := Gives.mark (r := r) hmark
    refine finish_runs (hparts.skip hmark') rfl (.inl rfl) (fun _ => ?_) ?_
    · exact Nat.lt_of_le_of_lt hmark'.later.length_le hshort
    · rintro id span _
        ⟨_, ⟨_, hm, _, ⟨_, rfl, _, ⟨_, hn, _, ⟨_, rfl, _, ⟨_, hks, _, rfl, rfl⟩, rfl⟩, rfl⟩,
          rfl⟩, rfl⟩, _, rfl, rfl⟩
      obtain rfl := modifierKinds_eq hm
      simpa [markIf] using Derives.classDeclaration true hm hn hks
  · refine finish_runs hparts rfl (.inl rfl) (fun _ => hshort) ?_
    rintro id span _
      ⟨_, hm, _, ⟨_, rfl, _, ⟨_, hn, _, ⟨_, rfl, _, ⟨_, hks, _, rfl, rfl⟩, rfl⟩, rfl⟩, rfl⟩, rfl⟩
    obtain rfl := modifierKinds_eq hm
    simpa [markIf] using Derives.classDeclaration false hm hn hks

theorem functionBody_runs (H : Alike r bound i j) (hs : Room r (bound + 1) s) :
    Runs (functionBody i) (functionBody j) r s fun o s' =>
      Gives r s o.toList (words fun ks => o = none ∧ ks = [.punctuation .semicolon]
        ∨ ∃ body, o = some body ∧ Derives .block body ks) s' := by
  refine .sees (fun hkind => ?_) fun _ => ?_
  · refine (block_runs H hs hkind).bind fun body s₁ hbody => .pure (hbody.gives.mono ?_)
    exact fun ks hks => .inr ⟨body, rfl, hks⟩
  · refine requireMark_runs.bind fun _ s₁ hmark => .pure (hmark.mono ?_)
    exact fun ks hks => .inl ⟨rfl, hks⟩

section Declaration

variable {modifiers : List Node} {type name : Node} {s₂ s₃ : State}

theorem functionDeclaration_runs (H : Alike r bound i j) (hs : s.Fits r)
    (hs₃ : Room r (bound + 1) s₃) (hmodifiers : ParsesEach r .modifier s modifiers s₁)
    (htype : Parses r .type s₁ type s₂) (hfills : type.kind.fillsType = true)
    (hname : Parses r .name s₂ name s₃) (hopen : s₃.kind = .punctuation .openParen) :
    Runs (functionDeclaration i (s.position r) modifiers type name)
      (functionDeclaration j (s.position r) modifiers type name) r s₃
      (Parses r .declaration s) := by
  refine (parameterList_runs H hs₃ hopen).bind fun list s₄ ⟨hlist, hthrough, hends⟩ => ?_
  have hs₄ := (hs₃.gives (.mark hopen)).gives hlist
  refine (functionBody_runs H hs₄).bind fun body s₅ hbody => ?_
  have hmark := Gives.mark (r := r) hopen
  have hhead := hmodifiers.gives.and (htype.gives.and hname.gives)
  have hparts :=
    (hmodifiers.gives.and (htype.gives.and (hname.gives.and (hmark.and hlist)))).and hbody
  have hcovers : CoversItems r s (.functionDeclaration modifiers
      (modifiers.filterMap modifierWord?) type name list body) s₅ := by
    intro list' heq
    obtain rfl := Option.some.inj heq
    refine ⟨hthrough.mono hs hhead.later (hmark.later.trans hlist.later) hbody.later, ?_⟩
    exact fun n hn => (hends n hn).imp_right fun hover =>
      ⟨rfl, hover.mono hhead.later hbody.later⟩
  refine finishes_runs hparts ⟨rfl, nofun, nofun, hcovers, trivial, hfills⟩ (.inl rfl)
    (fun _ => ?_) ?_
  · have hrest := (hlist.and hbody).later.length_le
    have htake := State.length_take_mark hopen
    have hbefore := hhead.later.length_le
    omega
  · rintro id span _
      ⟨_, ⟨_, hm, _, ⟨_, ht, _, ⟨_, hn, _, ⟨_, rfl, _, ⟨_, hp, _, rfl, rfl⟩, rfl⟩, rfl⟩, rfl⟩,
        rfl⟩, _, ⟨rfl, rfl⟩ | ⟨body, rfl, hb⟩, rfl⟩
    · obtain rfl := modifierKinds_eq hm
      simpa using Derives.functionPrototype hm ht hn hp
    · obtain rfl := modifierKinds_eq hm
      simpa using Derives.functionDefinition hm ht hn hp hb

theorem variableDeclaration_runs (H : Alike r bound i j) (hs : Room r (bound + 1) s₂)
    (hmodifiers : ParsesEach r .modifier s modifiers s₁) (htype : Parses r .type s₁ type s₂)
    (hfills : type.kind.fillsType = true) (hname : Parses r .name s₂ name s₃)
    (hm : isClosing s.kind = false → s₂.upcoming.length < s.upcoming.length) :
    Runs (variableDeclaration i (s.position r) modifiers type name)
      (variableDeclaration j (s.position r) modifiers type name) r s₃
      (Parses r .declaration s) := by
  have hs₃ := hs.gives hname.gives
  refine (declarator_runs H hs.fits hs₃ hname).bind fun first s₄ hfirst => ?_
  refine (moreDeclarators_runs H (hs.gives hfirst.gives)).bind fun more s₅ hmore => ?_
  refine requireMark_runs.bind fun _ s₆ hmark => ?_
  have hvariables := hfirst.gives.and (hmore.skip hmark)
  refine finishes_runs (hmodifiers.gives.and (htype.gives.and hvariables))
    ⟨rfl, nofun, nofun, nofun, trivial, hfills⟩ (.inl rfl) (fun hmust => ?_) ?_
  · have hmoved := hm (by simpa [mustMove] using hmust)
    exact Nat.lt_of_le_of_lt hvariables.later.length_le hmoved
  · rintro id span _
      ⟨_, hm, _, ⟨_, ht, _, ⟨_, hf, _, ⟨_, hv, _, rfl, rfl⟩, rfl⟩, rfl⟩, rfl⟩
    obtain rfl := modifierKinds_eq hm
    simpa using Derives.variableDeclaration hm ht (hv first _ hf)

end Declaration

theorem declaration_runs (H : Alike r bound i j) (hs : Room r (bound + 1) s) :
    Runs (declaration i) (declaration j) r s (Parses r .declaration s) := by
  refine .position ((modifiers_runs H hs).bind fun modifiers s₁ hmodifiers => ?_)
  have hs₁ := hs.gives hmodifiers.gives
  refine .sees (fun hkind => classDeclaration_runs H hs₁ hmodifiers hkind) fun _ => ?_
  refine ((type_runs H hs₁).yields type_fills).bind fun type s₂ ⟨htype, hfills⟩ => ?_
  have hs₂ := hs₁.gives htype.gives
  refine declaredName_runs.bind fun name s₃ hname => ?_
  have hs₃ := hs₂.gives hname.gives
  refine .sees
    (fun hopen => functionDeclaration_runs H hs.fits hs₃ hmodifiers htype hfills hname hopen)
    fun _ => variableDeclaration_runs H hs₂ hmodifiers htype hfills hname fun hclosing => ?_
  -- the modifiers move, or else the type does, at the same token
  rcases hmodifiers.eq_or_lt with ⟨-, rfl⟩ | hlt
  · exact htype.moves (by simp [mustMove, hclosing])
  · exact Nat.lt_of_le_of_lt htype.later.length_le hlt

/-! ## Conditions and loops -/

theorem condition_runs (H : Alike r bound i j) (hs : Room r bound s) :
    Runs (condition i) (condition j) r s fun n s' =>
      Gives r s [n] (words fun ks => ∃ ms, Derives .expression n ms
        ∧ ks = .punctuation .openParen :: (ms ++ [.punctuation .closeParen])) s' := by
  refine requireMark_runs.bind fun _ s₁ hopen => ?_
  refine (H.gives .expression (hs.gives hopen)).bind fun n s₂ hn => ?_
  refine requireMark_runs.bind fun _ s₃ hclose => .pure ?_
  refine (hopen.and (hn.skip hclose)).mono ?_
  rintro _ ⟨_, rfl, _, ⟨ms, hms, _, rfl, rfl⟩, rfl⟩
  exact ⟨ms, hms, rfl⟩

theorem ifStatement_runs (H : Alike r bound i j) (hs : Room r (bound + 1) s)
    (hkind : s.kind = .keyword .ifKw) :
    Runs (ifStatement i) (ifStatement j) r s (Parses r .statement s) := by
  have hs₁ := hs.take hkind nofun
  refine .position (.step rfl ((condition_runs H hs₁).bind fun condition s₂ hcondition => ?_))
  have hs₂ := hs₁.gives hcondition
  refine (H.gives .statement hs₂).bind fun thenBranch s₃ hthen => ?_
  have hs₃ := hs₂.gives hthen
  refine .bind (optionally_accept_runs nofun fun helse =>
    H.gives .statement (hs₃.gives (.take helse nofun))) fun elseBranch s₄ helse => ?_
  refine finish_after_runs hkind nofun (hcondition.and (hthen.and helse)) rfl rfl ?_
  rintro id span _ ⟨_, ⟨_, hc, rfl⟩, _, ⟨_, ht, _, he, rfl⟩, rfl⟩
  simpa using Derives.ifStatement hc ht he

theorem whileStatement_runs (H : Alike r bound i j) (hs : Room r (bound + 1) s)
    (hkind : s.kind = .keyword .whileKw) :
    Runs (whileStatement i) (whileStatement j) r s (Parses r .statement s) := by
  have hs₁ := hs.take hkind nofun
  refine .position (.step rfl ((condition_runs H hs₁).bind fun condition s₂ hcondition => ?_))
  refine (H.gives .statement (hs₁.gives hcondition)).bind fun body s₃ hbody => ?_
  refine finish_after_runs hkind nofun (hcondition.and hbody) rfl rfl ?_
  rintro id span _ ⟨_, ⟨_, hc, rfl⟩, _, hb, rfl⟩
  simpa using Derives.whileStatement hc hb

theorem doStatement_runs (H : Alike r bound i j) (hs : Room r (bound + 1) s)
    (hkind : s.kind = .keyword .doKw) :
    Runs (doStatement i) (doStatement j) r s (Parses r .statement s) := by
  have hs₁ := hs.take hkind nofun
  refine .position (.step rfl ((H.gives .statement hs₁).bind fun body s₂ hbody => ?_))
  have hs₂ := hs₁.gives hbody
  refine .bind (optionally_require_runs nofun fun hwhile =>
    condition_runs H (hs₂.gives (.take hwhile nofun))) fun condition s₃ hcondition => ?_
  refine requireMark_runs.bind fun _ s₄ hmark => ?_
  refine finish_after_runs hkind nofun (hbody.and (hcondition.skip hmark)) rfl rfl ?_
  rintro id span _ ⟨_, hb, _, ⟨_, ⟨_, _, rfl, ⟨_, hc, rfl⟩, rfl⟩, _, rfl, rfl⟩, rfl⟩
  simpa using Derives.doStatement hb hc

theorem forStart_runs (H : Alike r bound i j) (hs : Room r bound s) :
    Runs (forStart i) (forStart j) r s fun o s' =>
      Gives r s o.toList (words (ForStart (Derives .declaration) (Derives .expression) o)) s' := by
  refine .accept (fun hmark => .pure ((Gives.mark hmark).mono ?_)) fun _ => ?_
  · rintro _ rfl
    exact .none
  refine startsDeclaration_runs.bind ?_
  rintro b _ ⟨rfl, -⟩
  refine .ite (fun _ => ?_) fun _ => ?_
  · refine (H.gives .declaration hs).bind fun n s₁ hn => .pure (hn.mono ?_)
    exact fun ks hks => .declaration hks
  · refine (H.gives .expression hs).bind fun n s₁ hn => ?_
    refine requireMark_runs.bind fun _ s₂ hmark => .pure ((hn.skip hmark).mono ?_)
    rintro _ ⟨_, hks, _, rfl, rfl⟩
    exact .expression hks

theorem forStatement_runs (H : Alike r bound i j) (hs : Room r (bound + 1) s)
    (hkind : s.kind = .keyword .forKw) :
    Runs (forStatement i) (forStatement j) r s (Parses r .statement s) := by
  have hs₁ := hs.take hkind nofun
  refine .position (.step rfl (requireMark_runs.bind fun _ s₂ hopen => ?_))
  have hs₂ := hs₁.gives hopen
  refine (forStart_runs H hs₂).bind fun start s₃ hstart => ?_
  have hs₃ := hs₂.gives hstart
  refine .bind (unlessAt_runs fun _ => H.gives .expression hs₃)
    fun condition s₄ ⟨hcondition, _⟩ => ?_
  refine requireMark_runs.bind fun _ s₅ hmark => ?_
  have hs₅ := (hs₃.gives hcondition).gives hmark
  refine .bind (unlessAt_runs fun _ => H.gives .expression hs₅) fun step s₆ ⟨hstep, _⟩ => ?_
  refine requireMark_runs.bind fun _ s₇ hclose => ?_
  have hs₇ := (hs₅.gives hstep).gives hclose
  refine (H.gives .statement hs₇).bind fun body s₈ hbody => ?_
  have hparts :=
    (((hopen.and hstart).and (hcondition.skip hmark)).and (hstep.skip hclose)).and hbody
  refine finish_after_runs hkind nofun hparts rfl rfl ?_
  rintro id span _
    ⟨_, ⟨_, ⟨_, ⟨_, rfl, _, hs, rfl⟩, _, ⟨_, hc, _, rfl, rfl⟩, rfl⟩, _, ⟨_, ht, _, rfl, rfl⟩,
      rfl⟩, _, hb, rfl⟩
  simpa using Derives.forStatement hs hc ht hb

theorem bindings_runs (H : Alike r bound i j) (hs : Room r bound s) :
    Runs (bindings i) (bindings j) r s fun ns s' =>
      Gives r s ns (words (Series (Derives .binding) ns)) s' :=
  H.series hs fun _ hs => (binding_runs H hs.weaken).mono fun _ _ hn => hn.gives

theorem foreachStatement_runs (H : Alike r bound i j) (hs : Room r (bound + 1) s)
    (hkind : s.kind = .keyword .foreachKw) :
    Runs (foreachStatement i) (foreachStatement j) r s (Parses r .statement s) := by
  have hs₁ := hs.take hkind nofun
  refine .position (.step rfl (requireMark_runs.bind fun _ s₂ hopen => ?_))
  have hs₂ := hs₁.gives hopen
  refine (bindings_runs H hs₂).bind fun bindings s₃ hbindings => ?_
  have hs₃ := hs₂.gives hbindings
  refine .bind (optionally_require_runs nofun fun hin =>
    H.gives .expression (hs₃.gives (.take hin nofun))) fun iterable s₄ hiterable => ?_
  refine requireMark_runs.bind fun _ s₅ hclose => ?_
  have hs₅ := (hs₃.gives hiterable).gives hclose
  refine (H.gives .statement hs₅).bind fun body s₆ hbody => ?_
  have hparts := ((hopen.and hbindings).and (hiterable.skip hclose)).and hbody
  refine finish_after_runs hkind nofun hparts rfl rfl ?_
  rintro id span _
    ⟨_, ⟨_, ⟨_, rfl, _, hv, rfl⟩, _, ⟨_, ⟨_, _, rfl, hi, rfl⟩, _, rfl, rfl⟩, rfl⟩, _, hb, rfl⟩
  simpa using Derives.foreachStatement hv hi hb

/-! ## Choices -/

theorem startsClause_iff {kind : TokenKind} :
    startsClause kind = true ↔ kind = .keyword .caseKw ∨ kind = .keyword .defaultKw := by
  unfold startsClause
  split <;> simp_all

theorem startsClause_ne_endOfFile {kind : TokenKind} (h : startsClause kind = true) :
    kind ≠ .endOfFile := by
  rintro rfl
  cases h

/-- The head of a clause, described by what it takes to complete the clause: a colon
and statements. -/
theorem clauseHead_runs (H : Alike r bound i j) (hs : Room r (bound + 1) s)
    (hkind : startsClause s.kind = true) :
    Runs (clauseHead i) (clauseHead j) r s fun head s' =>
      Gives r s.take (head.1.toList ++ head.2.toList) (words fun ls =>
        ∀ id span statements ks, Many (Derives .statement) statements ks →
          Derives .clause ⟨id, span, .caseClause head.1 head.2 statements⟩
            (s.kind :: (ls ++ .punctuation .colon :: ks))) s' := by
  refine .step rfl ?_
  rw [State.kind_current]
  refine .ite (fun hdefault => .pure ((Gives.nil _).mono ?_)) fun hcase => ?_
  · rintro _ rfl id span statements ks hks
    rw [beq_iff_eq.1 hdefault]
    exact .defaultClause hks
  replace hkind := (startsClause_iff.1 hkind).resolve_right (beq_eq_false_iff_ne.1 hcase)
  have hs₁ := hs.take hkind nofun
  refine .bind (H.gives .expression hs₁) fun label s₂ hlabel => ?_
  have hs₂ := hs₁.gives hlabel
  refine .bind (optionally_accept_runs nofun fun hdots =>
    H.gives .expression (hs₂.gives (.mark hdots))) fun rangeEnd s₃ hrange => ?_
  refine .pure ((hlabel.and hrange).mono ?_)
  rintro _ ⟨ls, hls, rs, hrs, rfl⟩ id span statements ks hks
  rw [hkind, List.append_assoc]
  exact .caseClause hls hrs hks

theorem caseClause_runs (H : Alike r bound i j) (hs : Room r (bound + 1) s)
    (hkind : startsClause s.kind = true) :
    Runs (caseClause i) (caseClause j) r s (Parses r .clause s) := by
  have hne := startsClause_ne_endOfFile hkind
  refine .position ((clauseHead_runs H hs hkind).bind fun head s₂ hhead => ?_)
  have hs₂ := (hs.take rfl hne).gives hhead
  refine requireMark_runs.bind fun _ s₃ hcolon => ?_
  refine (statementsUntil_runs H (hs₂.gives hcolon)).bind fun ns s₄ ⟨hns, _⟩ => ?_
  refine finish_after_runs rfl hne (hhead.and (hcolon.and hns.gives)) rfl rfl ?_
  rintro id span _ ⟨ls, hls, _, ⟨_, rfl, ks, hks, rfl⟩, rfl⟩
  exact hls id span ns ks hks

/-- The clauses of a `switch`. A statement among them is reported. -/
theorem clauses_runs (H : Alike r bound i j) (hs : Room r bound s) :
    Runs (clauses i) (clauses j) r s fun ns s' =>
      Gives r s ns (words (Many (Derives .clause) ns)) s' := by
  refine H.collect (fun s ns s' => Gives r s ns (words (Many (Derives .clause) ns)) s')
    (Nat.le_succ _) hs fun s hs => .currentKind ?_
  refine .ite (fun _ => .pure (.stop ?_)) fun hgo => .ite (fun hkind => ?_) fun _ => ?_
  · exact (Gives.nil s).mono fun ks hks => hks ▸ .nil
  · refine (caseClause_runs H hs.weaken hkind).bind fun n s₁ hn => ?_
    have hmoved := hn.moves (by rcases startsClause_iff.1 hkind with h | h <;> rw [h] <;> rfl)
    refine .pure (.again ⟨hn.later, hmoved, fun ns s₂ hns => (hn.gives.and hns).mono ?_⟩)
    rintro _ ⟨_, hks, _, hms, rfl⟩
    exact .cons hks hms
  · have hend : s.kind ≠ .endOfFile := beq_eq_false_iff_ne.1 (Bool.or_eq_false_iff.1 hgo).1
    have hreport := Gives.report (r := r) (L := 0) s "'case' or 'default' expected."
    have hs₁ := hs.gives hreport
    refine .step rfl (.position ((H.parses .statement hs₁).bind fun n s₂ hn => .position ?_))
    have hmoved := hn.moves (bne_iff_ne.2 hend)
    refine .ite (fun hstill => ?_) fun _ => .pure (.again ?_)
    · have hpos := hs₁.fits.position_lt hn.later hmoved
      exact absurd (beq_iff_eq.1 hstill) (Nat.ne_of_gt hpos)
    · refine ⟨hreport.later.trans hn.later, hmoved, fun ns s₃ hns => ?_⟩
      exact (hreport.and (hn.gives.and hns)).mono fun ks ⟨_, hnone, _⟩ => nomatch hnone

theorem switchStatement_runs (H : Alike r bound i j) (hs : Room r (bound + 1) s)
    (hkind : s.kind = .keyword .switchKw) :
    Runs (switchStatement i) (switchStatement j) r s (Parses r .statement s) := by
  have hs₁ := hs.take hkind nofun
  refine .position (.step rfl ((condition_runs H hs₁).bind fun subject s₂ hsubject => ?_))
  have hs₂ := hs₁.gives hsubject
  refine .bind (braced_runs fun hopen => clauses_runs H (hs₂.gives (.mark hopen)))
    fun clauses s₃ hclauses => ?_
  refine finish_after_runs hkind nofun (hsubject.and hclauses) rfl rfl ?_
  rintro id span _ ⟨_, ⟨_, hc, rfl⟩, _, ⟨_, rfl, _, ⟨_, hks, _, rfl, rfl⟩, rfl⟩, rfl⟩
  simpa using Derives.switchStatement hc hks

/-! ## Other statements -/

theorem catchBinding_runs (H : Alike r bound i j) (hs : Room r bound s) :
    Runs (catchBinding i) (catchBinding j) r s fun o s' =>
      Gives r s o.toList (words (Caught (Derives .binding) o)) s' := by
  refine .accept (fun hopen => ?_) fun _ => .pure ((Gives.nil s).mono fun ks hks => hks ▸ .none)
  have hmark := Gives.mark (r := r) hopen
  refine .bind (unlessAt_runs fun _ => (binding_runs H (hs.gives hmark).weaken).mono
    fun _ _ hn => hn.gives) fun o s₁ ⟨ho, _⟩ => ?_
  refine requireMark_runs.bind fun _ s₂ hclose => .pure ((hmark.and (ho.skip hclose)).mono ?_)
  rintro _ ⟨_, rfl, _, ⟨_, hks, _, rfl, rfl⟩, rfl⟩
  exact .parenthesized hks

theorem tryStatement_runs (H : Alike r bound i j) (hs : Room r (bound + 1) s)
    (hkind : s.kind = .keyword .tryKw) :
    Runs (tryStatement i) (tryStatement j) r s (Parses r .statement s) := by
  have hs₁ := hs.take hkind nofun
  refine .position (.step rfl ((requiredBlock_runs H hs₁.weaken).bind fun tryBlock s₂ htry => ?_))
  have hs₂ := hs₁.gives htry.gives
  refine .accept (fun hcatch => ?_) fun _ => ?_
  · have hword := Gives.take (r := r) hcatch nofun
    have hs₃ := hs₂.gives hword
    refine (catchBinding_runs H hs₃).bind fun o s₄ ho => ?_
    refine (requiredBlock_runs H (hs₃.gives ho).weaken).bind fun catchBlock s₅ hblock => ?_
    refine finish_after_runs hkind nofun (htry.gives.and (hword.and (ho.and hblock.gives)))
      rfl rfl ?_
    rintro id span _ ⟨_, ht, _, ⟨_, rfl, _, ⟨_, hb, _, hc, rfl⟩, rfl⟩, rfl⟩
    simpa using Derives.tryCatch ht hb hc
  · exact finish_after_runs hkind nofun htry.gives rfl rfl fun id span ks hks =>
      .tryStatement hks

theorem returnStatement_runs (H : Alike r bound i j) (hs : Room r (bound + 1) s)
    (hkind : s.kind = .keyword .returnKw) :
    Runs (returnStatement i) (returnStatement j) r s (Parses r .statement s) := by
  have hs₁ := hs.take hkind nofun
  refine .position (.step rfl (.bind (unlessAt_runs fun _ => H.gives .expression hs₁)
    fun value s₂ ⟨hvalue, _⟩ => ?_))
  refine requireMark_runs.bind fun _ s₃ hmark => ?_
  refine finish_after_runs hkind nofun (hvalue.skip hmark) rfl rfl ?_
  rintro id span _ ⟨_, hv, _, rfl, rfl⟩
  exact .returnStatement hv

theorem wordStatement_runs {word : Keyword} {payload : Payload Node}
    (hkind : s.kind = .keyword word) (hp : endsFreely payload.kind = true)
    (hc : payload.children = [])
    (hd : ∀ id span, Derives .statement ⟨id, span, payload⟩
      [.keyword word, .punctuation .semicolon]) :
    Runs (wordStatement payload) (wordStatement payload) r s (Parses r .statement s) := by
  refine .position (.step rfl (requireMark_runs.bind fun _ s₁ hmark => ?_))
  refine finish_after_runs hkind nofun (hc ▸ hmark) hp rfl ?_
  rintro id span _ rfl
  exact hd id span

theorem emptyStatement_runs (hkind : s.kind = .punctuation .semicolon) :
    Runs emptyStatement emptyStatement r s (Parses r .statement s) := by
  refine .position (.step rfl (finish_after_runs hkind nofun (.nil _) rfl rfl ?_))
  rintro id span _ rfl
  exact .empty

theorem plainStatement_runs (H : Alike r bound i j) (hs : Room r (bound + 1) s) :
    Runs (plainStatement i) (plainStatement j) r s (Parses r .statement s) := by
  refine .current (.ite (fun _ => wrong_runs) fun _ => startsDeclaration_runs.bind ?_)
  rintro b _ ⟨rfl, hb⟩
  refine .ite (fun hdeclares => ?_) fun _ => .ite (fun _ => wrong_runs) fun hstarts => ?_
  · refine (declaration_runs H hs).mono fun n s' hn => hn.mono (fun _ => .declaration) fun _ => ?_
    simp [mustMove, hb hdeclares]
  · rw [State.kind_current, Bool.not_eq_false'] at hstarts
    refine (expression_runs H hs).bind fun e s₁ he => ?_
    refine requireMark_runs.bind fun _ s₂ hmark => ?_
    refine finish_runs (he.gives.skip hmark) rfl (.inl (State.start_current _ _)) (fun _ => ?_) ?_
    · have hmoved := he.moves (by simp [mustMove, isClosing_of_startsExpression hstarts])
      exact Nat.lt_of_le_of_lt hmark.later.length_le hmoved
    · rintro id span _ ⟨_, hks, _, rfl, rfl⟩
      exact .expressionStatement hks

theorem statementBody_runs (H : Alike r bound i j) (hs : Room r (bound + 1) s) :
    Runs (statementBody i) (statementBody j) r s (Parses r .statement s) := by
  refine .currentKind ?_
  split
  · next hkind =>
    refine (block_runs H hs hkind).mono fun n s' hn => hn.mono (fun _ => .ofBlock) fun _ => ?_
    exact beq_iff_eq.2 hkind
  · next hkind => exact emptyStatement_runs hkind
  · next hkind => exact ifStatement_runs H hs hkind
  · next hkind => exact whileStatement_runs H hs hkind
  · next hkind => exact doStatement_runs H hs hkind
  · next hkind => exact forStatement_runs H hs hkind
  · next hkind => exact foreachStatement_runs H hs hkind
  · next hkind => exact switchStatement_runs H hs hkind
  · next hkind => exact tryStatement_runs H hs hkind
  · next hkind => exact returnStatement_runs H hs hkind
  · next hkind => exact wordStatement_runs hkind rfl rfl fun _ _ => .breakStatement
  · next hkind => exact wordStatement_runs hkind rfl rfl fun _ _ => .continueStatement
  · exact plainStatement_runs H hs

/-- **A statement is parsed**, and consumes a token where one is left. -/
theorem statement_runs (H : Alike r bound i j) (hs : Room r (bound + 1) s) :
    Runs (statement i) (statement j) r s (Parses r .statement s) :=
  nested_runs (statementBody_runs H hs.enter)

end ScriptLens.Parser
