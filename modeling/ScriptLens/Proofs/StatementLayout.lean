import ScriptLens.Proofs.DeclarationLayout

/-!
# Statements and texts are laid out

The statements, most of which have no keys, and from them whole texts: every node of
the tree of a text is laid out, and no way from the root comes by more blocks than
constructs may be nested (`run_formed`).

Two statements hold bindings, `foreach` and `try`. A binding may start with its name,
so it has to be known that a token stands before it.
-/

namespace ScriptLens.Parser

open Node

variable {r : Setting} {tokens : List Token} {bound depth limit : Nat} {s : State} {n : Node}
  {i : Inner}

/-- A statement that a word starts: what follows the word has room inside. -/
theorem word_formed {word : Keyword} {rest : Nat → Parse Node}
    (hs : Ground r tokens (bound + 1) depth s) (hkind : s.kind = .keyword word)
    (h : ∀ start, Keeps r tokens bound depth (rest start) (Formed tokens limit)) :
    Runs (do let start ← position; let _ ← advance; rest start)
      (do let start ← position; let _ ← advance; rest start) r s
      fun n _ => Formed tokens limit n :=
  .position (.step rfl ((h _).run (hs.take hkind nofun)))

/-! ## Conditions and loops -/

theorem condition_keeps (H : i.Lays r tokens bound) :
    Keeps r tokens bound depth (condition i) (Formed tokens (blocksAt depth)) :=
  .skip fun _ => H.expression.bind fun _ hn => .skip fun _ => .pure hn

theorem ifStatement_formed (H : i.Lays r tokens bound) (hs : Ground r tokens (bound + 1) depth s)
    (hd : depth ≤ nestingLimit) (hkind : s.kind = .keyword .ifKw) :
    Runs (ifStatement i) (ifStatement i) r s fun n _ => Formed tokens (blocksAt depth) n := by
  refine word_formed hs hkind fun _ => (condition_keeps H).bind fun _ hcondition => ?_
  refine (H.branch hd).bind fun _ hthen => (optionally_keeps (H.branch hd)).bind fun _ helse => ?_
  exact finish_keeps rfl nofun (forms_cons.2 ⟨hcondition, forms_cons.2 ⟨hthen, helse⟩⟩)

theorem whileStatement_formed (H : i.Lays r tokens bound)
    (hs : Ground r tokens (bound + 1) depth s) (hd : depth ≤ nestingLimit)
    (hkind : s.kind = .keyword .whileKw) :
    Runs (whileStatement i) (whileStatement i) r s fun n _ => Formed tokens (blocksAt depth) n := by
  refine word_formed hs hkind fun _ => (condition_keeps H).bind fun _ hcondition => ?_
  refine (H.branch hd).bind fun _ hbody => finish_keeps rfl nofun ?_
  exact forms_cons.2 ⟨hcondition, forms_cons.2 ⟨hbody, forms_nil⟩⟩

theorem doStatement_formed (H : i.Lays r tokens bound) (hs : Ground r tokens (bound + 1) depth s)
    (hd : depth ≤ nestingLimit) (hkind : s.kind = .keyword .doKw) :
    Runs (doStatement i) (doStatement i) r s fun n _ => Formed tokens (blocksAt depth) n := by
  refine word_formed hs hkind fun _ => (H.branch hd).bind fun _ hbody => ?_
  refine (optionally_keeps (condition_keeps H)).bind fun _ hcondition => .skip fun _ => ?_
  exact finish_keeps rfl nofun (forms_cons.2 ⟨hbody, hcondition⟩)

theorem forStart_keeps (H : i.Lays r tokens bound) (hd : depth ≤ nestingLimit) :
    Keeps r tokens bound depth (forStart i)
      fun o => Forms tokens (blocksAt depth) o.toList := by
  refine .skip fun _ => .ite (.pure (by simp)) (.skip fun _ => .ite ?_ ?_)
  · exact (H.declaration depth hd).bind fun _ hn => .pure (by simpa using hn)
  · exact H.expression.bind fun _ hn => .skip fun _ => .pure (by simpa using hn)

theorem forStatement_formed (H : i.Lays r tokens bound) (hs : Ground r tokens (bound + 1) depth s)
    (hd : depth ≤ nestingLimit) (hkind : s.kind = .keyword .forKw) :
    Runs (forStatement i) (forStatement i) r s fun n _ => Formed tokens (blocksAt depth) n := by
  refine word_formed hs hkind fun _ => .skip fun _ => (forStart_keeps H hd).bind fun _ hstart => ?_
  refine (unlessAt_keeps H.expression).bind fun _ hcondition => .skip fun _ => ?_
  refine (unlessAt_keeps H.expression).bind fun _ hstep => .skip fun _ => ?_
  refine (H.branch hd).bind fun _ hbody => finish_keeps rfl nofun ?_
  have hbody' : Forms tokens (blocksAt depth) [_] := forms_cons.2 ⟨hbody, forms_nil⟩
  exact forms_append.2 ⟨forms_append.2 ⟨forms_append.2 ⟨hstart, hcondition⟩, hstep⟩, hbody'⟩

/-! ## Statements with bindings -/

theorem bindings_keeps (limit : Nat) (H : i.Lays r tokens bound) :
    Keeps r tokens bound depth (bindings i)
      fun ns => ∀ n ∈ ns, Sound tokens limit n ∧ n.kind = .binding := by
  refine collect_keeps H.safe ?_
  refine .bind (P := fun n => Sound tokens limit n ∧ n.kind = .binding) (fun s hs => ?_)
    fun n hn => .skip fun _ => .pure (by simpa using hn)
  exact (binding_sound limit H hs.weaken).mono fun n s' h => ⟨h.1.later, h.2⟩

theorem foreachStatement_shape (H : i.Lays r tokens bound)
    (hs : Ground r tokens (bound + 1) depth s) (hd : depth ≤ nestingLimit)
    (hkind : s.kind = .keyword .foreachKw) :
    Runs (foreachStatement i) (foreachStatement i) r s fun n _ => ∃ bindings iterable body,
      n.payload = .foreachStatement bindings iterable body
        ∧ (∀ b ∈ bindings, Sound tokens (blocksAt depth) b ∧ b.kind = .binding
          ∧ s.position r < b.span.start)
        ∧ Forms tokens (blocksAt depth) (iterable.toList ++ [body]) := by
  have hs₁ := hs.take hkind nofun
  refine .position (.step rfl (requireMark_runs.bind fun _ s₂ hopen => ?_))
  have hs₂ := hs₁.later hopen.later
  refine ((bindings_runs H.alike hs₂.room).and (bindings_keeps (blocksAt depth) H _ hs₂)).bind ?_
  rintro bindings s₃ ⟨hgives, hlater, hbindings⟩
  have hs₃ := hs₂.later hlater
  have hbehind : ∀ b ∈ bindings, s.position r < b.span.start := by
    intro b hb
    refine Nat.lt_of_lt_of_le (hs.room.fits.position_lt_take hkind nofun) ?_
    exact Nat.le_trans (hs₁.room.fits.position_le hopen.later)
      (hgives.position_le_start hs₂.room.fits hb)
  refine (optionally_keeps H.expression _ hs₃).bind fun iterable s₄ ⟨hlater', hiterable⟩ => ?_
  have hs₄ := hs₃.later hlater'
  refine requireMark_runs.bind fun _ s₅ hclose => ?_
  refine (H.branch hd _ (hs₄.later hclose.later)).bind fun body s₆ ⟨_, hbody⟩ => ?_
  refine ⟨rfl, bindings, iterable, body, rfl, fun b hb => ?_, ?_⟩
  · exact ⟨(hbindings b hb).1, (hbindings b hb).2, hbehind b hb⟩
  · exact forms_append.2 ⟨hiterable, forms_cons.2 ⟨hbody, forms_nil⟩⟩

theorem foreachStatement_formed (H : i.Lays r tokens bound)
    (hs : Ground r tokens (bound + 1) depth s) (hd : depth ≤ nestingLimit)
    (hkind : s.kind = .keyword .foreachKw) :
    Runs (foreachStatement i) (foreachStatement i) r s
      fun n _ => Formed tokens (blocksAt depth) n := by
  refine ((foreachStatement_runs H.alike hs.room hkind).and
    (foreachStatement_shape H hs hd hkind)).mono ?_
  rintro ⟨id, span, payload⟩ s' ⟨hparses, bindings, iterable, body, heq, hbindings, hforms⟩
  obtain rfl : payload = .foreachStatement bindings iterable body := heq
  have hstart : span.start = s.position r := (hparses.completes.span hs.room.fits).start_eq
  refine .of_bindings rfl rfl (fun c hc => ?_) ?_
  · have hc' : c ∈ bindings ∨ c ∈ iterable.toList ++ [body] := by
      simpa [children, Payload.children, or_assoc] using hc
    rw [show Node.span ⟨id, span, _⟩ = span from rfl, hstart]
    exact hc'.imp (hbindings c) (hforms c)
  · rw [children, Payload.children, List.append_assoc, List.pairwise_append]
    refine ⟨?_, ?_, fun b hb _ _ _ => .inl (hbindings b hb).2.1⟩
    · exact List.pairwise_of_forall_mem_list fun b hb _ _ _ => .inl (hbindings b hb).2.1
    · exact List.pairwise_of_forall_mem_list fun _ _ c hc heq =>
        absurd heq (ne_binding_of_isFree (hforms c hc).isFree)

theorem unlessAt_shape {ends : TokenKind → Bool} {m : Parse Node} {Q : Node → State → Prop}
    (h : Runs m m r s Q) :
    Runs (unlessAt ends m) (unlessAt ends m) r s
      fun o s' => (o = none ∧ s' = s) ∨ ∃ n, o = some n ∧ Q n s' :=
  .currentKind (.ite (fun _ => .pure (.inl ⟨rfl, rfl⟩)) fun _ =>
    h.bind fun n _ hn => .pure (.inr ⟨n, rfl, hn⟩))

/-- The binding of a `catch` stands behind its parenthesis. -/
theorem catchBinding_shape (limit : Nat) (H : i.Lays r tokens bound)
    (hs : Ground r tokens bound depth s) :
    Runs (catchBinding i) (catchBinding i) r s fun o s' => Later s s' ∧ ∀ b ∈ o,
      Sound tokens limit b ∧ b.kind = .binding ∧ s.position r < b.span.start := by
  refine .accept (fun hopen => ?_) fun _ => .pure ⟨.refl s, nofun⟩
  have hmark := Gives.mark (r := r) hopen
  have hs₁ := hs.later hmark.later
  refine .bind (unlessAt_shape (binding_sound limit H hs₁.weaken)) ?_
  rintro o s₂ (⟨rfl, rfl⟩ | ⟨b, rfl, hparses, hsound, hkind⟩)
  · exact requireMark_runs.bind fun _ s₃ hclose => .pure ⟨hmark.later.trans hclose.later, nofun⟩
  · refine requireMark_runs.bind fun _ s₃ hclose => .pure
      ⟨hmark.later.trans (hparses.later.trans hclose.later), ?_⟩
    rintro _ ⟨⟩
    refine ⟨hsound, hkind, ?_⟩
    rw [(hparses.completes.span hs₁.room.fits).start_eq]
    exact hs.room.fits.position_lt_take hopen nofun

/-- The block of a `try` ends before the binding of its `catch`, since the word
`catch` stands between them. -/
theorem tryStatement_shape (H : i.Lays r tokens bound) (hs : Ground r tokens (bound + 1) depth s)
    (hd : depth ≤ nestingLimit) (hkind : s.kind = .keyword .tryKw) :
    Runs (tryStatement i) (tryStatement i) r s fun n _ => ∃ tryBlock binding catchBlock,
      n.payload = .tryStatement tryBlock binding catchBlock
        ∧ (∀ b ∈ binding, Sound tokens (blocksAt depth) b ∧ b.kind = .binding
          ∧ s.position r < b.span.start ∧ tryBlock.span.stop < b.span.start)
        ∧ Forms tokens (blocksAt depth) (tryBlock :: catchBlock.toList) := by
  have hs₁ := (hs.take hkind nofun).weaken
  refine .position (.step rfl (((requiredBlock_runs H.alike hs₁.room).and
    (requiredBlock_formed H hs₁ hd)).bind ?_))
  rintro tryBlock s₂ ⟨hparses, htry⟩
  have hs₂ := (hs.take hkind nofun).later hparses.later
  have hspan := hparses.completes.span hs₁.room.fits
  refine .accept (fun hcatch => ?_) fun _ =>
    ⟨rfl, tryBlock, none, none, rfl, nofun, by simpa using htry⟩
  have hs₃ := hs₂.later (Gives.take (r := r) hcatch nofun).later
  refine (catchBinding_shape (blocksAt depth) H hs₃).bind fun o s₄ ⟨hlater, ho⟩ => ?_
  refine (requiredBlock_formed H (hs₃.later hlater).weaken hd).bind fun catchBlock s₅ hblock => ?_
  refine ⟨rfl, tryBlock, o, some catchBlock, rfl, fun b hb => ?_, by simpa using ⟨htry, hblock⟩⟩
  obtain ⟨hsound, hbinding, hbehind⟩ := ho b hb
  have hword := hs₂.room.fits.position_lt_take hcatch nofun
  have htryStop := hspan.stop_le
  have htryStart := hspan.start_eq
  have hfirst := hs.room.fits.position_lt_take hkind nofun
  have hwidth := hspan.start_le_stop
  exact ⟨hsound, hbinding, by omega, by omega⟩

theorem tryStatement_formed (H : i.Lays r tokens bound) (hs : Ground r tokens (bound + 1) depth s)
    (hd : depth ≤ nestingLimit) (hkind : s.kind = .keyword .tryKw) :
    Runs (tryStatement i) (tryStatement i) r s fun n _ => Formed tokens (blocksAt depth) n := by
  refine ((tryStatement_runs H.alike hs.room hkind).and (tryStatement_shape H hs hd hkind)).mono ?_
  rintro ⟨id, span, payload⟩ s' ⟨hparses, tryBlock, binding, catchBlock, heq, hbinding, hforms⟩
  obtain rfl : payload = .tryStatement tryBlock binding catchBlock := heq
  have hstart : span.start = s.position r := (hparses.completes.span hs.room.fits).start_eq
  refine .of_bindings rfl rfl (fun c hc => ?_) ?_
  · have hc' : c = tryBlock ∨ c ∈ binding ∨ c ∈ catchBlock := by
      simpa [children, Payload.children] using hc
    rw [show Node.span ⟨id, span, _⟩ = span from rfl, hstart]
    rcases hc' with rfl | hc | hc
    · exact .inr (hforms _ List.mem_cons_self)
    · obtain ⟨hsound, hkind, hbehind, -⟩ := hbinding c hc
      exact .inl ⟨hsound, hkind, hbehind⟩
    · exact .inr (hforms c (List.mem_cons_of_mem _ (Option.mem_toList.2 hc)))
  · have hlast : ∀ c ∈ catchBlock.toList, c.kind ≠ .binding := fun c hc =>
      ne_binding_of_isFree (hforms c (List.mem_cons_of_mem _ hc)).isFree
    rw [children, Payload.children, List.cons_append, List.pairwise_cons, List.pairwise_append]
    refine ⟨fun c hc heq => .inr ?_, ?_, ?_, fun _ _ c hc heq => absurd heq (hlast c hc)⟩
    · rcases List.mem_append.1 hc with hc | hc
      · exact (hbinding c (Option.mem_toList.1 hc)).2.2.2
      · exact absurd heq (hlast c hc)
    · cases binding <;> simp
    · cases catchBlock <;> simp

/-! ## Choices -/

theorem caseClause_keeps (H : i.Lays r tokens bound) (hd : depth ≤ nestingLimit) :
    Keeps r tokens bound depth (caseClause i) (Formed tokens (blocksAt depth)) := by
  have hhead : Keeps r tokens bound depth (clauseHead i) fun head =>
      Forms tokens (blocksAt depth) (head.1.toList ++ head.2.toList) := by
    refine .skip fun _ => .ite (.pure (by simp)) (H.expression.bind fun _ hlabel => ?_)
    refine (optionally_keeps H.expression).bind fun _ hend => .pure ?_
    exact forms_append.2 ⟨by simpa using hlabel, hend⟩
  refine .skip fun _ => hhead.bind fun _ hparts => .skip fun _ => ?_
  refine (statementsUntil_keeps H hd).bind fun _ hns => finish_keeps rfl nofun ?_
  exact forms_append.2 ⟨hparts, hns.mono (blocksAt_succ_le depth)⟩

theorem clauses_keeps (H : i.Lays r tokens bound) (hd : depth ≤ nestingLimit) :
    Keeps r tokens bound depth (clauses i) (Forms tokens (blocksAt depth)) := by
  refine collect_keeps H.safe (.skip fun _ => .ite (.pure nofun) (.ite ?_ ?_))
  · exact (caseClause_keeps H hd).bind fun _ hn => .pure (by simpa using hn)
  · refine .skip fun _ => .skip fun _ => (H.branch hd).bind fun _ hn => .skip fun _ => .ite ?_ ?_
    · exact (standstill_keeps H.safe).bind fun _ hm => .pure (by simpa using ⟨hn, hm⟩)
    · exact .pure (by simpa using hn)

theorem switchStatement_formed (H : i.Lays r tokens bound)
    (hs : Ground r tokens (bound + 1) depth s) (hd : depth ≤ nestingLimit)
    (hkind : s.kind = .keyword .switchKw) :
    Runs (switchStatement i) (switchStatement i) r s
      fun n _ => Formed tokens (blocksAt depth) n := by
  have hclauses : Keeps r tokens bound depth (braced (clauses i))
      (Forms tokens (blocksAt depth)) :=
    .skip fun _ => .ite ((clauses_keeps H hd).bind fun _ hns => .skip fun _ => .pure hns)
      (.pure forms_nil)
  refine word_formed hs hkind fun _ => (condition_keeps H).bind fun _ hsubject => ?_
  refine hclauses.bind fun _ hns => finish_keeps rfl nofun (forms_cons.2 ⟨hsubject, hns⟩)

/-! ## Other statements -/

theorem returnStatement_formed (H : i.Lays r tokens bound)
    (hs : Ground r tokens (bound + 1) depth s) (hkind : s.kind = .keyword .returnKw) :
    Runs (returnStatement i) (returnStatement i) r s
      fun n _ => Formed tokens (blocksAt depth) n :=
  word_formed hs hkind fun _ => (unlessAt_keeps H.expression).bind fun _ hvalue => .skip fun _ =>
    finish_keeps rfl nofun hvalue

theorem wordStatement_quiet {payload : Payload Node} (hp : payload.kind.isSilent = true)
    (hc : payload.children = []) : Yields (wordStatement payload) Silent :=
  .skip fun _ => .skip fun _ => .skip fun _ => finish_quiet hp (by rw [hc]; exact quiet_nil)

theorem plainStatement_formed (H : i.Lays r tokens bound)
    (hs : Ground r tokens (bound + 1) depth s) (hd : depth ≤ nestingLimit) :
    Runs (plainStatement i) (plainStatement i) r s
      fun n _ => Formed tokens (blocksAt depth) n := by
  have hwrong : ∀ message, Runs (wrong message none) (wrong message none) r s
      fun n _ => Formed tokens (blocksAt depth) n :=
    fun _ => ⟨rfl, .of_silent (wrong_quiet r s)⟩
  refine .current (.ite (fun _ => hwrong _) fun _ => startsDeclaration_runs.bind ?_)
  rintro b _ ⟨rfl, -⟩
  refine .ite (fun _ => declaration_formed H hs hd) fun _ => .ite (fun _ => hwrong _) fun _ => ?_
  refine ((expression_runs H.alike hs.room).yields (expression_quiet H.quiet)).bind ?_
  rintro e s₁ ⟨-, hsilent⟩
  refine requireMark_runs.bind fun _ s₂ _ => ⟨rfl, .of_silent (silent_iff.2 ⟨rfl, ?_⟩)⟩
  exact quiet_cons.2 ⟨hsilent, quiet_nil⟩

theorem statementBody_formed (H : i.Lays r tokens bound)
    (hs : Ground r tokens (bound + 1) depth s) (hd : depth ≤ nestingLimit) :
    Runs (statementBody i) (statementBody i) r s
      fun n _ => Formed tokens (blocksAt depth) n := by
  refine .currentKind ?_
  split
  · next hkind => exact block_formed H hs hd hkind
  · have hempty : Yields emptyStatement Silent :=
      .skip fun _ => .skip fun _ => finish_quiet rfl quiet_nil
    exact ⟨rfl, .of_silent (hempty r s)⟩
  · next hkind => exact ifStatement_formed H hs hd hkind
  · next hkind => exact whileStatement_formed H hs hd hkind
  · next hkind => exact doStatement_formed H hs hd hkind
  · next hkind => exact forStatement_formed H hs hd hkind
  · next hkind => exact foreachStatement_formed H hs hd hkind
  · next hkind => exact switchStatement_formed H hs hd hkind
  · next hkind => exact tryStatement_formed H hs hd hkind
  · next hkind => exact returnStatement_formed H hs hkind
  · exact ⟨rfl, .of_silent (wordStatement_quiet rfl rfl r s)⟩
  · exact ⟨rfl, .of_silent (wordStatement_quiet rfl rfl r s)⟩
  · exact plainStatement_formed H hs hd

/-- **A statement is laid out.** It is one level further in than its place, or too
deep and then no block. -/
theorem statement_keeps (H : i.Lays r tokens bound) :
    Keeps r tokens (bound + 1) depth (statement i) (Formed tokens (blocksAt (depth + 1))) := by
  intro s hs
  have hformed : Runs (statement i) (statement i) r s
      fun n _ => Formed tokens (blocksAt (depth + 1)) n := by
    refine .get (.ite_prop (fun _ => ⟨rfl, .of_silent (wrong_quiet r s)⟩) fun hdepth => ?_)
    rw [hs.depth_eq] at hdepth
    have hbody := statementBody_formed H hs.enter (Nat.not_le.1 hdepth)
    exact .step rfl (hbody.bind fun n s₁ hn => .step rfl (.pure hn))
  exact ((statement_runs H.alike hs.room).and hformed).mono fun n s' h => ⟨h.1.later, h.2⟩

theorem declaration_keeps (H : i.Lays r tokens bound) (hd : depth ≤ nestingLimit) :
    Keeps r tokens (bound + 1) depth (declaration i) (Formed tokens (blocksAt depth)) :=
  fun _ hs => ((declaration_runs H.alike hs.room).and (declaration_formed H hs hd)).mono
    fun _ _ h => ⟨h.1.later, h.2⟩

/-- **What parses the constructs of a text lays them out**, while fewer tokens are left
than its bound allows. -/
theorem lays_ofBound (bound : Nat) :
    ∀ k, bound ≤ k → (Inner.ofBound .standard k).Lays r tokens bound := by
  induction bound with
  | zero =>
    intro k hk
    refine ⟨alike_ofBound _ _ 0 k k hk hk, quiet_ofBound k, rfl, ?_, ?_⟩
    all_goals exact fun _ _ s hs => absurd hs.room.lt (Nat.not_lt_zero _)
  | succ bound ih =>
    rintro (_ | k) hk
    · cases hk
    have H := ih k (Nat.le_of_succ_le_succ hk)
    refine ⟨alike_ofBound _ _ _ _ _ hk hk, quiet_ofBound (k + 1), rfl, ?_, ?_⟩
    · exact fun depth _ => statement_keeps H
    · exact fun depth hd => declaration_keeps H hd

/-! ## Texts -/

theorem includeDirective_yields :
    Yields (includeDirective i) (Formed tokens limit) := by
  have hfinish : ∀ {start : Nat} {path : Node} {system : Bool}, path.Silent →
      Yields (finish start (.includeDirective path system)) (Formed tokens limit) := by
    intro start path system hpath r s
    have hquiet : Quiet [path] := quiet_cons.2 ⟨hpath, quiet_nil⟩
    exact .of_plain rfl (.of_quiet hquiet) fun _ => hquiet
  refine .skip fun _ => .skip fun _ => .skip fun _ => ?_
  split
  · exact stringLiterals_quiet.bind fun _ hpath => hfinish hpath
  · exact systemIncludePath_quiet.bind fun _ hpath => hfinish hpath
  · exact missingOrWrong_quiet.bind fun _ hpath => hfinish hpath

theorem inheritDirective_yields :
    Yields (inheritDirective i) (Formed tokens limit) := by
  refine .skip fun _ => .skip fun _ => inheritPath_quiet.bind fun path hpath => .skip fun _ => ?_
  have hquiet : Quiet [path] := quiet_cons.2 ⟨hpath, quiet_nil⟩
  exact fun r s => .of_plain rfl (.of_quiet hquiet) fun _ => hquiet

theorem topLevelElement_keeps (H : i.Lays r tokens bound) :
    Keeps r tokens (bound + 1) 0 (topLevelElement i) (Formed tokens nestingLimit) := by
  intro s hs
  have hformed : Runs (topLevelElement i) (topLevelElement i) r s
      fun n _ => Formed tokens nestingLimit n := by
    refine .currentKind ?_
    split
    · exact ⟨rfl, includeDirective_yields r s⟩
    · exact ⟨rfl, inheritDirective_yields r s⟩
    · exact (statement_keeps H).run hs
  exact ((topLevelElement_runs H.alike hs.room).and hformed).mono fun n s' h => ⟨h.1.later, h.2⟩

theorem topLevelElements_keeps (H : i.Lays r tokens bound) :
    Keeps r tokens (bound + 1) 0 (topLevelElements i) (Forms tokens nestingLimit) := by
  refine collect_keeps H.safe (.skip fun _ => .ite (.pure nofun) (.skip fun _ => ?_))
  refine (topLevelElement_keeps H).bind fun _ hn => .skip fun _ => .skip fun _ => .ite ?_ ?_
  · exact (standstill_keeps H.safe).bind fun _ hm => .pure (by simpa using ⟨hn, hm⟩)
  · exact .pure (by simpa using hn)

/-- **Every text is laid out**, and its blocks are inside each other no more deeply than
constructs may be nested. -/
theorem run_formed (fileName : String) (text : List Char) :
    Formed (tokensOf text) nestingLimit (run .standard fileName text).1 := by
  have H : (Inner.ofBound .standard (tokensOf text).length).Lays (.ofText text) (tokensOf text)
      (tokensOf text).length := lays_ofBound _ _ (Nat.le_refl _)
  have hground : Ground (.ofText text) (tokensOf text) ((tokensOf text).length + 1) 0
      (.ofTokens (tokensOf text)) :=
    ⟨tokensOf_inOrder text, .ofTokens _, room_ofTokens text, rfl⟩
  have hforms := ((topLevelElements_keeps H).run hground).2
  exact .of_plain rfl hforms nofun

end ScriptLens.Parser
