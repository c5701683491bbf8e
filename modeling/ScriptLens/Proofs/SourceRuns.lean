import ScriptLens.Proofs.StatementRuns

/-!
# Runs over a whole text

Directives, the recursion through constructs, and the text as a whole. The
recursion is where the bound is used up: a construct is given a bound that exceeds
the number of tokens left, consumes a token before it asks for a construct inside
it, and gives that one a bound that is smaller by one (`alike_ofBound`). Two bounds
and two safeguards therefore lead to the same outcome, as long as neither bound is
too small.

`sourceFile_runs` is what all else is read off: the top level of a text is a
sequence of constructs, each of which consumes a token, up to the end of the text.
-/

namespace ScriptLens.Parser

open Grammar

variable {r : Setting} {bound : Nat} {s : State} {i j : Inner}

/-! ## Directives -/

theorem skipIncludePath_runs {lineEnd : Nat} (H : Alike r bound i j) (hs : Room r bound s) :
    Runs (skipIncludePath i lineEnd) (skipIncludePath j lineEnd) r s fun _ s' =>
      Gives r s [] (words fun ks => ∀ k ∈ ks, k ≠ .punctuation .greater) s' := by
  refine H.iterate
    (fun _ s₁ => Gives r s [] (words fun ks => ∀ k ∈ ks, k ≠ .punctuation .greater) s₁) _
    (Nat.le_succ _) hs ((Gives.nil s).mono ?_) fun _ s₁ _ hI => ?_
  · rintro _ rfl k hk
    cases hk
  refine .step rfl (.step rfl (.position (.ite (fun _ => .pure (.stop hI)) ?_)))
  intro hgo
  obtain ⟨hgreater, hend⟩ := Bool.or_eq_false_iff.1 (Bool.or_eq_false_iff.1 hgo).1
  have hne : s₁.kind ≠ .endOfFile := beq_eq_false_iff_ne.1 hend
  have htake := Gives.take (r := r) rfl hne
  have hshort := State.length_take rfl hne
  refine .step rfl (.pure (.again ⟨htake.later, hshort, (hI.and htake).mono ?_⟩))
  rintro _ ⟨ks, hks, _, rfl, rfl⟩ k hk
  rcases List.mem_append.1 hk with hk | hk
  · exact hks k hk
  · rw [List.mem_singleton.1 hk]
    exact beq_eq_false_iff_ne.1 hgreater

theorem includePathEnd_runs {pathStart : Nat} :
    Runs (includePathEnd pathStart) (includePathEnd pathStart) r s fun _ s' =>
      Gives r s [] {[.punctuation .greater]} s' := by
  refine .position (.accept (fun hmark => .pure (.mark hmark)) fun _ => ?_)
  exact .step rfl (.get (.pure (.report s _)))

theorem systemIncludePath_runs (H : Alike r bound i j) (hs : Room r (bound + 1) s)
    (hkind : s.kind = .punctuation .less) :
    Runs (systemIncludePath i) (systemIncludePath j) r s (Parses r .includePath s) := by
  have hs₁ := hs.take hkind nofun
  refine .step rfl (.read ((skipIncludePath_runs H hs₁).bind fun _ s₂ hraw => ?_))
  refine includePathEnd_runs.bind fun pathEnd s₃ hclose => ?_
  refine finish_after_runs hkind nofun (hraw.and hclose) rfl (State.start_current r s) ?_
  rintro id span _ ⟨raw, hraw, _, rfl, rfl⟩
  exact .includePath hraw

theorem includeDirective_runs (H : Alike r bound i j) (hs : Room r (bound + 1) s)
    (hkind : s.kind = .keyword .includeKw) :
    Runs (includeDirective i) (includeDirective j) r s (Parses r .element s) := by
  have hs₁ := (hs.take hkind nofun).weaken
  refine .position (.step rfl (.currentKind ?_))
  split
  · next hstring =>
    refine (stringLiterals_runs H hs₁ hstring).bind fun path s₂ hpath => ?_
    exact finish_after_runs hkind nofun hpath.gives rfl rfl fun _ _ _ hks => .includeQuoted hks
  · next hless =>
    refine (systemIncludePath_runs H hs₁ hless).bind fun path s₂ hpath => ?_
    exact finish_after_runs hkind nofun hpath.gives rfl rfl fun _ _ _ hks => .includeAngled hks
  · refine (missingOrWrong_runs (P := .strings) rfl).bind fun path s₂ hpath => ?_
    exact finish_after_runs hkind nofun hpath.gives rfl rfl fun _ _ _ hks => .includeQuoted hks

theorem inheritPath_runs (H : Alike r bound i j) (hs : Room r (bound + 1) s) :
    Runs (inheritPath i) (inheritPath j) r s (Parses r .strings s) :=
  .sees (fun hstring => stringLiterals_runs H hs hstring) fun _ => missingOrWrong_runs rfl

theorem inheritDirective_runs (H : Alike r bound i j) (hs : Room r (bound + 1) s)
    (hkind : s.kind = .keyword .inheritKw) :
    Runs (inheritDirective i) (inheritDirective j) r s (Parses r .element s) := by
  have hs₁ := (hs.take hkind nofun).weaken
  refine .position (.step rfl ((inheritPath_runs H hs₁).bind fun path s₂ hpath => ?_))
  refine requireMark_runs.bind fun _ s₃ hmark => ?_
  refine finish_after_runs hkind nofun (hpath.gives.skip hmark) rfl rfl ?_
  rintro id span _ ⟨_, hks, _, rfl, rfl⟩
  exact .inherit hks

/-! ## The recursion -/

/-- A goal of the recursion is parsed with one more token left than the constructs
inside it may have. -/
theorem step_runs (H : Alike r bound i j) (hs : Room r (bound + 1) s) (goal : Goal) :
    Runs (i.step goal) (j.step goal) r s (goal.Done r s) := by
  cases goal with
  | expression => exact (expression_runs H hs).mono fun _ _ hn => ⟨hn, nofun, nofun⟩
  | binary level =>
    refine (binary_runs H hs level).mono fun _ _ hn => ⟨hn.1, fun level' heq => ?_, nofun⟩
    obtain rfl := Goal.binary.inj heq
    exact hn.2
  | unary => exact (unary_runs H hs).mono fun _ _ hn => ⟨hn, nofun, nofun⟩
  | type =>
    exact ((type_runs H hs).yields type_fills).mono fun _ _ hn => ⟨hn.1, nofun, fun _ => hn.2⟩
  | statement => exact (statement_runs H hs).mono fun _ _ hn => ⟨hn, nofun, nofun⟩
  | declaration => exact (declaration_runs H hs).mono fun _ _ hn => ⟨hn, nofun, nofun⟩

/-- **Bounds and safeguards are of no consequence** while fewer tokens are left than
the bounds allow. -/
theorem alike_ofBound (g g' : Safeguard) (bound : Nat) :
    ∀ k k', bound ≤ k → bound ≤ k' → Alike r bound (.ofBound g k) (.ofBound g' k') := by
  induction bound with
  | zero =>
    intro k k' hk hk'
    exact ⟨hk, hk', fun _ _ hs => absurd hs.lt (Nat.not_lt_zero _)⟩
  | succ bound ih =>
    rintro (_ | k) (_ | k') hk hk'
    · cases hk
    · cases hk
    · cases hk'
    -- what parses a construct with one more token left is made of `ofBound g k` and
    -- `ofBound g' k'`, which the induction hypothesis compares
    have H := ih k k' (Nat.le_of_succ_le_succ hk) (Nat.le_of_succ_le_succ hk')
    exact ⟨hk, hk', fun goal s hs => step_runs H hs goal⟩

/-! ## The text -/

/-- **What stands at the top level is parsed**, and consumes a token. -/
theorem topLevelElement_runs (H : Alike r bound i j) (hs : Room r (bound + 1) s) :
    Runs (topLevelElement i) (topLevelElement j) r s (Parses r .element s) := by
  refine .currentKind ?_
  split
  · next hkind => exact includeDirective_runs H hs hkind
  · next hkind => exact inheritDirective_runs H hs hkind
  · exact (statement_runs H hs).mono fun n s' hn => hn.mono (fun _ => .element) id

theorem topLevelElements_runs (H : Alike r bound i j) (hs : Room r (bound + 1) s) :
    Runs (topLevelElements i) (topLevelElements j) r s fun ns s' =>
      ParsesEach r .element s ns s' ∧ s'.kind = .endOfFile := by
  refine H.collect (fun s ns s' => ParsesEach r .element s ns s' ∧ s'.kind = .endOfFile)
    (Nat.le_refl _) hs fun s hs => ?_
  refine .sees (fun hend => .pure (.stop ⟨.nil s, hend⟩)) fun hend => .position ?_
  refine (topLevelElement_runs H hs).bind fun n s₁ hn => ?_
  have hmoved := hn.moves (bne_iff_ne.2 hend)
  refine .position (.step rfl (.ite (fun hstill => ?_) fun _ => .pure (.again ?_)))
  · have hpos := hs.fits.position_lt hn.later hmoved
    exact absurd (beq_iff_eq.1 (Bool.and_eq_true_iff.1 hstill).1) (Nat.ne_of_gt hpos)
  · exact ⟨hn.later, hmoved, fun ns s₂ ⟨hns, hlast⟩ => ⟨.cons hn hmoved hns, hlast⟩⟩

/-- **A whole text is parsed**: constructs one after the other, up to its end. -/
inductive ParsesSource (r : Setting) (fileName : String) (s : State) : Node → State → Prop
  | mk {ns : List Node} {s' : State} :
    ParsesEach r .element s ns s' → s'.kind = .endOfFile →
      ParsesSource r fileName s ⟨s'.nodeCount, ⟨0, r.length⟩, .sourceFile fileName ns⟩ s'.count

theorem sourceFile_runs {fileName : String} (H : Alike r bound i j) (hs : Room r (bound + 1) s) :
    Runs (sourceFile i fileName) (sourceFile j fileName) r s (ParsesSource r fileName s) := by
  refine (topLevelElements_runs H hs).bind fun ns s₁ ⟨hns, hend⟩ => .read ?_
  exact ⟨rfl, .mk hns hend⟩

theorem room_ofTokens (text : List Char) :
    Room (.ofText text) ((tokensOf text).length + 1) (.ofTokens (tokensOf text)) :=
  ⟨tokensOf_inOrder text, Nat.lt_succ_self _⟩

/-- **Every text is parsed**, under any safeguard in the same way. -/
theorem run_parses (g g' : Safeguard) (fileName : String) (text : List Char) :
    run g fileName text = run g' fileName text
      ∧ ParsesSource (.ofText text) fileName (.ofTokens (tokensOf text))
        (run g fileName text).1 (run g fileName text).2 :=
  sourceFile_runs (alike_ofBound g g' _ _ _ (Nat.le_refl _) (Nat.le_refl _)) (room_ofTokens text)

end ScriptLens.Parser
