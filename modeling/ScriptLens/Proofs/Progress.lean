import ScriptLens.Proofs.SourceRuns

/-!
# Progress

The parser moves on at every token, whatever the text. A statement and a construct
at the top level consume a token at least, from any place in the text and at any
depth. So a repetition of them never stands still, and no bound on a repetition or
on the recursion is ever met.

What the parser would do otherwise is the `Safeguard` it is given. That none of it
is ever done is said by quantifying over it: any two safeguards, even one that
reports a problem each time and one that does nothing, lead to the same tree, the
same problems and the same final state. The bounds are quantified over in the same
way.
-/

namespace ScriptLens.Parser

/-- **Further on in a text**: at a place in it that is behind at least one token which
was upcoming before. -/
structure Ahead (text : List Char) (s s' : State) : Prop where
  at_place : s'.At (tokensOf text)
  consumed : s'.upcoming.length < s.upcoming.length
  position_lt : s.position (.ofText text) < s'.position (.ofText text)

/-- A construct that has to consume a token at some place in a text does so, for any
two safeguards and bounds in the same way. -/
theorem construct_ahead {P : Grammar.Phrase} {construct : Inner → Parse Node}
    {text : List Char} {s : State} {g g' : Safeguard} {bound bound' : Nat}
    (hruns : ∀ i j, Alike (.ofText text) s.upcoming.length i j →
      Runs (construct i) (construct j) (.ofText text) s (Parses (.ofText text) P s))
    (hP : mustMove P s.kind = true) (hat : s.At (tokensOf text))
    (hbound : s.upcoming.length ≤ bound) (hbound' : s.upcoming.length ≤ bound') :
    exec (construct (.ofBound g bound)) (.ofText text) s
        = exec (construct (.ofBound g' bound')) (.ofText text) s
      ∧ Ahead text s (exec (construct (.ofBound g bound)) (.ofText text) s).2 := by
  obtain ⟨heq, hparses⟩ := hruns _ _ (alike_ofBound g g' _ bound bound' hbound hbound')
  have hmoved := hparses.moves hP
  refine ⟨heq, hat.later hparses.later, hmoved, ?_⟩
  exact (hat.fits (tokensOf_inOrder text)).position_lt hparses.later hmoved

/-- **The parser always makes progress.** From any place in a text at which a token is
left, at any depth, a statement and a construct at the top level consume at least
one token, and the position moves ahead. The outcome of these and of the whole
parse depends neither on the bounds, as long as they allow for the tokens that are
left, nor on what is done where a bound is met or a statement consumed nothing. -/
theorem parse_progresses (fileName : String) (text : List Char) :
    (∀ (s : State) (g g' : Safeguard) (bound bound' : Nat), s.At (tokensOf text) →
      s.kind ≠ .endOfFile → s.upcoming.length ≤ bound → s.upcoming.length ≤ bound' →
      ∀ construct ∈ [statement, topLevelElement],
        exec (construct (.ofBound g bound)) (.ofText text) s
            = exec (construct (.ofBound g' bound')) (.ofText text) s
          ∧ Ahead text s (exec (construct (.ofBound g bound)) (.ofText text) s).2)
      ∧ ∀ (g : Safeguard) (bound : Nat), (tokensOf text).length ≤ bound →
        exec (sourceFile (.ofBound g bound) fileName) (.ofText text) (.ofTokens (tokensOf text))
          = run .standard fileName text := by
  constructor
  · intro s g g' bound bound' hat hkind hbound hbound' construct hconstruct
    have hs : Room (.ofText text) (s.upcoming.length + 1) s :=
      ⟨hat.fits (tokensOf_inOrder text), Nat.lt_succ_self _⟩
    simp only [List.mem_cons, List.not_mem_nil, or_false] at hconstruct
    rcases hconstruct with rfl | rfl
    · exact construct_ahead (fun i j H => statement_runs H hs) (bne_iff_ne.2 hkind) hat hbound
        hbound'
    · exact construct_ahead (fun i j H => topLevelElement_runs H hs) (bne_iff_ne.2 hkind) hat
        hbound hbound'
  · intro g bound hbound
    have H := alike_ofBound (r := .ofText text) g .standard _ bound _ hbound (Nat.le_refl _)
    exact (sourceFile_runs H (room_ofTokens text)).1

/-- The statement after a condition, two tokens before the end and one level in. -/
theorem statement_ahead_after_condition :
    Ahead "if (x) y;".toList
      ⟨(tokensOf "if (x) y;".toList).drop 4, 6, #[], 1, 1⟩
      (exec (statement (.ofBound .standard 2)) (.ofText "if (x) y;".toList)
        ⟨(tokensOf "if (x) y;".toList).drop 4, 6, #[], 1, 1⟩).2 := by
  refine ((parse_progresses "branch" "if (x) y;".toList).1 _ _ .standard 2 2 ?_ ?_ ?_ ?_ statement
    (by simp)).2
  · exact ⟨(tokensOf "if (x) y;".toList).take 4, (List.take_append_drop _ _).symm,
      by decide +kernel⟩
  · decide +kernel
  · decide +kernel
  · decide +kernel

end ScriptLens.Parser
