import ScriptLens.Proofs.SourceRuns

/-!
# Acceptance

A text without problems is a sentence of the grammar, and its tree is the derivation
(`SourceTree.parse_derives`). Most of the work is done construct by construct: each
was compared with its rule where it was finished. What is left is to put the
constructs at the top level together.

That no placeholder is in such a tree needs no rule of the grammar. A placeholder
never comes without a report, so a run that reports nothing completes none
(`Completes.isSentinel_eq_false`).
-/

namespace ScriptLens

namespace Parser

open Grammar

variable {r : Setting} {s s' : State}

mutual

/-- **Where nothing is reported, no placeholder is left.** -/
theorem Passes.isSentinel_eq_false {s s' : State} {ns : List Node} :
    Passes r s ns s' → s'.reports ≤ s.reports →
      ∀ n ∈ ns, ∀ m ∈ n.postorder, m.kind.isSentinel = false
  | .nil _, _ => nofun
  | .take _ hp, hquiet => hp.isSentinel_eq_false (by simpa using hquiet)
  | .report _ hp, hquiet => by
    -- the report is still there at the end
    have hlater := hp.later.reports
    rw [State.reports_note] at hlater
    exact absurd hquiet (by omega)
  | .child hc hp, hquiet => by
    have hhead := hc.isSentinel_eq_false (Nat.le_trans hp.later.reports hquiet)
    have htail := hp.isSentinel_eq_false (Nat.le_trans hquiet hc.later.reports)
    exact List.forall_mem_cons.2 ⟨hhead, htail⟩

theorem Completes.isSentinel_eq_false {s s' : State} {n : Node} :
    Completes r s n s' → s'.reports ≤ s.reports →
      ∀ m ∈ n.postorder, m.kind.isSentinel = false
  | .missing message _, hquiet => by
    have hlt : s.reports < (s.note ⟨s.position r, 0, message⟩).reports := by simp
    exact absurd hquiet (Nat.not_le.2 hlt)
  | @Completes.wrong _ s t ts message _ _, hquiet => by
    have hlt : s.reports < (s.take.note ⟨t.span.start, t.span.length, message⟩).reports := by
      simp
    exact absurd hquiet (Nat.not_le.2 hlt)
  | .finish hp _ _ hpasses _, hquiet =>
    Node.forall_mem_postorder.2 ⟨hpasses.isSentinel_eq_false hquiet, hp⟩
  | .openBlock hpasses _, hquiet =>
    Node.forall_mem_postorder.2 ⟨hpasses.isSentinel_eq_false hquiet, rfl⟩
  | .nested _ hc, hquiet => hc.isSentinel_eq_false hquiet

end

/-- A whole text that is parsed without a report. -/
theorem ParsesSource.derives {fileName : String} {root : Node}
    (h : ParsesSource r fileName s root s') (hs : s.Fits r) (hquiet : s'.reports ≤ s.reports) :
    Derives .source root s.kinds ∧ ∀ n ∈ root.postorder, n.kind.isSentinel = false := by
  cases h with
  | @mk ns s₁ hns hend =>
    obtain ⟨ks, hks, heq⟩ := hns.gives.spells hquiet
    have hnone : s₁.kinds = [] := by
      rw [State.kinds, (hns.later.fits hs).upcoming_eq_nil hend]
      rfl
    rw [hnone, List.append_nil] at heq
    rw [heq]
    refine ⟨.source hks, Node.forall_mem_postorder.2 ⟨?_, rfl⟩⟩
    exact hns.gives.passes.isSentinel_eq_false hquiet

end Parser

/-- **Acceptance is sound.** If a text is parsed without a problem, the kinds of its
tokens are a sentence of the grammar with the tree as its derivation, and no node of
the tree is a placeholder. -/
theorem SourceTree.parse_derives (fileName : String) (text : List Char)
    (h : (SourceTree.parse fileName text).diagnostics = []) :
    Grammar.Derives .source (SourceTree.parse fileName text).root
        ((Parser.tokensOf text).map Token.kind)
      ∧ ∀ n ∈ (SourceTree.parse fileName text).nodes, n.kind.isSentinel = false := by
  obtain ⟨-, hparses⟩ := Parser.run_parses .standard .standard fileName text
  refine hparses.derives (Parser.room_ofTokens text).fits ?_
  have hsize : (Parser.run .standard fileName text).2.diagnostics.size = 0 := by
    rw [← Array.length_toList, List.length_eq_zero_iff]
    exact h
  exact Nat.le_of_eq hsize

/-- A function with a cast, a range and operators of three levels after a path of two
strings. -/
theorem SourceTree.parse_derives_function :
    let text := "inherit \"/std\" \"/room\"; " ++
      "int f(int x, ...) \x7b return (int) x[1..] + 2 * 3 < 4; \x7d"
    Grammar.Derives .source (SourceTree.parse "room" text.toList).root
        ((Parser.tokensOf text.toList).map Token.kind)
      ∧ ∀ n ∈ (SourceTree.parse "room" text.toList).nodes, n.kind.isSentinel = false :=
  SourceTree.parse_derives "room" _ (by decide +kernel)

end ScriptLens
