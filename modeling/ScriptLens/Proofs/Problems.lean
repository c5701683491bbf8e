import ScriptLens.Proofs.Coverage
import ScriptLens.Service.Diagnostic

/-!
# Problems and placeholders

A node that is a placeholder and the problem it stands for are written down apart, the
one in the tree and the other in a list that every construct adds to. This module says
that the two agree. Read in the order in which nodes are completed, the placeholders
are the problems of the list, but for some that cover nothing: those are tokens that
were asked for and are absent, for which there is no node (`Mirrors`).

The list is also in source order as it is found. The reason is stronger than the order:
what a run reports lies between the positions at which it begins and ends, and no
problem starts before the one before it ends (`Reports`). So problems at the same
offset can differ in length only if the shorter ones, which cover nothing, come first,
and sorting by offset and length changes nothing.
-/

namespace ScriptLens

/-- The offset just past what a problem covers. -/
def ParseDiagnostic.stop (d : ParseDiagnostic) : Nat := d.start + d.length

/-- The problem that a placeholder stands for. -/
def Node.problem? (n : Node) : Option ParseDiagnostic :=
  match n.payload with
  | .missing message _ | .wrong message _ => some ⟨n.span.start, n.span.length, message⟩
  | _ => none

theorem Node.problem?_eq_none {n : Node} (h : n.kind.isSentinel = false) : n.problem? = none := by
  unfold problem?
  split
  · next heq => rw [kind, heq] at h; cases h
  · next heq => rw [kind, heq] at h; cases h
  · rfl

/-- **Problems that placeholders account for**: the first list is part of the second,
and the others in the second cover nothing. -/
inductive Mirrors : List ParseDiagnostic → List ParseDiagnostic → Prop
  | nil : Mirrors [] []
  /-- A problem with a placeholder. -/
  | placeholder (d : ParseDiagnostic) {known found : List ParseDiagnostic} :
    Mirrors known found → Mirrors (d :: known) (d :: found)
  /-- A problem without one. -/
  | token {d : ParseDiagnostic} {known found : List ParseDiagnostic} :
    d.length = 0 → Mirrors known found → Mirrors known (d :: found)

namespace Mirrors

theorem append {known found known' found' : List ParseDiagnostic} (h : Mirrors known found)
    (h' : Mirrors known' found') : Mirrors (known ++ known') (found ++ found') := by
  induction h with
  | nil => exact h'
  | placeholder d _ ih => exact .placeholder d ih
  | token hd _ ih => exact .token hd ih

theorem sublist {known found : List ParseDiagnostic} (h : Mirrors known found) :
    known.Sublist found := by
  induction h with
  | nil => exact .slnil
  | placeholder d _ ih => exact ih.cons_cons d
  | token _ _ ih => exact ih.cons _

end Mirrors

/-- **Where a placeholder stands**: over nothing, or over one of the given tokens. -/
def Node.Stands (tokens : List Token) (n : Node) : Prop :=
  (n.kind = .missing → n.span.start = n.span.stop)
    ∧ (n.kind = .wrong → ∃ t ∈ tokens, n.span = t.span)

theorem Node.Stands.of_kind {tokens : List Token} {n : Node} (h : n.kind.isSentinel = false) :
    n.Stands tokens := by
  constructor
  · intro hkind
    rw [hkind] at h
    cases h
  · intro hkind
    rw [hkind] at h
    cases h

theorem Node.Stands.mono {tokens tokens' : List Token} {n : Node}
    (hsub : ∀ t ∈ tokens, t ∈ tokens') (h : n.Stands tokens) : n.Stands tokens' := by
  refine ⟨h.1, fun hkind => ?_⟩
  obtain ⟨t, ht, hspan⟩ := h.2 hkind
  exact ⟨t, hsub t ht, hspan⟩

/-- Of tokens in order, a span of one of them covers no other. -/
theorem Token.InOrder.filter_covers {lower upper : Nat} {tokens : List Token} {t : Token}
    (h : Token.InOrder lower tokens upper) (ht : t ∈ tokens) :
    tokens.filter (t.span.covers ·.span) = [t] := by
  induction tokens generalizing lower with
  | nil => cases ht
  | cons u tokens ih =>
    obtain ⟨-, hlt, -, hrest⟩ := h
    rcases List.mem_cons.1 ht with rfl | ht
    · have hself : t.span.covers t.span = true :=
        Parser.covers_iff.2 ⟨Nat.le_refl _, Nat.le_refl _⟩
      have hothers : ∀ u ∈ tokens, ¬ t.span.covers u.span = true := by
        intro u hu
        have hu := hrest.mem hu
        rw [Parser.covers_iff]
        omega
      rw [List.filter_cons_of_pos (p := fun u : Token => t.span.covers u.span) hself,
        List.filter_eq_nil_iff.2 hothers]
    · have hbehind := hrest.mem ht
      have hnot : ¬ t.span.covers u.span = true := by
        rw [Parser.covers_iff]
        omega
      rw [List.filter_cons_of_neg (p := fun u : Token => t.span.covers u.span) hnot, ih hrest ht]

namespace Parser

/-! ## What a run reports -/

variable {r : Setting}

/-- **What a run from `s` to `s'` found** while it completed the nodes `nodes`. -/
structure Reports (r : Setting) (s : State) (nodes : List Node) (s' : State)
    (found : List ParseDiagnostic) : Prop where
  /-- It comes behind what was found before. -/
  diagnostics_eq : s'.diagnostics.toList = s.diagnostics.toList ++ found
  mirrors : Mirrors (nodes.filterMap Node.problem?) found
  /-- It lies between the two ends of the run. -/
  bounds : ∀ d ∈ found, s.position r ≤ d.start ∧ d.stop ≤ s'.position r
  /-- No problem starts before the one before it ends. -/
  apart : found.Pairwise fun d e => d.stop ≤ e.start
  stands : ∀ n ∈ nodes, n.Stands s.upcoming

namespace Reports

variable {s s₁ s' : State} {nodes nodes' : List Node} {found found' : List ParseDiagnostic}

theorem nil (s : State) : Reports r s [] s [] :=
  ⟨(List.append_nil _).symm, .nil, nofun, .nil, nofun⟩

/-- One run after another. -/
theorem trans (h : Reports r s nodes s₁ found) (h' : Reports r s₁ nodes' s' found')
    (hs : s.Fits r) (hl : Later s s₁) (hl' : Later s₁ s') :
    Reports r s (nodes ++ nodes') s' (found ++ found') := by
  have hle := hs.position_le hl
  have hle' := (hl.fits hs).position_le hl'
  refine ⟨?_, ?_, ?_, ?_, ?_⟩
  · rw [h'.diagnostics_eq, h.diagnostics_eq, List.append_assoc]
  · rw [List.filterMap_append]
    exact h.mirrors.append h'.mirrors
  · intro d hd
    rcases List.mem_append.1 hd with hd | hd
    · exact ⟨(h.bounds d hd).1, Nat.le_trans (h.bounds d hd).2 hle'⟩
    · exact ⟨Nat.le_trans hle (h'.bounds d hd).1, (h'.bounds d hd).2⟩
  · refine List.pairwise_append.2 ⟨h.apart, h'.apart, fun d hd e he => ?_⟩
    exact Nat.le_trans (h.bounds d hd).2 (h'.bounds e he).1
  · obtain ⟨ts, hup, -⟩ := hl.consumed
    refine List.forall_mem_append.2 ⟨h.stands, fun n hn => (h'.stands n hn).mono fun t ht => ?_⟩
    rw [hup]
    exact List.mem_append_right _ ht

/-- A node that is no placeholder adds nothing. -/
theorem complete {n : Node} (h : Reports r s (n.children.flatMap Node.postorder) s' found)
    (hn : n.kind.isSentinel = false) : Reports r s n.postorder s'.count found := by
  have hproblems : n.postorder.filterMap Node.problem?
      = (n.children.flatMap Node.postorder).filterMap Node.problem? := by
    rw [Node.postorder_eq, List.filterMap_append, List.filterMap_cons_none (n.problem?_eq_none hn)]
    exact List.append_nil _
  refine ⟨h.diagnostics_eq, hproblems ▸ h.mirrors, h.bounds, h.apart, ?_⟩
  rw [Node.postorder_eq]
  exact List.forall_mem_append.2 ⟨h.stands, List.forall_mem_singleton.2 (.of_kind hn)⟩

theorem take (s : State) : Reports r s [] s.take [] := by
  refine ⟨?_, .nil, nofun, .nil, nofun⟩
  rw [State.take, List.append_nil]
  split <;> rfl

/-- A token is absent where the run is. -/
theorem absent (s : State) (message : String) :
    Reports r s [] (s.note ⟨s.position r, 0, message⟩) [⟨s.position r, 0, message⟩] := by
  refine ⟨Array.toList_push, .token rfl .nil, ?_, List.pairwise_singleton _ _, nofun⟩
  exact List.forall_mem_singleton.2 ⟨Nat.le_refl _, Nat.le_refl _⟩

/-- A placeholder is completed, and its problem is found with it. -/
theorem placeholder {n : Node} {d : ParseDiagnostic} (hleaf : n.children = [])
    (hproblem : n.problem? = some d) (hnote : s'.diagnostics = s.diagnostics.push d)
    (hstart : s.position r ≤ d.start) (hstop : d.stop ≤ s'.position r)
    (hstands : n.Stands s.upcoming) : Reports r s n.postorder s' [d] := by
  have hnodes : n.postorder = [n] := by
    rw [Node.postorder_eq, hleaf]
    rfl
  rw [hnodes]
  refine ⟨?_, ?_, List.forall_mem_singleton.2 ⟨hstart, hstop⟩, List.pairwise_singleton _ _,
    List.forall_mem_singleton.2 hstands⟩
  · rw [hnote, Array.toList_push]
  · rw [List.filterMap_cons_some hproblem]
    exact .placeholder d .nil

end Reports

mutual

/-- **Placeholders and problems go together** along a run, and problems are found in
source order. -/
theorem Passes.reports {s s' : State} {ns : List Node} :
    Passes r s ns s' → s.Fits r → ∃ found, Reports r s (ns.flatMap Node.postorder) s' found
  | .nil s, _ => ⟨[], .nil s⟩
  | @Passes.take _ s _ _ hne hp, hs => by
    have hl := Later.take s hne
    obtain ⟨found, h⟩ := hp.reports (hl.fits hs)
    exact ⟨found, (Reports.take s).trans h hs hl hp.later⟩
  | .report message hp, hs => by
    obtain ⟨found, h⟩ := hp.reports hs
    exact ⟨_, (Reports.absent _ message).trans h hs (.note _ _) hp.later⟩
  | .child hc hp, hs => by
    obtain ⟨found, h⟩ := hc.reports hs
    obtain ⟨found', h'⟩ := hp.reports (hc.later.fits hs)
    exact ⟨found ++ found', h.trans h' hs hc.later hp.later⟩

theorem Completes.reports {s s' : State} {n : Node} :
    Completes r s n s' → s.Fits r → ∃ found, Reports r s n.postorder s' found
  | .missing message _, _ => by
    refine ⟨_, .placeholder rfl ?_ rfl (Nat.le_refl _) (Nat.le_refl _) ⟨fun _ => rfl, nofun⟩⟩
    rw [Node.problem?, Span.length_emptyAt]
    rfl
  | @Completes.wrong _ s t ts message _ hup, hs => by
    have hfits := (Later.take s (by rw [hup]; exact List.cons_ne_nil _ _)).fits hs
    have hend : s.take.previousEnd = t.span.stop := by rw [State.take_eq hup]
    have hmem : t ∈ s.upcoming := by rw [hup]; exact List.mem_cons_self
    have hlt := (Token.InOrder.mem hs hmem).2.1
    refine ⟨_, .placeholder (d := ⟨t.span.start, t.span.length, message⟩) rfl rfl ?_ ?_ ?_
      ⟨nofun, fun _ => ⟨t, hmem, rfl⟩⟩⟩
    · rw [State.take_eq hup]
      rfl
    · exact hs.position_le_start hmem
    · show t.span.start + (t.span.stop - t.span.start) ≤ s.take.position r
      rw [Nat.add_sub_cancel' (Nat.le_of_lt hlt), ← hend]
      exact hfits.previousEnd_le
  | .finish hkind _ _ hp _, hs => by
    obtain ⟨found, h⟩ := hp.reports hs
    exact ⟨found, h.complete hkind⟩
  | .openBlock hp _, hs => by
    obtain ⟨found, h⟩ := hp.reports hs
    exact ⟨found, h.complete rfl⟩
  | .nested _ hc, hs => by
    obtain ⟨found, h⟩ := hc.reports hs
    exact ⟨found, h.diagnostics_eq, h.mirrors, h.bounds, h.apart, h.stands⟩

end

/-- What is found in a whole text lies inside it. -/
theorem ParsesSource.reports {s s' : State} {fileName : String} {root : Node}
    (h : ParsesSource r fileName s root s') (hs : s.Fits r) :
    ∃ found, Reports r s root.postorder s' found ∧ ∀ d ∈ found, d.stop ≤ r.length := by
  cases h with
  | mk hns _ =>
    obtain ⟨found, h⟩ := hns.gives.passes.reports hs
    have hend := (hns.later.fits hs).position_le_length
    exact ⟨found, h.complete rfl, fun d hd => Nat.le_trans (h.bounds d hd).2 hend⟩

end Parser

theorem LocatedDiagnostic.precedes_iff {d e : LocatedDiagnostic} :
    d.precedes e = true ↔ d.start < e.start ∨ d.start = e.start ∧ d.length ≤ e.length := by
  simp [precedes]

/-- **Problems mirror the placeholders of a tree and are found in source order.** The
placeholders in the order of their nodes are among the problems, and the others cover
nothing. What is missing covers nothing, and what is wrong is exactly one token. No
problem reaches beyond the text. The problems come by offset and then by length, so
they are listed in the order in which they were found. -/
theorem SourceTree.parse_diagnostics_mirror (fileName : String) (text : List Char) :
    let t := SourceTree.parse fileName text
    let a := Analysis.ofText fileName text
    (t.nodes.filterMap Node.problem?).Sublist t.diagnostics
      ∧ Mirrors (t.nodes.filterMap Node.problem?) t.diagnostics
      ∧ (∀ n ∈ t.nodes, n.kind = .missing → n.span.start = n.span.stop)
      ∧ (∀ n ∈ t.nodes, n.kind = .wrong → ∃ token,
        (Parser.tokensOf text).filter (n.span.covers ·.span) = [token] ∧ n.span = token.span)
      ∧ (∀ d ∈ t.diagnostics, d.start + d.length ≤ Text.byteLength text)
      ∧ t.diagnostics.Pairwise (fun d e =>
        d.start < e.start ∨ d.start = e.start ∧ d.length ≤ e.length)
      ∧ a.diagnostics = t.diagnostics.map a.locate := by
  intro t a
  have hfits := (Parser.room_ofTokens text).fits
  obtain ⟨-, hparses⟩ := Parser.run_parses .standard .standard fileName text
  obtain ⟨found, h, hinside⟩ := hparses.reports hfits
  have hfound : t.diagnostics = found := h.diagnostics_eq
  have hsorted : t.diagnostics.Pairwise fun d e =>
      d.start < e.start ∨ d.start = e.start ∧ d.length ≤ e.length := by
    rw [hfound]
    refine h.apart.imp fun {d e} hle => ?_
    unfold ParseDiagnostic.stop at hle
    omega
  refine ⟨hfound ▸ h.mirrors.sublist, hfound ▸ h.mirrors, fun n hn => (h.stands n hn).1,
    fun n hn hkind => ?_, hfound ▸ hinside, hsorted, ?_⟩
  · obtain ⟨token, htoken, hspan⟩ := (h.stands n hn).2 hkind
    rw [hspan]
    exact ⟨token, (Parser.tokensOf_inOrder text).filter_covers htoken, rfl⟩
  · refine List.mergeSort_of_pairwise (List.pairwise_map.2 (hsorted.imp fun hle => ?_))
    exact LocatedDiagnostic.precedes_iff.2 hle

end ScriptLens
