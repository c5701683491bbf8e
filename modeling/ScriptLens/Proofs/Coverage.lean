import ScriptLens.Proofs.SourceRuns

/-!
# Trees cover their texts

Two things about spans hold for every text, however malformed it is. Every node
lies around its parts, which follow one another without overlap
(`SourceTree.parse_wellNested`). And the constructs at the top level share out the
tokens: each token lies in exactly one of them, and each of them has a first token,
the one at which it starts (`Parser.run_covers_tokens`).

The second rests on a construct ending no earlier than the last token it consumed
and no later than the next token: a token that it consumed lies inside it, and a
token before or after is not empty and so sticks out.
-/

namespace ScriptLens

/-! ## Nodes around their parts -/

/-- No node of a well nested tree ends behind its root. -/
theorem Node.WellNested.stop_le {n : Node} (h : n.WellNested) :
    ∀ m ∈ n.postorder, m.span.stop ≤ n.span.stop := by
  induction n using Node.childInduction with
  | step n ih =>
    obtain ⟨hchildren, hself⟩ := forall_mem_postorder.1 h
    refine forall_mem_postorder.2 ⟨fun c hc m hm => ?_, Nat.le_refl _⟩
    exact Nat.le_trans (ih c hc (hchildren c hc) m hm) (hself.covers c hc).2

namespace Parser

open Grammar

variable {r : Setting} {s s₁ s' : State} {n root : Node} {ns : List Node} {t : Token}
  {P : Phrase} {tokens : List Token}

theorem ParsesSource.span_eq {fileName : String} (h : ParsesSource r fileName s root s') :
    root.span = ⟨0, r.length⟩ := by
  cases h
  rfl

/-- The tree of a whole text is well nested. -/
theorem ParsesSource.wellNested {fileName : String} (h : ParsesSource r fileName s root s')
    (hs : s.Fits r) : root.WellNested := by
  obtain ⟨hns, -⟩ := h
  rename_i ns s₁
  obtain ⟨hin, hall⟩ := hns.gives.passes.inOrder hs
  refine .of_children ⟨Nat.zero_le _, fun c hc => ⟨Nat.zero_le _, ?_⟩, hin.isChain⟩ hall
  exact Nat.le_trans (hin.mem hc).2.2 (hns.later.fits hs).position_le_length

/-! ## Tokens and the constructs around them -/

theorem covers_iff {a b : Span} : a.covers b = true ↔ a.start ≤ b.start ∧ b.stop ≤ a.stop := by
  simp [Span.covers]

/-- A construct covers the tokens that it consumed. -/
theorem Completes.covers (h : Completes r s n s₁) (hs : s.Fits r) {ts : List Token}
    (hup : s.upcoming = ts ++ s₁.upcoming) (ht : t ∈ ts) : n.span.covers t.span = true := by
  obtain ⟨ts', hup', hend⟩ := h.later.consumed
  obtain rfl : ts = ts' := List.append_cancel_right (hup.symm.trans hup')
  have hspan := h.span hs
  have hstart := hs.position_le_start (by rw [hup]; exact List.mem_append_left _ ht)
  unfold State.Fits at hs
  rw [hup] at hs
  have hstop := (hs.append_left.mem ht).2.2
  rw [covers_iff, hspan.start_eq]
  exact ⟨hstart, Nat.le_trans (hend ▸ hstop) hspan.previousEnd_le⟩

/-- A construct does not cover the tokens after it. -/
theorem Completes.covers_eq_false (h : Completes r s n s₁) (hs : s.Fits r)
    (ht : t ∈ s₁.upcoming) : n.span.covers t.span = false := by
  have hs₁ := h.later.fits hs
  have hstart := hs₁.position_le_start ht
  have hpos := (Token.InOrder.mem hs₁ ht).2.1
  have hstop := (h.span hs).stop_le
  rw [Bool.eq_false_iff, Ne, covers_iff]
  omega

/-- Nodes that start behind a token do not cover it. -/
theorem covers_eq_false_of_lt (h : t.span.start < n.span.start) :
    n.span.covers t.span = false := by
  rw [Bool.eq_false_iff, Ne, covers_iff]
  omega

namespace ParsesEach

theorem position_le_start (h : ParsesEach r P s ns s') (hs : s.Fits r) (hn : n ∈ ns) :
    s.position r ≤ n.span.start :=
  ((h.gives.passes.inOrder hs).1.mem hn).1

/-- **Each token that was consumed lies in exactly one of the constructs.** -/
theorem countP_covers (h : ParsesEach r P s ns s') (hs : s.Fits r) {ts : List Token}
    (hup : s.upcoming = ts ++ s'.upcoming) (ht : t ∈ ts) :
    ns.countP (·.span.covers t.span) = 1 := by
  induction h generalizing ts with
  | nil s =>
    obtain rfl : ts = [] := List.append_cancel_right (by rw [← hup]; rfl)
    cases ht
  | @cons s s₁ s' n ns hn hlt hrest ih =>
    obtain ⟨ts₁, hup₁, hend₁⟩ := hn.later.consumed
    obtain ⟨ts₂, hup₂, -⟩ := hrest.later.consumed
    have hs₁ := hn.later.fits hs
    obtain rfl : ts = ts₁ ++ ts₂ := by
      refine List.append_cancel_right (hup.symm.trans ?_)
      rw [hup₁, hup₂, List.append_assoc]
    rcases List.mem_append.1 ht with ht | ht
    · -- the token is one of the first construct, and the others start behind it
      have hfirst := hn.completes.covers hs hup₁ ht
      have hothers : ∀ m ∈ ns, m.span.covers t.span = false := by
        intro m hm
        refine covers_eq_false_of_lt ?_
        have hin := hs
        unfold State.Fits at hin
        rw [hup₁] at hin
        have htoken := hin.append_left.mem ht
        have hstart := hrest.position_le_start hs₁ hm
        have hle := hs₁.previousEnd_le
        omega
      have hzero : ns.countP (·.span.covers t.span) = 0 :=
        List.countP_eq_zero.2 (by simpa using hothers)
      rw [List.countP_cons, hzero, if_pos hfirst]
    · -- the token is left to the other constructs, and the first one ends before it
      have hmem : t ∈ s₁.upcoming := by rw [hup₂]; exact List.mem_append_left _ ht
      have hfirst := hn.completes.covers_eq_false hs hmem
      rw [List.countP_cons, ih hs₁ hup₂ ht, if_neg (by simp [hfirst])]

/-- Each construct starts behind the start of the one before it. -/
theorem pairwise_start (h : ParsesEach r P s ns s') (hs : s.Fits r) :
    ns.Pairwise fun n m => n.span.start < m.span.start := by
  induction h with
  | nil s => exact .nil
  | cons hn hlt hrest ih =>
    have hs₁ := hn.later.fits hs
    refine .cons (fun m hm => ?_) (ih hs₁)
    rw [(hn.completes.span hs).start_eq]
    exact Nat.lt_of_lt_of_le (hs.position_lt hn.later hlt) (hrest.position_le_start hs₁ hm)

/-- **Each construct starts at the first token it covers.** -/
theorem find?_covers (h : ParsesEach r P s ns s') (hat : s.At tokens)
    (hin : Token.InOrder 0 tokens r.length) (hn : n ∈ ns) :
    ∃ t, tokens.find? (n.span.covers ·.span) = some t ∧ t.span.start = n.span.start := by
  induction h with
  | nil s => cases hn
  | @cons s s₁ s' m ns hm hlt hrest ih =>
    rcases List.mem_cons.1 hn with rfl | hn
    · have hs := hat.fits hin
      obtain ⟨past, heq, hend⟩ := hat
      obtain ⟨ts, hup, -⟩ := hm.later.consumed
      cases ts with
      | nil =>
        rw [hup] at hlt
        exact absurd hlt (Nat.lt_irrefl _)
      | cons t ts =>
        have hstart := (hm.completes.span hs).start_eq
        -- what is consumed already ends before the construct starts
        have hpast : past.find? (n.span.covers ·.span) = none := by
          refine List.find?_eq_none.2 fun u hu => ?_
          rw [heq] at hin
          have hbefore := hin.append_left.mem hu
          have hle := hs.previousEnd_le
          rw [covers_eq_false_of_lt (by omega)]
          nofun
        refine ⟨t, ?_, ?_⟩
        · have hcovers := hm.completes.covers hs hup List.mem_cons_self
          rw [heq, List.find?_append, hpast, hup, Option.none_or]
          exact List.find?_cons_of_pos (p := fun u : Token => n.span.covers u.span) hcovers
        · rw [hstart, State.position, hup]
          rfl
    · exact ih (hat.later hm.later) hn

end ParsesEach

/-- The first token of a text that a node covers. -/
def firstToken? (text : List Char) (n : Node) : Option Token :=
  (tokensOf text).find? (n.span.covers ·.span)

/-- **No token is lost.** A text is parsed up to its end and back to depth zero,
and the tree covers all of it. Each token but the end of the text lies in exactly
one construct at the top level; each of these constructs covers a token, and their
first tokens follow one another. -/
theorem run_covers_tokens (fileName : String) (text : List Char) :
    let (root, final) := run .standard fileName text
    final.kind = .endOfFile ∧ final.upcoming = [] ∧ final.depth = 0
      ∧ root.span = ⟨0, Text.byteLength text⟩
      ∧ (∀ t ∈ Token.scan text false, t.isEnd = false →
        root.fileStatements.countP (·.span.covers t.span) = 1)
      ∧ (∀ n ∈ root.fileStatements, (firstToken? text n).isSome = true)
      ∧ root.fileStatements.Pairwise fun n m =>
        ∀ t ∈ firstToken? text n, ∀ u ∈ firstToken? text m, t.span.start < u.span.start := by
  have hs := (room_ofTokens text).fits
  have hat := State.At.ofTokens (tokensOf text)
  have hin := tokensOf_inOrder text
  obtain ⟨-, hparses⟩ := run_parses .standard .standard fileName text
  generalize run .standard fileName text = result at hparses
  obtain ⟨root, final⟩ := result
  cases hparses with
  | @mk ns final hns hend =>
    have hup := (hns.later.fits hs).upcoming_eq_nil hend
    have hfirst := fun n hn => hns.find?_covers (n := n) hat hin hn
    refine ⟨hend, hup, hns.later.depth, rfl, fun t ht hnot => ?_, fun n hn => ?_, ?_⟩
    · have hmem : t ∈ tokensOf text := List.mem_filter.2 ⟨ht, by rw [hnot]; rfl⟩
      exact hns.countP_covers hs (by rw [hup, List.append_nil]; rfl) hmem
    · obtain ⟨t, ht, -⟩ := hfirst n hn
      rw [firstToken?, ht]
      rfl
    · refine (hns.pairwise_start hs).imp_of_mem fun hn hm hlt t ht u hu => ?_
      obtain ⟨t', ht', hstart⟩ := hfirst _ hn
      obtain ⟨u', hu', hstart'⟩ := hfirst _ hm
      obtain rfl : t' = t := Option.some.inj (ht'.symm.trans ht)
      obtain rfl : u' = u := Option.some.inj (hu'.symm.trans hu)
      rwa [hstart, hstart']

end Parser

/-- **Nodes contain their parts, which come in order.** Every node of the tree of a
text lies inside the text and around its children, and each child ends before the
next one starts. -/
theorem SourceTree.parse_wellNested (fileName : String) (text : List Char) :
    ∀ n ∈ (SourceTree.parse fileName text).nodes,
      n.span.start ≤ n.span.stop ∧ n.span.stop ≤ Text.byteLength text
        ∧ (∀ c ∈ n.children, n.span.start ≤ c.span.start ∧ c.span.stop ≤ n.span.stop)
        ∧ n.children.IsChain fun c c' => c.span.stop ≤ c'.span.start := by
  intro n hn
  obtain ⟨-, hparses⟩ := Parser.run_parses .standard .standard fileName text
  have hwell := hparses.wellNested (Parser.room_ofTokens text).fits
  have hspan := hparses.span_eq
  obtain ⟨hle, hcovers, hchain⟩ := hwell n hn
  refine ⟨hle, ?_, hcovers, hchain⟩
  have hstop := hwell.stop_le n hn
  rwa [hspan] at hstop

/-- The tree of a text in which a parenthesis and a block are never closed. -/
theorem SourceTree.parse_wellNested_unclosed :
    let text := "if (x \x7b y + ;".toList
    let root := (SourceTree.parse "open" text).root
    root.span.start ≤ root.span.stop ∧ root.span.stop ≤ Text.byteLength text
      ∧ (∀ c ∈ root.children, root.span.start ≤ c.span.start ∧ c.span.stop ≤ root.span.stop)
      ∧ root.children.IsChain fun c c' => c.span.stop ≤ c'.span.start :=
  SourceTree.parse_wellNested "open" _ _ (Node.forall_mem_postorder.1 fun _ hm => hm).2

end ScriptLens
