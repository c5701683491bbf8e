import Mathlib
import ScriptLens.Proofs.CompletedNodes
import ScriptLens.Proofs.ScopeEntries
import ScriptLens.Proofs.Visibility

/-!
# Blocks that are still open

While a text is typed, the blocks around the place of typing have no closing brace yet,
and what they define has to be visible there all the same. That place is the end of the
text, and a span does not contain its own end; a scope that ends with the text is taken to
be open still. So it matters that the blocks that are open, and the functions around them,
do end there.

A block ends with its brace or with the text (`SourceTree.parse_blocksEnd`); this is a
matter of how a run completes a block, whatever is around or inside it. So the scope of a
block without a brace reaches up to the end of the text, where it counts as open, and what
it defines stands before that end and is found (`open_block_reaches_end`).
-/

namespace ScriptLens

open Node ScopeTree

namespace Parser

variable {r : Setting} {tokens tokens' : List Token}

/-! ## How blocks end -/

theorem EndsWithBrace.mono {n : Node} (h : EndsWithBrace tokens n) (hle : tokens ⊆ tokens') :
    EndsWithBrace tokens' n := by
  obtain ⟨t, ht, hrest⟩ := h
  exact ⟨t, hle ht, hrest⟩

instance (tokens : List Token) (n : Node) : Decidable (EndsWithBrace tokens n) :=
  inferInstanceAs (Decidable (∃ t ∈ tokens, _))

/-- **How a block ends**: with its brace or, at a given length, with the text. -/
def BlockEnds (tokens : List Token) (length : Nat) (n : Node) : Prop :=
  n.kind = .block → EndsWithBrace tokens n ∨ n.span.stop = length

/-- **A block is completed with its brace or at the end of the text.** -/
theorem completedWith_blockEnds (hin : Token.InOrder 0 tokens r.length) :
    CompletedWith r tokens (BlockEnds tokens r.length) where
  missing _ _ _ _ hkind := by cases hkind
  wrong _ _ _ _ hkind := by cases hkind
  finish hat _ _ hout _ _ hkind := .inl ((hout.brace hkind).mono hat.upcoming_subset)
  openBlock {_ s' _} hat hp hup _ := by
    have hpos : s'.position r = r.length := by rw [State.position, hup]
    have hfits := hat.fits hin
    have hle := stop_spanOver_le_position hfits hp.later (.inl rfl) (hp.inOrder hfits).1
    exact .inr (Nat.max_eq_right (hpos ▸ hle))

end Parser

/-- **Every block of a text ends with its brace or with the text.** -/
theorem SourceTree.parse_blocksEnd (fileName : String) (text : List Char) :
    ∀ n ∈ (SourceTree.parse fileName text).nodes, n.kind = .block →
      Parser.EndsWithBrace (Parser.tokensOf text) n ∨ n.span.stop = Text.byteLength text := by
  have hends := Parser.completedWith_blockEnds (r := .ofText text) (Parser.tokensOf_inOrder text)
  refine SourceTree.forall_nodes hends fun n statements hn hkind => ?_
  rw [Node.kind, hn] at hkind
  cases hkind

/-! ## What open blocks define -/

/-- **Text that is being typed stays inside its open block.** A block without a closing
brace ends with the text, its scope (or, if it is the body of a function, that of the
function) contains the end of the text, and all that this scope defines is visible there,
whatever else is nested around the block or inside of it. -/
theorem open_block_reaches_end (fileName : String) (text : List Char)
    (hshort : ∀ path,
      (ofRoot (SourceTree.parse fileName text).root).IsPath (ScopeTree.root :: path) →
        (ScopeTree.root :: path).length ≤ walkLimit)
    (x : Site) (hx : x ∈ (SourceTree.parse fileName text).root.sites [])
    (hkind : x.node.kind = .block)
    (hopen : ¬Parser.EndsWithBrace (Parser.tokensOf text) x.node) :
    let root := (SourceTree.parse fileName text).root
    let t := ofRoot root
    let scope := root.scopeBelow x.path
    x.node.span.stop = Text.byteLength text
      ∧ scope ≠ ScopeTree.root ∧ t.contains scope (Text.byteLength text) = true
      ∧ ∀ (i : Nat) (d : Definition), t.definitions[i]? = some d →
        t.Holds scope d.offset (.definition i) → d ∈ t.visibleAt (Text.byteLength text) := by
  intro root t scope
  have hroot := SourceTree.parse_orderly fileName text
  have h : t.WellScoped := hroot.wellScoped
  have hlength : t.sourceLength = Text.byteLength text := by
    rw [hroot.sourceLength_ofRoot, SourceTree.parse_span]
  have hstop : x.node.span.stop = Text.byteLength text :=
    (SourceTree.parse_blocksEnd fileName text _ (mem_postorder_of_mem_sites hx) hkind).resolve_left
      hopen
  obtain ⟨hne, s, hs, hend⟩ := hroot.block_scope hx hkind
  have hcontains : t.contains scope (Text.byteLength text) = true := by
    refine contains_iff.2 ⟨s, hs, .inr ⟨?_, ?_⟩⟩
    · rw [hend, hstop]
    · rw [hend, hstop, hlength]
  refine ⟨hstop, hne, hcontains, fun i d hd hholds => ?_⟩
  have hlt : d.offset < Text.byteLength text := by
    rw [← hstop, ← hend]
    exact hroot.definition_lt_stop hs hholds
  rw [h.visibleAt_eq _ (hshort _ (h.isPath_inside _)), List.mem_flatMap]
  exact ⟨scope, mem_cons_inside.2 (.inr hcontains), h.mem_ownedBefore.2 ⟨i, hd, hholds, hlt⟩⟩

/-- A block that is open still, behind a block inside of it that is closed. -/
theorem open_block_around_closed :
    let text := "\x7bint x;\x7b\x7d".toList
    let root := (SourceTree.parse "open" text).root
    let t := ofRoot root
    (∀ path, t.IsPath (ScopeTree.root :: path) → (ScopeTree.root :: path).length ≤ walkLimit)
      ∧ ∃ x ∈ root.sites [], x.node.kind = .block
        ∧ ¬Parser.EndsWithBrace (Parser.tokensOf text) x.node
        ∧ x.node.span.stop = Text.byteLength text
        ∧ root.scopeBelow x.path ≠ ScopeTree.root
        ∧ t.contains (root.scopeBelow x.path) (Text.byteLength text) = true
        ∧ ∀ (i : Nat) (d : Definition), t.definitions[i]? = some d →
          t.Holds (root.scopeBelow x.path) d.offset (.definition i) →
            d ∈ t.visibleAt (Text.byteLength text) := by
  obtain ⟨hcount, hsite⟩ :
      (ofRoot (SourceTree.parse "open" "\x7bint x;\x7b\x7d".toList).root).scopes.length = 3
      ∧ ((SourceTree.parse "open" "\x7bint x;\x7b\x7d".toList).root.sites [])[1]?.map (fun x =>
        (x.node.kind, decide (Parser.EndsWithBrace
          (Parser.tokensOf "\x7bint x;\x7b\x7d".toList) x.node))) = some (.block, false) := by
    cbv
  intro text root t
  have hshort : ∀ path, t.IsPath (ScopeTree.root :: path) →
      (ScopeTree.root :: path).length ≤ walkLimit := by
    intro path hpath
    have hle := (SourceTree.parse_orderly _ _).wellScoped.length_le_of_isPath hpath
    exact Nat.le_trans (hle.trans_eq hcount) (by decide)
  obtain ⟨x, hx, hblock⟩ := Option.map_eq_some_iff.1 hsite
  obtain ⟨hkind, hbrace⟩ := Prod.mk.inj hblock
  have hopen := of_decide_eq_false hbrace
  have hmem := List.mem_of_getElem? hx
  exact ⟨hshort, x, hmem, hkind, hopen,
    open_block_reaches_end _ _ hshort x hmem hkind hopen⟩

end ScriptLens
