import Mathlib
import ScriptLens.Proofs.ScopeWalk

/-!
# What an offset can see

What is found at an offset of a text is what is visible there by the nesting of its
constructs (`visibleAt_lexical`), if its scopes are not nested more deeply than a walk
through them may go.

In particular what a block defines is not visible behind it (`closed_block_hides`), and
this holds however deeply scopes are nested. There is one exception, the end of the text:
a scope that reaches up to there is taken to be open still.
-/

namespace ScriptLens

open Node ScopeTree

/-- **What an offset sees is what is defined before it in the scopes around it.** In a
text whose scopes are not nested more deeply than a walk may go, the scopes around an
offset are one inside the other, the innermost is the one that is found, and the
definitions that are found are, in source order and each once, those that stand before
the offset and belong to the whole text or to a scope around the offset. -/
theorem visibleAt_lexical (fileName : String) (text : List Char)
    (hshort : ∀ path,
      (ofRoot (SourceTree.parse fileName text).root).IsPath (ScopeTree.root :: path) →
        (ScopeTree.root :: path).length ≤ walkLimit)
    (offset : Nat) :
    let t := ofRoot (SourceTree.parse fileName text).root
    let scopes := ScopeTree.root :: t.inside offset
    t.IsPath scopes
      ∧ t.scopeAt offset = scopes.getLast (List.cons_ne_nil _ _)
      ∧ (t.visibleAt offset).Pairwise (·.offset < ·.offset)
      ∧ ∀ d, d ∈ t.visibleAt offset ↔ ∃ i c, t.definitions[i]? = some d
        ∧ t.Holds c d.offset (.definition i) ∧ d.offset < offset
        ∧ (c = ScopeTree.root ∨ t.contains c offset = true) := by
  intro t scopes
  have h : t.WellScoped := (SourceTree.parse_orderly fileName text).wellScoped
  have hpath : t.IsPath scopes := h.isPath_inside offset
  have hlimit := hshort _ hpath
  have hvisible := h.visibleAt_eq offset hlimit
  refine ⟨hpath, h.scopeAt_eq_getLast offset (Nat.le_of_succ_le hlimit), ?_, fun d => ?_⟩
  · rw [hvisible]
    exact h.pairwise_flatMap_ownedBefore offset
  · refine ⟨h.exists_of_mem_visibleAt, ?_⟩
    rintro ⟨i, c, hi, hholds, hlt, hc⟩
    rw [hvisible, List.mem_flatMap]
    exact ⟨c, mem_cons_inside.2 hc, h.mem_ownedBefore.2 ⟨i, hi, hholds, hlt⟩⟩

/-- Lexical visibility in a text with one block, seen from inside of it. -/
theorem visibleAt_lexical_block :
    let t := ofRoot (SourceTree.parse "block" "int a; \x7b int b; \x7d".toList).root
    let scopes := ScopeTree.root :: t.inside 16
    (∀ path, t.IsPath (ScopeTree.root :: path) → (ScopeTree.root :: path).length ≤ walkLimit)
      ∧ t.IsPath scopes
      ∧ t.scopeAt 16 = scopes.getLast (List.cons_ne_nil _ _)
      ∧ (t.visibleAt 16).Pairwise (·.offset < ·.offset)
      ∧ ∀ d, d ∈ t.visibleAt 16 ↔ ∃ i c, t.definitions[i]? = some d
        ∧ t.Holds c d.offset (.definition i) ∧ d.offset < 16
        ∧ (c = ScopeTree.root ∨ t.contains c 16 = true) := by
  have hcount :
      (ofRoot (SourceTree.parse "block" "int a; \x7b int b; \x7d".toList).root).scopes.length
        = 2 := by
    cbv
  intro t scopes
  have hshort : ∀ path, t.IsPath (ScopeTree.root :: path) →
      (ScopeTree.root :: path).length ≤ walkLimit := by
    intro path hpath
    have hle := (SourceTree.parse_orderly _ _).wellScoped.length_le_of_isPath hpath
    exact Nat.le_trans (hle.trans_eq hcount) (by decide)
  exact ⟨hshort, visibleAt_lexical _ _ hshort 16⟩

/-! ## Blocks that are closed -/

section Blocks

variable {tokens : List Token} {root : Node} {x : Site}

/-- **The scope of a block**, whether it opens one or is the body of a function, ends with
the block. -/
theorem Orderly.block_scope (hroot : Orderly tokens root) (hx : x ∈ root.sites [])
    (hkind : x.node.kind = .block) :
    root.scopeBelow x.path ≠ ScopeTree.root ∧ ∃ s : Scope,
      (ofRoot root).scopes[root.scopeBelow x.path]? = some s
        ∧ s.span.stop = x.node.span.stop := by
  have hopened : ∀ {y : Site}, y ∈ root.sites [] → y.opens = true →
      root.scopeBelow y.path ≠ ScopeTree.root ∧ ∃ s : Scope,
        (ofRoot root).scopes[root.scopeBelow y.path]? = some s
          ∧ s.span.stop = y.node.span.stop := by
    intro y hy hopens
    obtain ⟨s, kind, hs, -, hstop⟩ := hroot.scope_opened hy hopens
    rw [scopeBelow_path hopens] at hs ⊢
    exact ⟨Nat.succ_ne_zero _, s, hs, hstop⟩
  by_cases hopens : x.opens = true
  · exact hopened hx hopens
  · obtain ⟨body, hbody, hid⟩ := (Option.any_eq_true _ _).1 (Site.isBody_of_not_opens hkind hopens)
    obtain ⟨a, ha, hbody⟩ := Option.bind_eq_some_iff.1 hbody
    obtain ⟨above, habove⟩ : ∃ above, x.above = a :: above := List.head?_eq_some_iff.1 ha
    have hparent : ⟨a, above⟩ ∈ root.sites [] := by
      refine mem_sites_of_isAround hx ?_
      rw [Site.IsAround, habove]
      exact List.suffix_rfl
    obtain ⟨upper, hnumbers⟩ := hroot.numbered
    have hsite : ⟨body, Site.path ⟨a, above⟩⟩ = x :=
      hnumbers.site_eq (child_mem_sites hparent (mem_children_of_body? hbody)) hx
        (beq_iff_eq.1 hid)
    have hfunction : Site.opens ⟨a, above⟩ = true :=
      Site.opens_of_function (kind_of_body? hbody)
    have hstop := (hroot.laid_site hparent).body_stop body hbody
    rw [scopeBelow_path_of_not_opens hopens, ← hsite]
    obtain ⟨hne, s, hs, hend⟩ := hopened hparent hfunction
    exact ⟨hne, s, hs, hend.trans hstop.symm⟩

end Blocks

/-- **What a block defines is not visible behind it**, unless the block and the text end
together and that is where one looks. -/
theorem closed_block_hides (fileName : String) (text : List Char) (x : Site)
    (hx : x ∈ (SourceTree.parse fileName text).root.sites []) (hkind : x.node.kind = .block)
    (i : Nat) (d : Definition)
    (hd : (ofRoot (SourceTree.parse fileName text).root).definitions[i]? = some d)
    (howner : (ofRoot (SourceTree.parse fileName text).root).Holds
      ((SourceTree.parse fileName text).root.scopeBelow x.path) d.offset (.definition i))
    (offset : Nat) (hbehind : x.node.span.stop ≤ offset)
    (hend : ¬(offset = x.node.span.stop ∧ offset = Text.byteLength text)) :
    d ∉ (ofRoot (SourceTree.parse fileName text).root).visibleAt offset := by
  have hroot := SourceTree.parse_orderly fileName text
  have h := hroot.wellScoped
  intro hvisible
  obtain ⟨j, c, hj, hholds, -, hc⟩ := h.exists_of_mem_visibleAt hvisible
  obtain rfl : i = j := h.index_eq hd hj
  obtain rfl := h.owner _ _ _ _ _ howner hholds
  obtain ⟨hne, s, hs, hstop⟩ := hroot.block_scope hx hkind
  obtain ⟨s', hs', hin⟩ := contains_iff.1 (hc.resolve_left hne)
  obtain rfl : s = s' := Option.some.inj (hs.symm.trans hs')
  have hlength : (ofRoot (SourceTree.parse fileName text).root).sourceLength
      = Text.byteLength text := by
    rw [hroot.sourceLength_ofRoot, SourceTree.parse_span]
  rw [hlength, hstop] at hin
  omega

/-- A block of a text with the one definition that its scope has. -/
theorem exists_block_definition {fileName : String} {text : List Char}
    {place stop scope offset i : Nat}
    (hsite : ((SourceTree.parse fileName text).root.sites [])[place]?.map (fun x =>
      (x.node.kind, x.node.span.stop, (SourceTree.parse fileName text).root.scopeBelow x.path))
        = some (.block, stop, scope))
    (hentries : (ofRoot (SourceTree.parse fileName text).root).scopes[scope]?.map Scope.entries
      = some [(offset, .definition i)]) :
    ∃ x ∈ (SourceTree.parse fileName text).root.sites [], x.node.kind = .block
      ∧ x.node.span.stop = stop
      ∧ (SourceTree.parse fileName text).root.scopeBelow x.path = scope
      ∧ ∃ d : Definition,
        (ofRoot (SourceTree.parse fileName text).root).definitions[i]? = some d
          ∧ d.offset = offset
          ∧ (ofRoot (SourceTree.parse fileName text).root).Holds scope d.offset
            (.definition i) := by
  obtain ⟨x, hx, hblock⟩ := Option.map_eq_some_iff.1 hsite
  obtain ⟨s, hs, hentries⟩ := Option.map_eq_some_iff.1 hentries
  obtain ⟨hkind, hrest⟩ := Prod.mk.inj hblock
  obtain ⟨hstop, hscope⟩ := Prod.mk.inj hrest
  have hholds : (ofRoot (SourceTree.parse fileName text).root).Holds scope offset
      (.definition i) := ⟨s, hs, by rw [hentries]; exact List.mem_cons_self⟩
  obtain ⟨d, hd, rfl⟩ :=
    (SourceTree.parse_orderly fileName text).wellScoped.definition _ _ _ hholds
  exact ⟨x, List.mem_of_getElem? hx, hkind, hstop, hscope, d, hd, rfl, hholds⟩

/-- A block and what it defines, seen from right behind it where the text goes on. -/
theorem closed_block_hides_before_blank :
    let text := "\x7b int x; \x7d ".toList
    let root := (SourceTree.parse "block" text).root
    let t := ofRoot root
    ∃ (x : Site) (i : Nat) (d : Definition), x ∈ root.sites [] ∧ x.node.kind = .block
      ∧ t.definitions[i]? = some d
      ∧ t.Holds (root.scopeBelow x.path) d.offset (.definition i)
      ∧ x.node.span.stop ≤ 10 ∧ ¬(10 = x.node.span.stop ∧ 10 = Text.byteLength text)
      ∧ d ∉ t.visibleAt 10 := by
  obtain ⟨hsite, hentries⟩ :
      ((SourceTree.parse "block" "\x7b int x; \x7d ".toList).root.sites [])[1]?.map (fun x =>
        (x.node.kind, x.node.span.stop,
          (SourceTree.parse "block" "\x7b int x; \x7d ".toList).root.scopeBelow x.path))
        = some (.block, 10, 1)
      ∧ (ofRoot (SourceTree.parse "block" "\x7b int x; \x7d ".toList).root).scopes[1]?.map
        Scope.entries = some [(6, .definition 0)] := by
    cbv
  obtain ⟨x, hx, hkind, hstop, hscope, d, hd, -, hholds⟩ := exists_block_definition hsite hentries
  rw [← hscope] at hholds
  have hend : ¬(10 = x.node.span.stop ∧ 10 = Text.byteLength "\x7b int x; \x7d ".toList) :=
    fun h => absurd h.2 (by decide)
  exact ⟨x, 0, d, hx, hkind, hd, hholds, Nat.le_of_eq hstop, hend,
    closed_block_hides _ _ x hx hkind 0 d hd hholds 10 (Nat.le_of_eq hstop) hend⟩

/-- A block that is closed and ends with the text: what it defines is still visible from
right behind it. -/
theorem closed_block_visible_at_end :
    let text := "\x7b int x; \x7d".toList
    let root := (SourceTree.parse "block" text).root
    let t := ofRoot root
    (SourceTree.parse "block" text).diagnostics = [] ∧ text.getLast? = some '\x7d'
      ∧ ∃ (x : Site) (i : Nat) (d : Definition), x ∈ root.sites [] ∧ x.node.kind = .block
        ∧ t.definitions[i]? = some d
        ∧ t.Holds (root.scopeBelow x.path) d.offset (.definition i)
        ∧ x.node.span.stop = 10 ∧ d ∈ t.visibleAt 10 := by
  obtain ⟨hdiagnostics, hsite, hentries, hchain⟩ :
      (SourceTree.parse "block" "\x7b int x; \x7d".toList).diagnostics = []
      ∧ ((SourceTree.parse "block" "\x7b int x; \x7d".toList).root.sites [])[1]?.map (fun x =>
        (x.node.kind, x.node.span.stop,
          (SourceTree.parse "block" "\x7b int x; \x7d".toList).root.scopeBelow x.path))
        = some (.block, 10, 1)
      ∧ (ofRoot (SourceTree.parse "block" "\x7b int x; \x7d".toList).root).scopes[1]?.map
        Scope.entries = some [(6, .definition 0)]
      ∧ (ofRoot (SourceTree.parse "block" "\x7b int x; \x7d".toList).root).chain
        ((ofRoot (SourceTree.parse "block" "\x7b int x; \x7d".toList).root).scopeAt 10)
        = [0, 1] := by
    cbv
  obtain ⟨x, hx, hkind, hstop, hscope, d, hd, hoffset, hholds⟩ :=
    exists_block_definition hsite hentries
  refine ⟨hdiagnostics, by decide, x, 0, d, hx, hkind, hd, hscope ▸ hholds, hstop, ?_⟩
  refine List.mem_flatMap.2 ⟨1, ?_, ?_⟩
  · rw [hchain]
    exact List.mem_cons_of_mem _ List.mem_cons_self
  · refine (SourceTree.parse_orderly _ _).wellScoped.mem_ownedBefore.2 ⟨0, hd, hholds, ?_⟩
    rw [hoffset]
    decide

end ScriptLens
