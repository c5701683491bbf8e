import Mathlib
import ScriptLens.Proofs.ScopeNesting

/-!
# Where the entries of a scope lie

A scope keeps what it holds, definitions and other scopes, under the offsets at which
these begin. One expects the offsets to lie in the scope, at or behind its start and
before its end.

At the start this is always so (`Orderly.start_le_definition`, `Orderly.scope_nested`). At
the end it fails for what begins there, which can only be something empty. Names are not
empty, a function has its parentheses and a block its brace; but the scope of a class
begins behind the name, and if nothing follows the name, it is empty. So all entries lie
before the end of their scope with the exception of classes that end with their names
(`entries_within_scope`), and the scope of such a class does stand at the end of the scope
around it (`empty_class_at_end`).
-/

namespace ScriptLens

open Node ScopeTree

/-- The scope of a class starts behind its name. -/
theorem Node.scope?_of_class {n : Node} (h : n.kind = .classDeclaration) :
    ∃ start, n.scope? = some (.classBody, start) := by
  obtain ⟨id, span, payload⟩ := n
  cases payload <;> first | exact ⟨_, rfl⟩ | cases h

namespace Orderly

variable {tokens : List Token} {root : Node} {z : Site}

/-- A name ends before its construct does: it is not empty, and a class, which may end with
its name, has its scope behind the name. -/
theorem name_lt_stop (hroot : Orderly tokens root) (hz : z ∈ root.sites [])
    {offset : Nat} (hoffset : offset ∈ z.node.definitions.map Definition.offset) :
    offset < z.node.span.stop := by
  have hlaid := hroot.laid_site hz
  have hk := mem_keys_of_definition hoffset
  refine Nat.lt_of_le_of_ne (hlaid.within offset hk).2.1 fun heq => ?_
  obtain ⟨start, hscope⟩ := scope?_of_class (hlaid.at_stop (heq ▸ hk)).2
  have hkeys : z.node.keys = z.node.definitions.map Definition.offset ++ [start] := by
    rw [map_offset_definitions, keys, hscope]
    rfl
  have hascending := hlaid.ascending
  rw [hkeys, List.pairwise_append] at hascending
  have hlt := hascending.2.2 offset hoffset start List.mem_cons_self
  have hle := (hlaid.within start (by rw [hkeys]; simp)).2.1
  omega

/-- What is defined in a scope stands before its end. -/
theorem definition_lt_stop (hroot : Orderly tokens root) {c offset i : Nat} {s : Scope}
    (hs : (ofRoot root).scopes[c]? = some s)
    (h : (ofRoot root).Holds c offset (.definition i)) : offset < s.span.stop := by
  obtain ⟨z, hz, rfl, hoffset⟩ := hroot.exists_definition_site h
  have hlt := hroot.name_lt_stop hz hoffset
  refine Nat.lt_of_lt_of_le hlt ?_
  rcases hroot.scope_around hz hs with hspan | ⟨y, kind, haround, -, hstop⟩
  · rw [hspan]
    exact hroot.stop_le hz
  · rw [hstop]
    exact (hroot.nested.covers_of_isAround hz haround).2

/-- Only the scope of a class can be empty. -/
theorem scope_empty (hroot : Orderly tokens root) {c : Nat} {s : Scope}
    (hs : (ofRoot root).scopes[c + 1]? = some s) (hempty : s.span.start = s.span.stop) :
    s.kind = .classBody := by
  obtain ⟨x, done, rest, hsites, hscope, hstop, -⟩ := hroot.exists_opening hs
  have hx : x ∈ root.sites [] := by rw [hsites]; simp
  have hk := mem_keys_of_scope? hscope
  rw [hempty, hstop] at hk
  obtain ⟨start, hclass⟩ := scope?_of_class ((hroot.laid_site hx).at_stop hk).2
  rcases x.scope?_eq_none_or with h | h
  · rw [h] at hscope
    cases hscope
  · rw [h, hclass] at hscope
    exact (Prod.mk.inj (Option.some.inj hscope)).1.symm

end Orderly

/-- **What a scope holds lies in the scope**, at or behind its start and before its end.
The one exception is the scope of a class that ends with its name. It is empty, and it may
stand at the end of the scope that holds it. -/
theorem entries_within_scope (fileName : String) (text : List Char) (s : Scope)
    (hs : s ∈ (ofRoot (SourceTree.parse fileName text).root).scopes) (offset : Nat)
    (entry : ScopeEntry) (hentry : (offset, entry) ∈ s.entries) :
    s.span.start ≤ offset ∧ (offset < s.span.stop
      ∨ offset = s.span.stop ∧ ∃ (c : Nat) (s' : Scope), entry = .child c
        ∧ (ofRoot (SourceTree.parse fileName text).root).scopes[c]? = some s'
        ∧ s'.kind = .classBody ∧ s'.span = ⟨offset, offset⟩) := by
  have hroot := SourceTree.parse_orderly fileName text
  obtain ⟨p, hp⟩ := List.mem_iff_getElem?.1 hs
  have hholds : (ofRoot (SourceTree.parse fileName text).root).Holds p offset entry :=
    ⟨s, hp, hentry⟩
  cases entry with
  | definition i =>
    exact ⟨hroot.start_le_definition hp hholds, .inl (hroot.definition_lt_stop hp hholds)⟩
  | child c =>
    obtain ⟨s', hs', hparent, rfl⟩ := hroot.holds_child_iff.1 hholds
    cases c with
    | zero =>
      obtain ⟨file, hfile, hnone, -⟩ := hroot.registers.file
      obtain rfl : s' = file := Option.some.inj (hs'.symm.trans hfile)
      rw [hnone] at hparent
      cases hparent
    | succ c =>
      obtain ⟨p', outer, hparent', -, houter, hstart, hstop⟩ := hroot.scope_nested hs'
      obtain rfl : p = p' := Option.some.inj (hparent.symm.trans hparent')
      obtain rfl : s = outer := Option.some.inj (hp.symm.trans houter)
      have hspan := (hroot.scope_span s' (List.mem_of_getElem? hs')).1
      refine ⟨hstart, (Nat.lt_or_eq_of_le (Nat.le_trans hspan hstop)).imp_right fun heq => ?_⟩
      have hempty : s'.span.start = s'.span.stop := Nat.le_antisymm hspan (heq ▸ hstop)
      refine ⟨heq, c + 1, s', rfl, hs', hroot.scope_empty hs' hempty, ?_⟩
      exact congrArg (Span.mk s'.span.start) hempty.symm

/-- The scopes of a text that is one class without braces. -/
theorem scopes_class_name :
    (ofRoot (SourceTree.parse "class" "class A".toList).root).scopes
      = [⟨none, .file, ⟨0, 7⟩, [(6, .definition 0), (7, .child 1)]⟩,
        ⟨some 0, .classBody, ⟨7, 7⟩, []⟩] := by
  cbv

/-- The class of such a text and its scope, one before the end of the text and one at it. -/
theorem entries_within_scope_class :
    let t := ofRoot (SourceTree.parse "class" "class A".toList).root
    ∃ s ∈ t.scopes, s.span = ⟨0, 7⟩ ∧ ∀ offset entry,
      (offset, entry) ∈ [(6, ScopeEntry.definition 0), (7, ScopeEntry.child 1)] →
        (offset, entry) ∈ s.entries ∧ s.span.start ≤ offset ∧ (offset < s.span.stop
          ∨ offset = s.span.stop ∧ ∃ (c : Nat) (s' : Scope), entry = .child c
            ∧ t.scopes[c]? = some s' ∧ s'.kind = .classBody ∧ s'.span = ⟨offset, offset⟩) := by
  intro t
  have hmem : ⟨none, .file, ⟨0, 7⟩, [(6, .definition 0), (7, .child 1)]⟩ ∈ t.scopes := by
    rw [scopes_class_name]
    exact List.mem_cons_self
  exact ⟨_, hmem, rfl, fun offset entry hentry =>
    ⟨hentry, entries_within_scope _ _ _ hmem offset entry hentry⟩⟩

/-- **An empty class stands at the end of the scope around it**, and not before it. -/
theorem empty_class_at_end :
    ¬∀ s ∈ (ofRoot (SourceTree.parse "class" "class A".toList).root).scopes,
      ∀ offset entry, (offset, entry) ∈ s.entries →
        s.span.start ≤ offset ∧ offset < s.span.stop := by
  intro h
  rw [scopes_class_name] at h
  exact absurd (h _ List.mem_cons_self 7 (.child 1) (by decide)).2 (by decide)

end ScriptLens
