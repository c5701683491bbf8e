import ScriptLens.Proofs.ScopeOwners

/-!
# How scopes lie in a text

To find what an offset can see, only spans and numbers of scopes are compared, and
only the last of several scopes is looked at. This is right for scopes that lie in the
text as constructs do: a scope is inside its parent, and of two scopes the second is
inside the first or comes after it; and a definition lies in a scope only if it belongs
to the scope or to one inside it. `ScopeTree.WellScoped` collects these facts, and the
scopes of every text have them (`Orderly.wellScoped`).

An offset at the end of the text needs care, because a scope that ends there contains
it: two scopes that follow one another must not both end there. A scope may be empty,
like that of a class without a body, but its construct is not, and this keeps them
apart.
-/

namespace ScriptLens

open Node ScopeTree

/-- The parent of a scope. -/
def ScopeTree.parent? (t : ScopeTree) (scope : Nat) : Option Nat :=
  t.scopes[scope]?.bind Scope.parent

/-- **Scopes that lie in a text as constructs do.** -/
structure ScopeTree.WellScoped (t : ScopeTree) : Prop where
  file : ∃ s : Scope, t.scopes[ScopeTree.root]? = some s ∧ s.parent = none
  /-- A scope is inside its parent. -/
  parent : ∀ (c : Nat) (s : Scope), t.scopes[c + 1]? = some s →
    ∃ (p : Nat) (s' : Scope), s.parent = some p ∧ p ≤ c
    ∧ t.scopes[p]? = some s' ∧ s'.span.start ≤ s.span.start ∧ s.span.stop ≤ s'.span.stop
  span : ∀ s ∈ t.scopes, s.span.start ≤ s.span.stop ∧ s.span.stop ≤ t.sourceLength
  /-- Of two scopes the second is inside the first or comes after it. -/
  apart : ∀ (c c' : Nat) (s s' : Scope), c < c' → t.scopes[c]? = some s → t.scopes[c']? = some s' →
    (∃ p, s'.parent = some p ∧ c ≤ p)
      ∨ s.span.stop ≤ s'.span.start ∧ s.span.stop < t.sourceLength
  child : ∀ p offset c, t.Holds p offset (.child c) ↔
    ∃ s : Scope, t.scopes[c]? = some s ∧ s.parent = some p ∧ s.span.start = offset
  sorted : ∀ s ∈ t.scopes, s.entries.Pairwise (·.1 < ·.1)
  ascending : t.definitions.Pairwise (·.offset < ·.offset)
  definition : ∀ c offset i, t.Holds c offset (.definition i) →
    ∃ d : Definition, t.definitions[i]? = some d ∧ d.offset = offset
  owner : ∀ c c' offset offset' i, t.Holds c offset (.definition i) →
    t.Holds c' offset' (.definition i) → c = c'
  /-- A scope starts before what is defined in it. -/
  behind : ∀ (c : Nat) (s : Scope) (offset i : Nat), t.scopes[c]? = some s →
    t.Holds c offset (.definition i) → s.span.start ≤ offset
  /-- What is defined between the ends of a scope belongs to it or to a scope inside. -/
  inside : ∀ (c c' : Nat) (s : Scope) (offset i : Nat), t.scopes[c]? = some s →
    t.Holds c' offset (.definition i) → s.span.start ≤ offset → offset < s.span.stop → c ≤ c'

variable {tokens : List Token} {root : Node} {x y z : Site}

namespace Orderly

/-! ## Keys of sites -/

theorem pairwise_keys (hroot : Orderly tokens root) :
    (root.sites []).Pairwise fun x y => ∀ k ∈ x.node.keys, ∀ l ∈ y.node.keys, k < l :=
  (List.pairwise_flatMap.1 (Laid.keysLaid hroot.laid hroot.nested).ascending).2

theorem key_lt_of_isAround (hroot : Orderly tokens root) (hy : y ∈ root.sites [])
    (haround : x.IsAround y) {k l : Nat} (hk : k ∈ x.node.keys) (hl : l ∈ y.node.keys) : k < l := by
  obtain ⟨done, rest, hsites⟩ := List.append_of_mem hy
  have hpairwise := hroot.pairwise_keys
  rw [hsites, List.pairwise_append] at hpairwise
  exact hpairwise.2.2 x (mem_of_isAround hsites haround) y List.mem_cons_self k hk l hl

theorem mem_keys_of_scope? {kind : ScopeKind} {start : Nat} (h : x.scope? = some (kind, start)) :
    start ∈ x.node.keys := by
  rcases x.scope?_eq_none_or with h' | h'
  · rw [h'] at h
    cases h
  · rw [keys, ← h', h]
    simp

/-! ## Scopes and the sites that open them -/

/-- What opened a scope other than the whole text. -/
theorem exists_opening (hroot : Orderly tokens root) {c : Nat} {s : Scope}
    (hs : (ofRoot root).scopes[c + 1]? = some s) :
    ∃ (x : Site) (done rest : List Site), root.sites [] = done ++ x :: rest
      ∧ x.scope? = some (s.kind, s.span.start) ∧ s.span.stop = x.node.span.stop
      ∧ s.parent = some (root.scopeBelow x.above) ∧ root.scopeBelow x.path = c + 1
      ∧ (done.filter Site.opens).length = c := by
  obtain ⟨upper, hnumbers⟩ := hroot.numbered
  have hregisters := hroot.registers
  have hlt : c < root.openings.length := by
    have hlt := (List.getElem?_eq_some_iff.1 hs).1
    rw [hregisters.length_scopes] at hlt
    exact Nat.lt_of_succ_lt_succ hlt
  obtain ⟨s', kind, start, hs', hscope, hparent, rfl, hspan⟩ :=
    hregisters.opened c _ (List.getElem?_eq_getElem hlt)
  obtain rfl : s = s' := Option.some.inj (hs.symm.trans hs')
  obtain ⟨done, rest, hsites, hopens, hlength⟩ :=
    openings_getElem?.1 (List.getElem?_eq_getElem hlt)
  refine ⟨_, done, rest, hsites, ?_, ?_, hparent, ?_, hlength⟩
  · rw [hspan, hscope]
  · rw [hspan]
  · rw [hnumbers.scopeBelow_path hsites hopens, hlength]

/-- The scope that a site opens. -/
theorem scope_opened (hroot : Orderly tokens root) (hx : x ∈ root.sites [])
    (hopens : x.opens = true) :
    ∃ (s : Scope) (kind : ScopeKind), (ofRoot root).scopes[root.scopeBelow x.path]? = some s
      ∧ x.scope? = some (kind, s.span.start) ∧ s.span.stop = x.node.span.stop := by
  obtain ⟨done, rest, hsites⟩ := List.append_of_mem hx
  obtain ⟨upper, hnumbers⟩ := hroot.numbered
  obtain ⟨s, kind, start, hs, hscope, -, -, hspan⟩ :=
    hroot.registers.opened _ x (openings_getElem?.2 ⟨done, rest, hsites, hopens, rfl⟩)
  rw [hnumbers.scopeBelow_path hsites hopens]
  exact ⟨s, kind, hs, by rw [hspan, hscope], by rw [hspan]⟩

/-- The scope that a site belongs to is the whole text or that of a site around it. -/
theorem scope_around (hroot : Orderly tokens root) (hz : z ∈ root.sites []) {s : Scope}
    (hs : (ofRoot root).scopes[root.scopeBelow z.above]? = some s) :
    s.span = ⟨0, root.span.stop⟩ ∨ ∃ (y : Site) (kind : ScopeKind), y.IsAround z
      ∧ y.scope? = some (kind, s.span.start) ∧ s.span.stop = y.node.span.stop := by
  cases hhead : (scopesAround z.above).head? with
  | none =>
    obtain ⟨s', hs', -, -, hspan⟩ := hroot.registers.file
    rw [scopeBelow, hhead] at hs
    obtain rfl : s = s' := Option.some.inj (hs.symm.trans hs')
    exact .inl hspan
  | some y =>
    obtain ⟨haround, hopens⟩ := mem_scopesAround.1 (List.mem_of_head? hhead)
    obtain ⟨s', kind, hs', hscope⟩ := hroot.scope_opened (mem_sites_of_isAround hz haround) hopens
    rw [scopeBelow_eq hhead] at hs
    obtain rfl : s = s' := Option.some.inj (hs.symm.trans hs')
    exact .inr ⟨y, kind, haround, hscope⟩

/-- The event that made a definition. -/
theorem exists_event (hroot : Orderly tokens root) {c offset i : Nat}
    (h : (ofRoot root).Holds c offset (.definition i)) :
    ∃ d : Definition, (root.events.filterMap Event.definition?)[i]? = some (c, d)
      ∧ d.offset = offset := by
  rw [hroot.ofRoot_eq_replay, holds_replay hroot.lawful_events,
    definition_mem_registrations] at h
  obtain ⟨j, d, rfl, hj, hoffset⟩ := h
  exact ⟨d, by rwa [Nat.zero_add], hoffset⟩

/-- The site that made a definition. -/
theorem exists_definition_site (hroot : Orderly tokens root) {c offset i : Nat}
    (h : (ofRoot root).Holds c offset (.definition i)) :
    ∃ z ∈ root.sites [], c = root.scopeBelow z.above
      ∧ offset ∈ z.node.definitions.map Definition.offset := by
  obtain ⟨d, hevent, rfl⟩ := hroot.exists_event h
  have hmem := List.mem_of_getElem? hevent
  rw [Node.events, Site.filterMap_definition?_events, List.mem_flatMap] at hmem
  obtain ⟨z, hz, hmem⟩ := hmem
  obtain ⟨d', hd', heq⟩ := List.mem_map.1 hmem
  cases heq
  exact ⟨z, hz, rfl, List.mem_map_of_mem hd'⟩

theorem mem_keys_of_definition {offset : Nat}
    (h : offset ∈ z.node.definitions.map Definition.offset) : offset ∈ z.node.keys := by
  rw [map_offset_definitions] at h
  exact List.mem_append_left _ h

/-- **What is defined inside a scope belongs to a scope inside it.** -/
theorem le_scopeBelow (hroot : Orderly tokens root) (hx : x ∈ root.sites [])
    (hz : z ∈ root.sites []) {kind : ScopeKind} {start offset : Nat}
    (hscope : x.scope? = some (kind, start))
    (hoffset : offset ∈ z.node.definitions.map Definition.offset) (hstart : start ≤ offset)
    (hstop : offset < x.node.span.stop) : root.scopeBelow x.path ≤ root.scopeBelow z.above := by
  obtain ⟨upper, hnumbers⟩ := hroot.numbered
  obtain ⟨done, rest, hsites⟩ := List.append_of_mem hx
  have hkeys := hroot.pairwise_keys
  have hpairwise := hroot.nested.pairwise_sites []
  rw [hsites, List.pairwise_append, List.pairwise_cons] at hkeys hpairwise
  have hk := mem_keys_of_definition hoffset
  have hmem := hz
  rw [hsites, List.mem_append, List.mem_cons] at hmem
  rcases hmem with hmem | rfl | hmem
  · -- names before the construct are before its scope
    have hlt := hkeys.2.2 z hmem x List.mem_cons_self offset hk start (mem_keys_of_scope? hscope)
    exact absurd hstart (Nat.not_le.2 hlt)
  · -- and so are its own
    have hself := (hroot.laid_site hz).ascending
    rcases z.scope?_eq_none_or with h' | h'
    · rw [h'] at hscope
      cases hscope
    · rw [map_offset_definitions] at hoffset
      rw [keys, ← h', hscope, List.pairwise_append] at hself
      exact absurd hstart (Nat.not_le.2 (hself.2.2 offset hoffset start List.mem_cons_self))
  · rcases hpairwise.2.1.1 z hmem with haround | hle
    · exact hnumbers.scopeBelow_le_of_isAround hz haround
    · have hbehind := ((hroot.laid_site hz).within offset hk).1
      exact absurd hstop (Nat.not_lt.2 (Nat.le_trans hle hbehind))

/-! ## All scopes -/

theorem sourceLength_ofRoot (hroot : Orderly tokens root) :
    (ofRoot root).sourceLength = root.span.stop := by
  rw [hroot.ofRoot_eq_replay, replay_sourceLength]

theorem stop_le (hroot : Orderly tokens root) (hx : x ∈ root.sites []) :
    x.node.span.stop ≤ root.span.stop :=
  (hroot.nested.covers_sites hx).2

theorem scope_nested (hroot : Orderly tokens root) {c : Nat} {s : Scope}
    (hs : (ofRoot root).scopes[c + 1]? = some s) :
    ∃ (p : Nat) (s' : Scope), s.parent = some p ∧ p ≤ c ∧ (ofRoot root).scopes[p]? = some s'
      ∧ s'.span.start ≤ s.span.start ∧ s.span.stop ≤ s'.span.stop := by
  obtain ⟨x, done, rest, hsites, hscope, hstop, hparent, -, rfl⟩ := hroot.exists_opening hs
  have hx : x ∈ root.sites [] := by rw [hsites]; simp
  have hle := scopeBelow_le hsites
  have hlt : root.scopeBelow x.above < (ofRoot root).scopes.length :=
    Nat.lt_of_le_of_lt hle (Nat.lt_of_succ_lt (List.getElem?_eq_some_iff.1 hs).1)
  refine ⟨_, _, hparent, hle, List.getElem?_eq_getElem hlt, ?_⟩
  rcases hroot.scope_around hx (List.getElem?_eq_getElem hlt) with
    hspan | ⟨y, kind', haround, hscope', hstop'⟩
  · rw [hspan, hstop]
    exact ⟨Nat.zero_le _, hroot.stop_le hx⟩
  · rw [hstop, hstop']
    have hkey := hroot.key_lt_of_isAround hx haround (mem_keys_of_scope? hscope')
      (mem_keys_of_scope? hscope)
    exact ⟨Nat.le_of_lt hkey, (hroot.nested.covers_of_isAround hx haround).2⟩

theorem scope_span (hroot : Orderly tokens root) :
    ∀ s ∈ (ofRoot root).scopes, s.span.start ≤ s.span.stop ∧ s.span.stop ≤ root.span.stop := by
  intro s hs
  obtain ⟨i, hi⟩ := List.mem_iff_getElem?.1 hs
  cases i with
  | zero =>
    obtain ⟨s', hs', -, -, hspan⟩ := hroot.registers.file
    obtain rfl : s = s' := Option.some.inj (hi.symm.trans hs')
    rw [hspan]
    exact ⟨Nat.zero_le _, Nat.le_refl _⟩
  | succ c =>
    obtain ⟨x, done, rest, hsites, hscope, hstop, -⟩ := hroot.exists_opening hi
    have hx : x ∈ root.sites [] := by rw [hsites]; simp
    rw [hstop]
    exact ⟨((hroot.laid_site hx).within _ (mem_keys_of_scope? hscope)).2.1, hroot.stop_le hx⟩

/-- Of two scopes the second is inside the first or comes after it. The construct of the
second is not empty, so the first does not reach up to the end of the text. -/
theorem scope_apart (hroot : Orderly tokens root) {c c' : Nat} {s s' : Scope} (hlt : c < c')
    (hs : (ofRoot root).scopes[c]? = some s) (hs' : (ofRoot root).scopes[c']? = some s') :
    (∃ p, s'.parent = some p ∧ c ≤ p)
      ∨ s.span.stop ≤ s'.span.start ∧ s.span.stop < root.span.stop := by
  obtain ⟨k, rfl⟩ := Nat.exists_eq_succ_of_ne_zero (Nat.ne_of_gt (Nat.zero_lt_of_lt hlt))
  obtain ⟨y, done', rest', hsites', hscope', -, hparent', -, hk⟩ := hroot.exists_opening hs'
  cases c with
  | zero => exact .inl ⟨_, hparent', Nat.zero_le _⟩
  | succ j =>
    obtain ⟨x, done, rest, hsites, hscope, hstop, -, hnumber, hj⟩ := hroot.exists_opening hs
    have hx := openings_getElem?.2 ⟨done, rest, hsites, by rw [Site.opens, hscope]; rfl, hj⟩
    have hy := openings_getElem?.2 ⟨done', rest', hsites', by rw [Site.opens, hscope']; rfl, hk⟩
    have hysite : y ∈ root.sites [] := by rw [hsites']; simp
    obtain ⟨hjlt, rfl⟩ := List.getElem?_eq_some_iff.1 hx
    obtain ⟨hklt, rfl⟩ := List.getElem?_eq_some_iff.1 hy
    have hpairwise : root.openings.Pairwise _ := (hroot.nested.pairwise_sites []).filter _
    rcases List.pairwise_iff_getElem.1 hpairwise j k hjlt hklt (Nat.lt_of_succ_lt_succ hlt) with
      haround | hle
    · obtain ⟨upper, hnumbers⟩ := hroot.numbered
      refine .inl ⟨_, hparent', ?_⟩
      rw [← hnumber]
      exact hnumbers.scopeBelow_le_of_isAround hysite haround
    · obtain ⟨hstart, -, hpos⟩ := (hroot.laid_site hysite).within _ (mem_keys_of_scope? hscope')
      rw [hstop]
      refine .inr ⟨Nat.le_trans hle hstart, ?_⟩
      exact Nat.lt_of_le_of_lt hle (Nat.lt_of_lt_of_le hpos (hroot.stop_le hysite))

theorem holds_child_iff (hroot : Orderly tokens root) {p offset c : Nat} :
    (ofRoot root).Holds p offset (.child c) ↔
      ∃ s : Scope, (ofRoot root).scopes[c]? = some s ∧ s.parent = some p
        ∧ s.span.start = offset := by
  have hregisters := hroot.registers
  constructor
  · intro h
    rcases hregisters.entries p offset _ h with ⟨i, -, heq⟩ | ⟨i, hi, heq⟩
    · cases heq
    · cases heq
      have hlt : i + 1 < (ofRoot root).scopes.length := by
        rw [hregisters.length_scopes]
        exact Nat.succ_lt_succ hi
      have hs := List.getElem?_eq_getElem hlt
      obtain ⟨hparent, hoffset⟩ := (hroot.holds_child hs p offset).1 h
      exact ⟨_, hs, hparent, hoffset.symm⟩
  · rintro ⟨s, hs, hparent, hoffset⟩
    cases c with
    | zero =>
      obtain ⟨s', hs', hnone, -⟩ := hregisters.file
      obtain rfl : s = s' := Option.some.inj (hs.symm.trans hs')
      rw [hnone] at hparent
      cases hparent
    | succ i => exact (hroot.holds_child hs p offset).2 ⟨hparent, hoffset.symm⟩

theorem start_le_definition (hroot : Orderly tokens root) {c offset i : Nat} {s : Scope}
    (hs : (ofRoot root).scopes[c]? = some s)
    (h : (ofRoot root).Holds c offset (.definition i)) : s.span.start ≤ offset := by
  obtain ⟨z, hz, rfl, hoffset⟩ := hroot.exists_definition_site h
  rcases hroot.scope_around hz hs with hspan | ⟨y, kind, haround, hscope, -⟩
  · rw [hspan]
    exact Nat.zero_le _
  · exact Nat.le_of_lt (hroot.key_lt_of_isAround hz haround (mem_keys_of_scope? hscope)
      (mem_keys_of_definition hoffset))

theorem le_owner (hroot : Orderly tokens root) {c c' offset i : Nat} {s : Scope}
    (hs : (ofRoot root).scopes[c]? = some s)
    (h : (ofRoot root).Holds c' offset (.definition i)) (hstart : s.span.start ≤ offset)
    (hstop : offset < s.span.stop) : c ≤ c' := by
  cases c with
  | zero => exact Nat.zero_le _
  | succ j =>
    obtain ⟨x, done, rest, hsites, hscope, hstop', -, hnumber, -⟩ := hroot.exists_opening hs
    obtain ⟨z, hz, rfl, hoffset⟩ := hroot.exists_definition_site h
    have hx : x ∈ root.sites [] := by rw [hsites]; simp
    rw [hstop'] at hstop
    rw [← hnumber]
    exact hroot.le_scopeBelow hx hz hscope hoffset hstart hstop

/-- **The scopes of an orderly tree lie in the text as its constructs do.** -/
theorem wellScoped (hroot : Orderly tokens root) : (ofRoot root).WellScoped where
  file := by
    obtain ⟨s, hs, hnone, -⟩ := hroot.registers.file
    exact ⟨s, hs, hnone⟩
  parent _ _ hs := hroot.scope_nested hs
  span := by
    rw [hroot.sourceLength_ofRoot]
    exact hroot.scope_span
  apart c c' s s' hlt hs hs' := by
    rw [hroot.sourceLength_ofRoot]
    exact hroot.scope_apart hlt hs hs'
  child _ _ _ := hroot.holds_child_iff
  sorted := hroot.registers.sorted
  ascending := hroot.registers.ascending
  definition c offset i h := by
    obtain ⟨d, hevent, hoffset⟩ := hroot.exists_event h
    refine ⟨d, ?_, hoffset⟩
    rw [hroot.ofRoot_eq_replay, replay_definitions, List.getElem?_map, hevent]
    rfl
  owner c c' offset offset' i h h' := by
    obtain ⟨d, hevent, -⟩ := hroot.exists_event h
    obtain ⟨d', hevent', -⟩ := hroot.exists_event h'
    exact congrArg Prod.fst (Option.some.inj (hevent.symm.trans hevent'))
  behind _ _ _ _ hs h := hroot.start_le_definition hs h
  inside _ _ _ _ _ hs h hstart hstop := hroot.le_owner hs h hstart hstop

end Orderly

end ScriptLens
