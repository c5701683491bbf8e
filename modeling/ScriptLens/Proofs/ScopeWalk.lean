import Mathlib.Data.List.Chain
import ScriptLens.Proofs.ScopeNesting

/-!
# Walks through scopes

What is visible at an offset is found by going down from the whole text, each time into
the last scope that opens at or before the offset, and by putting together what the
scopes on the way define before the offset. For scopes that lie in the text as
constructs do (`WellScoped`), the scopes around the offset are one inside the other
(`isPath_inside`), the walk goes through all of them (`scopeAt_eq_getLast`), and the
definitions come in source order although they are collected scope by scope: what a
scope defines before the offset it defines before the next scope on the way opens
(`offset_lt`).

The walk is bounded. Where scopes are nested more deeply than that, what is visible can
be lost, but nothing that is not visible is ever found (`exists_of_mem_visibleAt`).
-/

namespace ScriptLens.ScopeTree

/-- The scopes around an offset, without that of the whole text, in the order in which
they open. -/
def inside (t : ScopeTree) (offset : Nat) : List Nat :=
  (List.range t.scopes.length).filter fun c => c != root && t.contains c offset

/-- Whether scopes are each in the one before. -/
def IsPath (t : ScopeTree) (path : List Nat) : Prop :=
  path.IsChain fun p c => t.parent? c = some p

variable {t : ScopeTree} {c c' p offset steps : Nat} {path : List Nat}

theorem contains_iff : t.contains c offset = true ↔ ∃ s : Scope, t.scopes[c]? = some s ∧
    (s.span.start ≤ offset ∧ offset < s.span.stop
      ∨ offset = s.span.stop ∧ s.span.stop = t.sourceLength) := by
  unfold contains
  rw [Option.any_eq_true]
  simp [Span.contains]

theorem mem_inside : c ∈ t.inside offset ↔ c ≠ root ∧ t.contains c offset = true := by
  unfold inside
  rw [List.mem_filter, List.mem_range, Bool.and_eq_true, bne_iff_ne, and_iff_right_of_imp]
  rintro ⟨-, h⟩
  obtain ⟨s, hs, -⟩ := contains_iff.1 h
  exact (List.getElem?_eq_some_iff.1 hs).1

theorem mem_cons_inside :
    c ∈ root :: t.inside offset ↔ c = root ∨ t.contains c offset = true := by
  rw [List.mem_cons, mem_inside]
  by_cases h : c = root <;> simp [h]

theorem parent?_eq_some : t.parent? c = some p ↔
    ∃ s : Scope, t.scopes[c]? = some s ∧ s.parent = some p := by
  rw [parent?, Option.bind_eq_some_iff]

namespace WellScoped

theorem parent_lt (h : t.WellScoped) (hparent : t.parent? c = some p) : p < c := by
  obtain ⟨s, hs, hp⟩ := parent?_eq_some.1 hparent
  cases c with
  | zero =>
    obtain ⟨s', hs', hnone⟩ := h.file
    obtain rfl : s = s' := Option.some.inj (hs.symm.trans hs')
    rw [hnone] at hp
    cases hp
  | succ c =>
    obtain ⟨p', -, hp', hle, -⟩ := h.parent c s hs
    obtain rfl : p = p' := Option.some.inj (hp.symm.trans hp')
    exact Nat.lt_succ_of_le hle

theorem parent?_root (h : t.WellScoped) : t.parent? root = none := by
  obtain ⟨s, hs, hnone⟩ := h.file
  rw [parent?, hs, Option.bind_some, hnone]

/-- The parent of a scope around an offset is around it. -/
theorem contains_parent (h : t.WellScoped) (hparent : t.parent? c = some p)
    (hin : t.contains c offset = true) : t.contains p offset = true := by
  obtain ⟨s, hs, hcontains⟩ := contains_iff.1 hin
  obtain ⟨c, rfl⟩ := Nat.exists_eq_succ_of_ne_zero (Nat.ne_of_gt
    (Nat.zero_lt_of_lt (h.parent_lt hparent)))
  obtain ⟨p', s', hp', -, hs', hstart, hstop⟩ := h.parent c s hs
  obtain ⟨s'', hs'', hp⟩ := parent?_eq_some.1 hparent
  obtain rfl : s = s'' := Option.some.inj (hs.symm.trans hs'')
  obtain rfl : p = p' := Option.some.inj (hp.symm.trans hp')
  refine contains_iff.2 ⟨s', hs', ?_⟩
  have hlength := (h.span s' (List.mem_of_getElem? hs')).2
  omega

/-- Of two scopes around an offset, the second is inside the first. -/
theorem le_parent (h : t.WellScoped) (hlt : c < c') (hin : t.contains c offset = true)
    (hin' : t.contains c' offset = true) : ∃ p, t.parent? c' = some p ∧ c ≤ p := by
  obtain ⟨s, hs, hcontains⟩ := contains_iff.1 hin
  obtain ⟨s', hs', hcontains'⟩ := contains_iff.1 hin'
  rcases h.apart c c' s s' hlt hs hs' with ⟨p, hp, hle⟩ | ⟨hstart, hlength⟩
  · exact ⟨p, parent?_eq_some.2 ⟨s', hs', hp⟩, hle⟩
  · have hspan := (h.span s' (List.mem_of_getElem? hs')).1
    omega

/-- A parent of a scope around an offset is one of the scopes on the way to it. -/
theorem parent_mem (h : t.WellScoped) (hparent : t.parent? c = some p)
    (hin : t.contains c offset = true) : p ∈ root :: t.inside offset :=
  mem_cons_inside.2 (.inr (h.contains_parent hparent hin))

end WellScoped

/-! ## The scopes around an offset -/

/-- Numbers in strict order, each of which has its predecessor in a relation that leaves
none out, are related one by one. -/
theorem isChain_of_pairwise_lt {r : Nat → Nat → Prop} {a : Nat} {l : List Nat}
    (hlt : (a :: l).Pairwise (· < ·))
    (h : ∀ c ∈ l, ∃ p ∈ a :: l, p < c ∧ r p c ∧ ∀ b ∈ a :: l, b < c → b ≤ p) :
    (a :: l).IsChain r := by
  induction l generalizing a with
  | nil => exact .singleton a
  | cons b l ih =>
    obtain ⟨hfirst, hrest⟩ := List.pairwise_cons.1 hlt
    refine .cons_cons ?_ (ih hrest fun c hc => ?_)
    · obtain ⟨p, hp, hpb, hr, -⟩ := h b List.mem_cons_self
      rcases List.mem_cons.1 hp with rfl | hp
      · exact hr
      · rcases List.mem_cons.1 hp with rfl | hp
        · exact absurd hpb (Nat.lt_irrefl _)
        · exact absurd hpb (Nat.lt_asymm ((List.pairwise_cons.1 hrest).1 p hp))
    · obtain ⟨p, hp, hpc, hr, hle⟩ := h c (List.mem_cons_of_mem _ hc)
      refine ⟨p, ?_, hpc, hr, fun d hd => hle d (List.mem_cons_of_mem _ hd)⟩
      refine (List.mem_cons.1 hp).resolve_left ?_
      rintro rfl
      have hb := hle b (by simp) ((List.pairwise_cons.1 hrest).1 c hc)
      exact absurd (hfirst b List.mem_cons_self) (Nat.not_lt.2 hb)

theorem pairwise_inside (t : ScopeTree) (offset : Nat) :
    (root :: t.inside offset).Pairwise (· < ·) := by
  refine List.pairwise_cons.2 ⟨fun c hc => ?_, List.pairwise_lt_range.filter _⟩
  exact Nat.pos_of_ne_zero (mem_inside.1 hc).1

/-- **The scopes around an offset are each in the one before.** -/
theorem WellScoped.isPath_inside (h : t.WellScoped) (offset : Nat) :
    t.IsPath (root :: t.inside offset) := by
  refine isChain_of_pairwise_lt (pairwise_inside t offset) fun c hc => ?_
  obtain ⟨hroot, hin⟩ := mem_inside.1 hc
  obtain ⟨k, rfl⟩ := Nat.exists_eq_succ_of_ne_zero hroot
  obtain ⟨s, hs, -⟩ := contains_iff.1 hin
  obtain ⟨p, -, hp, -⟩ := h.parent k s hs
  have hparent : t.parent? (k + 1) = some p := parent?_eq_some.2 ⟨s, hs, hp⟩
  refine ⟨p, h.parent_mem hparent hin, h.parent_lt hparent, hparent, fun b hb hlt => ?_⟩
  rcases List.mem_cons.1 hb with rfl | hb
  · exact Nat.zero_le _
  · obtain ⟨p', hp', hle⟩ := h.le_parent hlt (mem_inside.1 hb).2 hin
    obtain rfl : p = p' := Option.some.inj (hparent.symm.trans hp')
    exact hle

/-! ## The walk down -/

theorem mem_children {s : Scope} :
    (offset, c) ∈ s.children ↔ (offset, ScopeEntry.child c) ∈ s.entries := by
  unfold Scope.children
  rw [List.mem_filterMap]
  constructor
  · rintro ⟨⟨o, entry⟩, hmem, heq⟩
    cases entry <;> cases heq
    exact hmem
  · exact fun hmem => ⟨_, hmem, rfl⟩

theorem getLast?_eq_of_pairwise_lt {l : List (Nat × Nat)} {x : Nat × Nat}
    (hlt : l.Pairwise (·.1 < ·.1)) (hx : x ∈ l) (hle : ∀ y ∈ l, y.1 ≤ x.1) :
    l.getLast? = some x := by
  obtain ⟨before, after, rfl⟩ := List.append_of_mem hx
  cases after with
  | nil => exact List.getLast?_concat
  | cons y after =>
    have hpairwise := (List.pairwise_cons.1 (List.pairwise_append.1 hlt).2.1).1
    have hy : y ∈ before ++ x :: y :: after := by simp
    exact absurd (hpairwise y List.mem_cons_self) (Nat.not_lt.2 (hle y hy))

theorem lastChild?_eq_some : t.lastChild? p offset = some c ↔
    ∃ (s : Scope) (o : Nat), t.scopes[p]? = some s
      ∧ (s.children.filter (·.1 ≤ offset)).getLast? = some (o, c) := by
  unfold lastChild?
  simp only [Option.bind_eq_bind, Option.bind_eq_some_iff, Option.pure_def, Option.some_inj]
  constructor
  · rintro ⟨s, hs, ⟨o, child⟩, hlast, rfl⟩
    exact ⟨s, o, hs, hlast⟩
  · rintro ⟨s, o, hs, hlast⟩
    exact ⟨s, hs, (o, c), hlast, rfl⟩

/-- Entries of one kind are in the order of all. -/
theorem pairwise_filterMap_entries {entries : List (Nat × ScopeEntry)}
    {f : Nat × ScopeEntry → Option (Nat × Nat)} (hf : ∀ x, ∀ y ∈ f x, y.1 = x.1)
    (h : entries.Pairwise (·.1 < ·.1)) : (entries.filterMap f).Pairwise (·.1 < ·.1) := by
  refine List.pairwise_filterMap.2 (h.imp fun {x y} hlt a ha b hb => ?_)
  rw [hf x a ha, hf y b hb]
  exact hlt

theorem pairwise_children {s : Scope} (h : s.entries.Pairwise (·.1 < ·.1)) :
    s.children.Pairwise (·.1 < ·.1) := by
  refine pairwise_filterMap_entries ?_ h
  rintro ⟨o, entry⟩ y hy
  cases entry <;> cases hy
  rfl

namespace WellScoped

theorem mem_children_iff (h : t.WellScoped) {s : Scope} (hs : t.scopes[p]? = some s) {o : Nat} :
    (o, c) ∈ s.children ↔
      ∃ s' : Scope, t.scopes[c]? = some s' ∧ s'.parent = some p ∧ s'.span.start = o := by
  rw [mem_children, ← holds_iff hs, h.child p o c]

theorem lastChild?_parent (h : t.WellScoped) (hlast : t.lastChild? p offset = some c) :
    t.parent? c = some p := by
  obtain ⟨s, o, hs, hlast⟩ := lastChild?_eq_some.1 hlast
  have hmem := List.mem_of_mem_filter (List.mem_of_getLast? hlast)
  obtain ⟨s', hs', hparent, -⟩ := (h.mem_children_iff hs).1 hmem
  exact parent?_eq_some.2 ⟨s', hs', hparent⟩

/-- **The last scope that opens at or before an offset** is the one around it, if any
is: one that opens later is inside it, and no child of the same scope. -/
theorem lastChild?_eq (h : t.WellScoped) (hparent : t.parent? c = some p)
    (hin : t.contains c offset = true) : t.lastChild? p offset = some c := by
  obtain ⟨s, hs, hcontains⟩ := contains_iff.1 hin
  obtain ⟨s', hs', hp⟩ := parent?_eq_some.1 hparent
  obtain rfl : s = s' := Option.some.inj (hs.symm.trans hs')
  have hspan := h.span s (List.mem_of_getElem? hs)
  have hlt : p < t.scopes.length :=
    Nat.lt_trans (h.parent_lt hparent) (List.getElem?_eq_some_iff.1 hs).1
  have hscope := List.getElem?_eq_getElem hlt
  refine lastChild?_eq_some.2 ⟨_, s.span.start, hscope, getLast?_eq_of_pairwise_lt ?_ ?_ ?_⟩
  · exact (pairwise_children (h.sorted _ (List.getElem_mem hlt))).filter _
  · refine List.mem_filter.2 ⟨(h.mem_children_iff hscope).2 ⟨s, hs, hp, rfl⟩, ?_⟩
    rw [decide_eq_true_eq]
    omega
  · rintro ⟨o, c'⟩ hmem
    obtain ⟨hchild, hle⟩ := List.mem_filter.1 hmem
    obtain ⟨s', hs', hp', rfl⟩ := (h.mem_children_iff hscope).1 hchild
    have hle' : s'.span.start ≤ offset := of_decide_eq_true hle
    have hspan' := (h.span s' (List.mem_of_getElem? hs')).1
    show s'.span.start ≤ s.span.start
    rcases Nat.lt_trichotomy c c' with hlt' | rfl | hlt'
    · rcases h.apart c c' s s' hlt' hs hs' with ⟨q, hq, hcq⟩ | hafter
      · obtain rfl : p = q := Option.some.inj (hp'.symm.trans hq)
        exact absurd (h.parent_lt hparent) (Nat.not_lt.2 hcq)
      · omega
    · rw [Option.some.inj (hs.symm.trans hs')]
    · rcases h.apart c' c s' s hlt' hs' hs with ⟨q, hq, hcq⟩ | ⟨hafter, -⟩
      · obtain rfl : p = q := Option.some.inj (hp.symm.trans hq)
        exact absurd (h.parent_lt (parent?_eq_some.2 ⟨s', hs', hp'⟩)) (Nat.not_lt.2 hcq)
      · exact Nat.le_trans hspan' hafter

/-- The walk down a path of scopes around an offset comes to its end, if it may take that
many steps and no scope there goes further. -/
theorem descend_eq_getLast (h : t.WellScoped) (hpath : t.IsPath (c :: path))
    (hin : ∀ b ∈ path, t.contains b offset = true)
    (hend : ∀ b, t.parent? b = some ((c :: path).getLast (List.cons_ne_nil c path)) →
      t.contains b offset = false)
    (hsteps : path.length ≤ steps) :
    t.descend offset steps c = (c :: path).getLast (List.cons_ne_nil c path) := by
  induction path generalizing c steps with
  | nil =>
    cases steps with
    | zero => rfl
    | succ steps =>
      rw [descend]
      cases hlast : t.lastChild? c offset with
      | none => rfl
      | some b =>
        rw [List.getLast_singleton] at hend ⊢
        exact if_neg (by rw [hend b (h.lastChild?_parent hlast)]; exact Bool.false_ne_true)
  | cons b path ih =>
    obtain ⟨hparent, hpath⟩ := List.isChain_cons_cons.1 hpath
    have hb := hin b List.mem_cons_self
    cases steps with
    | zero => cases hsteps
    | succ steps =>
      rw [descend, h.lastChild?_eq hparent hb]
      show (if t.contains b offset then _ else _) = _
      rw [if_pos hb, List.getLast_cons_cons]
      rw [List.getLast_cons_cons] at hend
      exact ih hpath (fun d hd => hin d (List.mem_cons_of_mem _ hd)) hend
        (Nat.le_of_succ_le_succ hsteps)

/-- **The innermost scope around an offset.** -/
theorem scopeAt_eq_getLast (h : t.WellScoped) (offset : Nat)
    (hlimit : (t.inside offset).length ≤ walkLimit) :
    t.scopeAt offset = (root :: t.inside offset).getLast (List.cons_ne_nil _ _) := by
  refine h.descend_eq_getLast (h.isPath_inside offset) (fun b hb => (mem_inside.1 hb).2)
    (fun b hparent => ?_) hlimit
  -- a scope further inside would have a greater number than the last one
  rw [Bool.eq_false_iff]
  intro hin
  have hlt := h.parent_lt hparent
  have hmem : b ∈ root :: t.inside offset :=
    List.mem_cons_of_mem _ (mem_inside.2 ⟨Nat.ne_of_gt (Nat.zero_lt_of_lt hlt), hin⟩)
  have hle := ((pairwise_inside t offset).imp Nat.le_of_lt).rel_getLast hmem
  exact absurd hlt (Nat.not_lt.2 hle)

end WellScoped

/-! ## The walk up -/

/-- The scopes from one up to the whole text, if they are not too many. -/
theorem ancestors_eq {c : Nat} {above : List Nat}
    (hpath : (c :: above).IsChain fun c p => t.parent? c = some p)
    (hroot : t.parent? ((c :: above).getLast (List.cons_ne_nil c above)) = none)
    (hsteps : (c :: above).length ≤ steps) : t.ancestors steps c = c :: above := by
  induction above generalizing c steps with
  | nil =>
    cases steps with
    | zero => cases hsteps
    | succ steps =>
      rw [List.getLast_singleton, parent?] at hroot
      rw [ancestors, hroot]
  | cons p above ih =>
    obtain ⟨hparent, hpath⟩ := List.isChain_cons_cons.1 hpath
    cases steps with
    | zero => cases hsteps
    | succ steps =>
      rw [List.getLast_cons_cons] at hroot
      rw [parent?] at hparent
      rw [ancestors, hparent]
      exact congrArg _ (ih hpath hroot (Nat.le_of_succ_le_succ hsteps))

/-- **The scopes around an offset, as a walk up finds them.** -/
theorem WellScoped.chain_eq (h : t.WellScoped) (offset : Nat)
    (hlimit : (root :: t.inside offset).length ≤ walkLimit) :
    t.chain ((root :: t.inside offset).getLast (List.cons_ne_nil _ _))
      = root :: t.inside offset := by
  have hpath := List.isChain_reverse.2 (h.isPath_inside offset)
  have hne := List.cons_ne_nil root (t.inside offset)
  have hreverse : (root :: t.inside offset).reverse
      = (root :: t.inside offset).getLast hne :: (root :: t.inside offset).dropLast.reverse := by
    rw [← List.reverse_concat', List.dropLast_append_getLast hne]
  have hup : t.ancestors walkLimit ((root :: t.inside offset).getLast hne)
      = (root :: t.inside offset).getLast hne :: (root :: t.inside offset).dropLast.reverse := by
    refine ancestors_eq ?_ ?_ ?_
    · rw [← hreverse]
      exact hpath
    · simp only [← hreverse, List.getLast_reverse]
      exact h.parent?_root
    · rw [← hreverse, List.length_reverse]
      exact hlimit
  rw [chain, hup, ← hreverse, List.reverse_reverse]

/-! ## What scopes define before an offset -/

theorem mem_definitions {s : Scope} {i : Nat} :
    (offset, i) ∈ s.definitions ↔ (offset, ScopeEntry.definition i) ∈ s.entries := by
  unfold Scope.definitions
  rw [List.mem_filterMap]
  constructor
  · rintro ⟨⟨o, entry⟩, hmem, heq⟩
    cases entry <;> cases heq
    exact hmem
  · exact fun hmem => ⟨_, hmem, rfl⟩

theorem pairwise_definitions {s : Scope} (h : s.entries.Pairwise (·.1 < ·.1)) :
    s.definitions.Pairwise (·.1 < ·.1) := by
  refine pairwise_filterMap_entries ?_ h
  rintro ⟨o, entry⟩ y hy
  cases entry <;> cases hy
  rfl

namespace WellScoped

variable {d : Definition}

theorem mem_ownedBefore (h : t.WellScoped) : d ∈ t.ownedBefore c offset ↔
    ∃ i, t.definitions[i]? = some d ∧ t.Holds c d.offset (.definition i) ∧ d.offset < offset := by
  unfold ownedBefore
  cases hs : t.scopes[c]? with
  | none =>
    refine ⟨nofun, ?_⟩
    rintro ⟨i, -, ⟨s, hs', -⟩, -⟩
    rw [hs] at hs'
    cases hs'
  | some s =>
    have hholds : ∀ {o i : Nat}, (o, i) ∈ s.definitions ↔ t.Holds c o (.definition i) := by
      intro o i
      rw [mem_definitions, holds_iff hs]
    show d ∈ (s.definitions.filter (·.1 < offset)).filterMap (fun x => t.definitions[x.2]?) ↔ _
    rw [List.mem_filterMap]
    constructor
    · rintro ⟨⟨o, i⟩, hmem, hd⟩
      obtain ⟨hmem, hlt⟩ := List.mem_filter.1 hmem
      obtain ⟨d', hd', rfl⟩ := h.definition c o i (hholds.1 hmem)
      obtain rfl : d = d' := Option.some.inj (hd.symm.trans hd')
      exact ⟨i, hd, hholds.1 hmem, of_decide_eq_true hlt⟩
    · rintro ⟨i, hd, hmem, hlt⟩
      exact ⟨(d.offset, i), List.mem_filter.2 ⟨hholds.2 hmem, decide_eq_true hlt⟩, hd⟩

/-- A scope has its definitions in order. -/
theorem pairwise_ownedBefore (h : t.WellScoped) (c offset : Nat) :
    (t.ownedBefore c offset).Pairwise (·.offset < ·.offset) := by
  unfold ownedBefore
  cases hs : t.scopes[c]? with
  | none => exact .nil
  | some s =>
    have hoffset : ∀ {x : Nat × Nat} {d : Definition}, x ∈ s.definitions →
        t.definitions[x.2]? = some d → d.offset = x.1 := by
      rintro ⟨o, i⟩ d hmem hd
      obtain ⟨d', hd', heq⟩ := h.definition c o i ((holds_iff hs).2 (mem_definitions.1 hmem))
      rwa [Option.some.inj (hd.symm.trans hd')]
    show ((s.definitions.filter (·.1 < offset)).filterMap
      (fun x => t.definitions[x.2]?)).Pairwise _
    have hsorted := (pairwise_definitions (h.sorted s (List.mem_of_getElem? hs))).filter
      (fun x => decide (x.1 < offset))
    refine List.pairwise_filterMap.2 (hsorted.imp_of_mem fun {x y} hx hy hlt d hd d' hd' => ?_)
    rw [hoffset (List.mem_of_mem_filter hx) hd, hoffset (List.mem_of_mem_filter hy) hd']
    exact hlt

/-- **What a scope defines before an offset it defines before the scopes inside it that
are around the offset.** -/
theorem offset_lt (h : t.WellScoped) {d' : Definition} (hlt : c < c')
    (hin : t.contains c' offset = true) (hd : d ∈ t.ownedBefore c offset)
    (hd' : d' ∈ t.ownedBefore c' offset) : d.offset < d'.offset := by
  obtain ⟨i, -, hholds, hbefore⟩ := h.mem_ownedBefore.1 hd
  obtain ⟨j, -, hholds', -⟩ := h.mem_ownedBefore.1 hd'
  obtain ⟨s, hs, hcontains⟩ := contains_iff.1 hin
  have hstart := h.behind c' s d'.offset j hs hholds'
  refine Nat.lt_of_not_le fun hle => ?_
  have hinside := h.inside c' c s d.offset i hs hholds (Nat.le_trans hstart hle) (by omega)
  exact absurd hlt (Nat.not_lt.2 hinside)

/-- What is visible comes in source order. -/
theorem pairwise_flatMap_ownedBefore (h : t.WellScoped) (offset : Nat) :
    ((root :: t.inside offset).flatMap (t.ownedBefore · offset)).Pairwise
      (·.offset < ·.offset) := by
  refine List.pairwise_flatMap.2 ⟨fun c _ => h.pairwise_ownedBefore c offset, ?_⟩
  refine (pairwise_inside t offset).imp_of_mem fun {c c'} _ hc' hlt d hd d' hd' => ?_
  refine h.offset_lt hlt ((List.mem_cons.1 hc').elim ?_ fun hc' => (mem_inside.1 hc').2) hd hd'
  rintro rfl
  exact absurd hlt (Nat.not_lt_zero _)

/-! ## What is visible -/

theorem descend_contains (hc : c = root ∨ t.contains c offset = true) :
    t.descend offset steps c = root
      ∨ t.contains (t.descend offset steps c) offset = true := by
  induction steps generalizing c with
  | zero => exact hc
  | succ steps ih =>
    rw [descend]
    cases t.lastChild? c offset with
    | none => exact hc
    | some b =>
      show (if t.contains b offset then _ else _) = root ∨ t.contains (if _ then _ else _) _ = true
      by_cases hin : t.contains b offset = true
      · rw [if_pos hin]
        exact ih (.inr hin)
      · rw [if_neg hin]
        exact hc

theorem contains_of_mem_ancestors (h : t.WellScoped) {b : Nat} (hb : b ∈ t.ancestors steps c)
    (hc : c = root ∨ t.contains c offset = true) :
    b = root ∨ t.contains b offset = true := by
  induction steps generalizing c with
  | zero => cases hb
  | succ steps ih =>
    rw [ancestors] at hb
    rcases List.mem_cons.1 hb with rfl | hb
    · exact hc
    · cases hparent : t.parent? c with
      | none =>
        rw [parent?] at hparent
        rw [hparent] at hb
        cases hb
      | some p =>
        have hin : t.contains c offset = true := by
          refine hc.resolve_left ?_
          rintro rfl
          rw [h.parent?_root] at hparent
          cases hparent
        refine ih ?_ (.inr (h.contains_parent hparent hin))
        rw [parent?] at hparent
        rwa [hparent] at hb

theorem index_eq (h : t.WellScoped) {i j : Nat} (hi : t.definitions[i]? = some d)
    (hj : t.definitions[j]? = some d) : i = j := by
  obtain ⟨hilt, hi⟩ := List.getElem?_eq_some_iff.1 hi
  obtain ⟨hjlt, hj⟩ := List.getElem?_eq_some_iff.1 hj
  have hpairwise := List.pairwise_iff_getElem.1 h.ascending
  rcases Nat.lt_trichotomy i j with hlt | heq | hlt
  · have hoffset := hpairwise i j hilt hjlt hlt
    rw [hi, hj] at hoffset
    exact absurd hoffset (Nat.lt_irrefl _)
  · exact heq
  · have hoffset := hpairwise j i hjlt hilt hlt
    rw [hi, hj] at hoffset
    exact absurd hoffset (Nat.lt_irrefl _)

/-- **Nothing is found that is not visible**, however deeply scopes are nested. -/
theorem exists_of_mem_visibleAt (h : t.WellScoped) (hd : d ∈ t.visibleAt offset) :
    ∃ i c, t.definitions[i]? = some d ∧ t.Holds c d.offset (.definition i)
      ∧ d.offset < offset ∧ (c = root ∨ t.contains c offset = true) := by
  obtain ⟨c, hc, hd⟩ := List.mem_flatMap.1 hd
  obtain ⟨i, hi, hholds, hlt⟩ := h.mem_ownedBefore.1 hd
  have hat : t.scopeAt offset = root ∨ t.contains (t.scopeAt offset) offset = true :=
    descend_contains (.inl rfl)
  exact ⟨i, c, hi, hholds, hlt, h.contains_of_mem_ancestors (List.mem_reverse.1 hc) hat⟩

/-- Along a path numbers ascend, so it is no longer than there are scopes. -/
theorem length_add_le_of_isPath (h : t.WellScoped) (hpath : t.IsPath (c :: path))
    (hc : c < t.scopes.length) : (c :: path).length + c ≤ t.scopes.length := by
  induction path generalizing c with
  | nil => rwa [List.length_singleton, Nat.add_comm]
  | cons b path ih =>
    obtain ⟨hparent, hrest⟩ := List.isChain_cons_cons.1 hpath
    obtain ⟨s, hs, -⟩ := parent?_eq_some.1 hparent
    have hle := ih hrest (List.getElem?_eq_some_iff.1 hs).1
    have hlt := h.parent_lt hparent
    rw [List.length_cons]
    omega

theorem length_le_of_isPath (h : t.WellScoped) (hpath : t.IsPath (root :: path)) :
    (root :: path).length ≤ t.scopes.length := by
  obtain ⟨s, hs, -⟩ := h.file
  exact h.length_add_le_of_isPath hpath (List.getElem?_eq_some_iff.1 hs).1

/-- **Lexical visibility** in scopes that lie in the text as constructs do. -/
theorem visibleAt_eq (h : t.WellScoped) (offset : Nat)
    (hlimit : (root :: t.inside offset).length ≤ walkLimit) :
    t.visibleAt offset = (root :: t.inside offset).flatMap (t.ownedBefore · offset) := by
  rw [visibleAt, available, h.scopeAt_eq_getLast offset (Nat.le_of_succ_le hlimit),
    h.chain_eq offset hlimit]

end WellScoped

end ScriptLens.ScopeTree
