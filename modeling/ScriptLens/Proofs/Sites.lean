import Mathlib.Data.List.Infix
import ScriptLens.Proofs.Coverage
import ScriptLens.Proofs.Numbering
import ScriptLens.Scope.Build

/-!
# Nodes and the nodes around them

What a node means depends on the nodes around it: a declaration belongs to the
scope of the nearest construct that opens one, and a block is a scope unless it is
the body of a function. A `Site` is a node together with the nodes around it, the
nearest first, and `Node.sites` lists the sites of a tree in pre-order.

The second half says, by looking at sites alone, what the names and the scopes of a
text are: `Node.declarations` and `Node.openings` list them in source order, and
`Node.scopeBelow` numbers the scope that something with given nodes around it
belongs to. Nothing of this knows how scopes are built.
-/

namespace ScriptLens

open scoped List

/-- **A node and the nodes around it**, the nearest first. -/
structure Site where
  /-- The node. -/
  node : Node
  /-- The nodes around it, from its parent up to the root. -/
  above : List Node

namespace Site

/-- The nodes from a node up to the root. -/
def path (x : Site) : List Node := x.node :: x.above

/-- How many nodes of a kind are on the way from the root to a node, the node
included. -/
def count (kind : NodeKind) (x : Site) : Nat := x.path.countP (·.kind == kind)

/-- The site of a tree that stands below one more node. -/
def below (n : Node) (x : Site) : Site := ⟨x.node, x.above ++ [n]⟩

theorem count_below (kind : NodeKind) (n : Node) (x : Site) :
    (x.below n).count kind = x.count kind + if n.kind == kind then 1 else 0 := by
  rw [count, path, below, ← List.cons_append, List.countP_append, List.countP_singleton]
  rfl

/-- Whether a site is around another one. -/
def IsAround (x y : Site) : Prop := x.path <:+ y.above

end Site

namespace Node

/-- **The sites of a tree** whose root has the nodes `above` around it, in
pre-order. -/
def sites (above : List Node) (n : Node) : List Site :=
  ⟨n, above⟩ :: n.children.attach.flatMap fun c => c.1.sites (n :: above)
termination_by n
decreasing_by exact sizeOf_lt_of_mem_children c.2

variable {n c : Node} {above : List Node} {x y : Site}

theorem sites_eq (above : List Node) (n : Node) :
    n.sites above = ⟨n, above⟩ :: n.children.flatMap (sites (n :: above)) := by
  rw [sites]
  simp

theorem mem_sites_iff :
    x ∈ n.sites above ↔ x = ⟨n, above⟩ ∨ ∃ c ∈ n.children, x ∈ c.sites (n :: above) := by
  rw [sites_eq, List.mem_cons, List.mem_flatMap]

theorem mem_sites_self (above : List Node) (n : Node) : ⟨n, above⟩ ∈ n.sites above :=
  mem_sites_iff.2 (.inl rfl)

/-- The sites of a tree that stands below more nodes. -/
theorem sites_append (n : Node) (above more : List Node) :
    n.sites (above ++ more) = (n.sites above).map fun x => ⟨x.node, x.above ++ more⟩ := by
  induction n using childInduction generalizing above with
  | step n ih =>
    rw [sites_eq, sites_eq, List.map_cons, List.map_flatMap]
    refine congrArg _ (List.flatMap_congr fun c hc => ?_)
    exact ih c hc (n :: above)

/-- The sites of a part are those of the part alone, below its node. -/
theorem sites_child (c n : Node) : c.sites [n] = (c.sites []).map (Site.below n) :=
  sites_append c [] [n]

theorem below_mem_sites (hc : c ∈ n.children) (hx : x ∈ c.sites []) :
    x.below n ∈ n.sites [] := by
  refine mem_sites_iff.2 (.inr ⟨c, hc, ?_⟩)
  rw [sites_child]
  exact List.mem_map_of_mem hx

theorem map_node_sites (n : Node) (above : List Node) :
    (n.sites above).map Site.node ~ n.postorder := by
  induction n using childInduction generalizing above with
  | step n ih =>
    rw [sites_eq, postorder_eq, List.map_cons, List.map_flatMap]
    refine ((List.Perm.flatMap_left _ fun c hc => ih c hc (n :: above)).cons n).trans ?_
    exact (List.perm_append_singleton _ _).symm

theorem mem_postorder_of_mem_sites (h : x ∈ n.sites above) : x.node ∈ n.postorder :=
  (map_node_sites n above).mem_iff.1 (List.mem_map_of_mem h)

/-- Every site of a tree but its root is below the root. -/
theorem suffix_of_mem_sites (h : x ∈ n.sites above) :
    x = ⟨n, above⟩ ∨ (n :: above) <:+ x.above := by
  induction n using childInduction generalizing above with
  | step n ih =>
    refine (mem_sites_iff.1 h).imp_right ?_
    rintro ⟨c, hc, hx⟩
    rcases ih c hc hx with rfl | hsuffix
    · exact List.suffix_rfl
    · exact (List.suffix_cons _ _).trans hsuffix

/-- The parts of a node in a tree are in the tree. -/
theorem child_mem_sites (h : x ∈ n.sites above) (hc : c ∈ x.node.children) :
    ⟨c, x.path⟩ ∈ n.sites above := by
  induction n using childInduction generalizing above with
  | step n ih =>
    refine mem_sites_iff.2 (.inr ?_)
    rcases mem_sites_iff.1 h with rfl | ⟨d, hd, hx⟩
    · exact ⟨c, hc, mem_sites_self _ _⟩
    · exact ⟨d, hd, ih d hd hx⟩

/-- An element of a concatenation is in one of its parts, with all parts before that one
and some of that one's elements before it. -/
theorem exists_of_flatMap_eq_append_cons {α β : Type} {f : α → List β} {l : List α}
    {before after : List β} {b : β} (h : l.flatMap f = before ++ b :: after) :
    ∃ (l₁ l₂ : List α) (a : α) (before' after' : List β), l = l₁ ++ a :: l₂ ∧
      f a = before' ++ b :: after' ∧ before = l₁.flatMap f ++ before' := by
  induction l generalizing before with
  | nil => simp at h
  | cons a l ih =>
    rw [List.flatMap_cons, List.append_eq_append_iff] at h
    rcases h with ⟨more, rfl, hmore⟩ | ⟨more, heq, hmore⟩
    · obtain ⟨l₁, l₂, a', before', after', rfl, hfa, rfl⟩ := ih hmore
      exact ⟨a :: l₁, l₂, a', before', after', rfl, hfa, by simp⟩
    · cases more with
      | nil =>
        obtain ⟨l₁, l₂, a', before', after', rfl, hfa, heq'⟩ := @ih [] hmore.symm
        refine ⟨a :: l₁, l₂, a', before', after', rfl, hfa, ?_⟩
        rw [List.flatMap_cons, List.append_assoc, ← heq', heq, List.append_nil, List.append_nil]
      | cons c more =>
        obtain ⟨rfl, rfl⟩ := List.cons.inj hmore
        exact ⟨[], l, a, before, more, rfl, heq, rfl⟩

/-- **What is around a site comes before it.** -/
theorem mem_of_isAround {before after : List Site} (h : n.sites [] = before ++ y :: after)
    (hx : x.IsAround y) : x ∈ before := by
  -- stated for a tree below other nodes: those are around as well, but not in the tree
  have key : ∀ above before after, n.sites above = before ++ y :: after →
      x.path <:+ above ∨ x ∈ before := by
    clear h
    induction n using childInduction with
    | step n ih =>
      intro above before after h
      rw [sites_eq] at h
      cases before with
      | nil =>
        obtain ⟨rfl, -⟩ := List.cons.inj h
        exact .inl hx
      | cons z before =>
        obtain ⟨rfl, hrest⟩ := List.cons.inj h
        obtain ⟨l₁, l₂, c, before', after', hl, hc, rfl⟩ :=
          exists_of_flatMap_eq_append_cons hrest
        have hmem : c ∈ n.children := by rw [hl]; simp
        rcases ih c hmem (n :: above) before' after' hc with hsuffix | hx
        · rcases List.suffix_cons_iff.1 hsuffix with heq | hsuffix
          · obtain ⟨hnode, habove⟩ := List.cons.inj heq
            exact .inr (List.mem_cons.2 (.inl (by rw [← hnode, ← habove])))
          · exact .inl hsuffix
        · exact .inr (List.mem_cons_of_mem _ (List.mem_append_right _ hx))
  refine (key [] before after h).resolve_left fun hsuffix => ?_
  exact absurd (List.suffix_nil.1 hsuffix) (List.cons_ne_nil _ _)

/-- **What is around a site of a tree is a site of the tree.** -/
theorem mem_sites_of_isAround (h : y ∈ n.sites []) (hx : x.IsAround y) : x ∈ n.sites [] := by
  obtain ⟨before, after, heq⟩ := List.append_of_mem h
  rw [heq]
  exact List.mem_append_left _ (mem_of_isAround heq hx)

/-! ## Spans and numbers -/

/-- A site of a well nested tree lies inside its root. -/
theorem WellNested.covers_sites (h : n.WellNested) (hx : x ∈ n.sites above) :
    n.span.start ≤ x.node.span.start ∧ x.node.span.stop ≤ n.span.stop := by
  induction n using childInduction generalizing above with
  | step n ih =>
    obtain ⟨hchildren, hself⟩ := forall_mem_postorder.1 h
    rcases mem_sites_iff.1 hx with rfl | ⟨c, hc, hx⟩
    · exact ⟨Nat.le_refl _, Nat.le_refl _⟩
    · obtain ⟨hstart, hstop⟩ := ih c hc (hchildren c hc) hx
      obtain ⟨hstart', hstop'⟩ := hself.covers c hc
      exact ⟨Nat.le_trans hstart' hstart, Nat.le_trans hstop hstop'⟩

theorem WellNested.of_mem_sites (h : n.WellNested) (hx : x ∈ n.sites above) :
    x.node.WellNested := by
  induction n using childInduction generalizing above with
  | step n ih =>
    rcases mem_sites_iff.1 hx with rfl | ⟨c, hc, hx⟩
    · exact h
    · exact ih c hc ((forall_mem_postorder.1 h).1 c hc) hx

/-- What is around a site covers it. -/
theorem WellNested.covers_of_isAround (h : n.WellNested) (hy : y ∈ n.sites [])
    (hx : x.IsAround y) :
    x.node.span.start ≤ y.node.span.start ∧ y.node.span.stop ≤ x.node.span.stop := by
  have key : ∀ (m : Node) (above : List Node), m.WellNested → y ∈ m.sites above →
      (∀ a ∈ above, a.span.start ≤ m.span.start ∧ m.span.stop ≤ a.span.stop) →
        ∀ a ∈ y.above, a.span.start ≤ y.node.span.start ∧ y.node.span.stop ≤ a.span.stop := by
    intro m
    induction m using childInduction with
    | step m ih =>
      intro above hm hy habove
      obtain ⟨hchildren, hself⟩ := forall_mem_postorder.1 hm
      rcases mem_sites_iff.1 hy with rfl | ⟨c, hc, hy⟩
      · exact habove
      · refine ih c hc (m :: above) (hchildren c hc) hy fun a ha => ?_
        have hcovers := hself.covers c hc
        rcases List.mem_cons.1 ha with rfl | ha
        · exact hcovers
        · have hbelow := habove a ha
          exact ⟨Nat.le_trans hbelow.1 hcovers.1, Nat.le_trans hcovers.2 hbelow.2⟩
  refine key n [] h hy (by simp) x.node (hx.subset ?_)
  exact List.mem_cons_self

/-- The parts of a node do not overlap, also where others stand between them. -/
theorem WellNested.pairwise_children (h : n.WellNested) :
    n.children.Pairwise fun c c' => c.span.stop ≤ c'.span.start := by
  obtain ⟨hchildren, hself⟩ := forall_mem_postorder.1 h
  have hle : ∀ c ∈ n.children, c.span.start ≤ c.span.stop := fun c hc =>
    (hchildren c hc c c.mem_postorder_self).start_le_stop
  have hchain := hself.isChain
  generalize n.children = cs at hle hchain
  induction cs with
  | nil => exact .nil
  | cons c cs ih =>
    have hrest := ih (fun d hd => hle d (List.mem_cons_of_mem _ hd)) hchain.of_cons
    refine .cons (fun d hd => ?_) hrest
    cases cs with
    | nil => cases hd
    | cons e es =>
      have hfirst : c.span.stop ≤ e.span.start := hchain.rel
      rcases List.mem_cons.1 hd with rfl | hd
      · exact hfirst
      · have hmiddle := hle e (List.mem_cons_of_mem _ List.mem_cons_self)
        exact Nat.le_trans hfirst (Nat.le_trans hmiddle ((List.pairwise_cons.1 hrest).1 d hd))

/-- **Of two sites of a tree the first is around the second or ends before it.** -/
theorem WellNested.pairwise_sites (h : n.WellNested) (above : List Node) :
    (n.sites above).Pairwise fun x y => x.IsAround y ∨ x.node.span.stop ≤ y.node.span.start := by
  induction n using childInduction generalizing above with
  | step n ih =>
    have hchildren : ∀ c ∈ n.children, c.WellNested := (forall_mem_postorder.1 h).1
    rw [sites_eq, List.pairwise_cons, List.pairwise_flatMap]
    refine ⟨fun y hy => .inl ?_, fun c hc => ih c hc (hchildren c hc) _, ?_⟩
    · obtain ⟨c, -, hy⟩ := List.mem_flatMap.1 hy
      rcases suffix_of_mem_sites hy with rfl | hsuffix
      · exact List.suffix_rfl
      · exact (List.suffix_cons _ _).trans hsuffix
    · refine h.pairwise_children.imp_of_mem fun hc hc' hle x hx y hy => .inr ?_
      have hstop := ((hchildren _ hc).covers_sites hx).2
      have hstart := ((hchildren _ hc').covers_sites hy).1
      exact Nat.le_trans hstop (Nat.le_trans hle hstart)

/-- What is below a site of a numbered tree is numbered. -/
theorem Numbers.of_mem_sites {lower upper : Nat} (h : Numbers lower n.postorder upper)
    (hx : x ∈ n.sites above) : ∃ lower' upper', Numbers lower' x.node.postorder upper' := by
  induction n using childInduction generalizing above lower upper with
  | step n ih =>
    rcases mem_sites_iff.1 hx with rfl | ⟨c, hc, hx⟩
    · exact ⟨lower, upper, h⟩
    · obtain ⟨_, _, hchild⟩ := h.child hc
      exact ih c hc hchild hx

/-- In a numbered tree no two sites have the same number. -/
theorem Numbers.nodup_sites {lower upper : Nat} (h : Numbers lower n.postorder upper)
    (above : List Node) : ((n.sites above).map fun x => x.node.id).Nodup := by
  have hperm := (map_node_sites n above).map Node.id
  rw [List.map_map, h.map_id.1] at hperm
  exact hperm.nodup_iff.2 List.nodup_range'

/-- In a numbered tree the number of a node tells its site. -/
theorem Numbers.site_eq {lower upper : Nat} (h : Numbers lower n.postorder upper)
    (hx : x ∈ n.sites above) (hy : y ∈ n.sites above) (hid : x.node.id = y.node.id) : x = y :=
  List.inj_on_of_nodup_map (h.nodup_sites above) hx hy hid

/-! ## Nodes of one kind on the way from the root -/

/-- **A bound on nodes of a kind**: no way from the root of a tree to a node comes by
more than `limit` of them. -/
def Within (kind : NodeKind) (limit : Nat) (n : Node) : Prop :=
  ∀ x ∈ n.sites [], x.count kind ≤ limit

theorem Within.mono {kind : NodeKind} {limit limit' : Nat} (h : n.Within kind limit)
    (hle : limit ≤ limit') : n.Within kind limit' :=
  fun x hx => Nat.le_trans (h x hx) hle

/-- A node of the kind adds one to the bound of its parts. -/
theorem Within.of_children (kind : NodeKind) {limit : Nat}
    (h : ∀ c ∈ n.children, c.Within kind limit) :
    n.Within kind (limit + if n.kind == kind then 1 else 0) := by
  intro x hx
  rcases mem_sites_iff.1 hx with rfl | ⟨c, hc, hx⟩
  · rw [Site.count, Site.path, List.countP_cons, List.countP_nil]
    exact Nat.add_le_add_right (Nat.zero_le _) _
  · rw [sites_child] at hx
    obtain ⟨y, hy, rfl⟩ := List.mem_map.1 hx
    rw [Site.count_below]
    exact Nat.add_le_add_right (h c hc y hy) _

end Node

/-! ## Names and scopes -/

namespace Node

/-- The part of a declaration that names what it declares, and what that is. -/
def nameSlot? (n : Node) : Option (DefinitionKind × Node) :=
  match n.payload with
  | .functionDeclaration _ _ _ name _ _ => some (.functionDef, name)
  | .classDeclaration _ _ name _ => some (.classDef, name)
  | .variableDeclarator name _ => some (.variableDef, name)
  | .parameter _ name _ => some (.parameterDef, name)
  | .binding _ name => some (.variableDef, name)
  | _ => none

/-- **What a node declares**: the identifier in the place of its name, with its
offset. A placeholder in that place declares nothing. -/
def declares? (n : Node) : Option (String × DefinitionKind × Nat) := do
  let (kind, name) ← n.nameSlot?
  let text ← name.identifierText?
  return (text, kind, name.span.start)

/-- Where the scope starts that a construct opens, and its kind. The scope of a
function starts at its parameters and that of a class behind its name. -/
def scope? (n : Node) : Option (ScopeKind × Nat) :=
  match n.payload with
  | .functionDeclaration _ _ _ _ parameters _ => some (.function, parameters.span.start)
  | .classDeclaration _ _ name _ => some (.classBody, name.span.stop)
  | .block _ => some (.block, n.span.start)
  | _ => none

/-- The body of a function. -/
def body? (n : Node) : Option Node :=
  match n.payload with
  | .functionDeclaration _ _ _ _ _ body => body
  | _ => none

theorem kind_of_body? {n body : Node} (h : n.body? = some body) :
    n.kind = .functionDeclaration := by
  unfold body? at h
  split at h
  · next heq => rw [kind, heq]; rfl
  · cases h

theorem mem_children_of_body? {n body : Node} (h : n.body? = some body) : body ∈ n.children := by
  unfold body? at h
  split at h
  · next heq => simp [children, heq, Payload.children, h]
  · cases h

end Node

namespace Site

/-- Whether a site is the body of the function around it. -/
def isBody (x : Site) : Bool := (x.above.head?.bind Node.body?).any (·.id == x.node.id)

/-- **The scope that a site opens**: every function and class does, and every block
that is not the body of a function. -/
def scope? (x : Site) : Option (ScopeKind × Nat) :=
  if x.node.kind == .block && x.isBody then none else x.node.scope?

/-- Whether a site opens a scope. -/
def opens (x : Site) : Bool := x.scope?.isSome

end Site

theorem Site.opens_of_function {x : Site} (h : x.node.kind = .functionDeclaration) :
    x.opens = true := by
  obtain ⟨⟨id, span, payload⟩, above⟩ := x
  cases payload <;> first | rfl | cases h

/-- A block that opens no scope is the body of a function. -/
theorem Site.isBody_of_not_opens {x : Site} (h : x.node.kind = .block) (hopens : ¬x.opens = true) :
    x.isBody = true := by
  obtain ⟨⟨id, span, payload⟩, above⟩ := x
  cases payload
  case block =>
    by_contra hbody
    refine hopens ?_
    rw [opens, scope?, if_neg (by simp [hbody])]
    rfl
  all_goals cases h

/-- The sites that open the scopes around something with given nodes around it, the
nearest first. -/
def scopesAround : List Node → List Site
  | [] => []
  | a :: above =>
    if Site.opens ⟨a, above⟩ then ⟨a, above⟩ :: scopesAround above else scopesAround above

namespace Node

/-- The sites that open scopes, in source order. -/
def openings (root : Node) : List Site := (root.sites []).filter Site.opens

/-- The sites that declare names, in source order. -/
def declarations (root : Node) : List Site := (root.sites []).filter (·.node.declares?.isSome)

/-- **The number of the scope** that something with given nodes around it belongs to:
that of the nearest of them that opens one, counted in source order after the whole
text. -/
def scopeBelow (root : Node) (above : List Node) : Nat :=
  match (scopesAround above).head? with
  | some x => (root.openings.map (·.node.id)).idxOf x.node.id + 1
  | none => ScopeTree.root

end Node

theorem mem_scopesAround {above : List Node} {x : Site} :
    x ∈ scopesAround above ↔ x.path <:+ above ∧ x.opens = true := by
  induction above with
  | nil => simp [scopesAround, Site.path]
  | cons a above ih =>
    have hsuffix : x.path <:+ a :: above ↔ x = ⟨a, above⟩ ∨ x.path <:+ above := by
      rw [List.suffix_cons_iff, Site.path, List.cons.injEq, Site.mk.injEq]
    rw [hsuffix, scopesAround]
    split
    · next hopens =>
      rw [List.mem_cons, ih, or_and_right]
      refine or_congr_left ⟨?_, And.left⟩
      rintro rfl
      exact ⟨rfl, hopens⟩
    · next hopens =>
      rw [ih, or_and_right]
      refine ⟨.inr, fun h => h.resolve_left ?_⟩
      rintro ⟨rfl, h⟩
      exact hopens h

section Numbers

variable {root : Node} {above : List Node} {x y : Site} {done rest : List Site}

theorem scopesAround_path_of_opens (h : x.opens = true) :
    scopesAround x.path = x :: scopesAround x.above := by
  rw [Site.path, scopesAround, if_pos h]

theorem scopesAround_path_of_not_opens (h : ¬x.opens = true) :
    scopesAround x.path = scopesAround x.above := by
  rw [Site.path, scopesAround, if_neg h]

theorem Node.scopeBelow_path (h : x.opens = true) :
    root.scopeBelow x.path = (root.openings.map (·.node.id)).idxOf x.node.id + 1 := by
  rw [scopeBelow, scopesAround_path_of_opens h]
  rfl

theorem Node.scopeBelow_path_of_not_opens (h : ¬x.opens = true) :
    root.scopeBelow x.path = root.scopeBelow x.above := by
  rw [scopeBelow, scopesAround_path_of_not_opens h]
  rfl

/-- Something belongs to the scope that the nearest site around it opens. -/
theorem Node.scopeBelow_eq (h : (scopesAround above).head? = some y) :
    root.scopeBelow above = root.scopeBelow y.path := by
  have hopens := (mem_scopesAround.1 (List.mem_of_head? h)).2
  rw [scopeBelow_path hopens, scopeBelow, h]

/-- A site opens the scope whose number is that of the sites before it that open one. -/
theorem Node.Numbers.scopeBelow_path {lower upper : Nat}
    (h : Numbers lower root.postorder upper) (hsites : root.sites [] = done ++ x :: rest)
    (hopens : x.opens = true) :
    root.scopeBelow x.path = (done.filter Site.opens).length + 1 := by
  have hnodup := h.nodup_sites []
  rw [hsites, List.map_append, List.map_cons, List.nodup_append] at hnodup
  have hopenings : root.openings = done.filter Site.opens ++ x :: rest.filter Site.opens := by
    rw [openings, hsites, List.filter_append, List.filter_cons_of_pos hopens]
  have hnotMem : x.node.id ∉ (done.filter Site.opens).map (·.node.id) := by
    intro hmem
    obtain ⟨y, hy, hid⟩ := List.mem_map.1 hmem
    exact hnodup.2.2 _ (List.mem_map_of_mem (List.mem_of_mem_filter hy)) _ List.mem_cons_self hid
  rw [Node.scopeBelow_path hopens, hopenings, List.map_append, List.map_cons,
    List.idxOf_append_of_notMem hnotMem, List.idxOf_cons_self, List.length_map, Nat.add_zero]

/-- Something belongs to a scope that opens before it. -/
theorem Node.scopeBelow_le (hsites : root.sites [] = done ++ x :: rest) :
    root.scopeBelow x.above ≤ (done.filter Site.opens).length := by
  unfold scopeBelow
  cases hhead : (scopesAround x.above).head? with
  | none => exact Nat.zero_le _
  | some y =>
    obtain ⟨haround, hopens⟩ := mem_scopesAround.1 (List.mem_of_head? hhead)
    have hy : y ∈ done := mem_of_isAround hsites haround
    have hmem : y.node.id ∈ (done.filter Site.opens).map (·.node.id) :=
      List.mem_map_of_mem (List.mem_filter.2 ⟨hy, hopens⟩)
    have hlt := List.idxOf_lt_length_of_mem hmem
    rw [List.length_map] at hlt
    show (root.openings.map (·.node.id)).idxOf y.node.id + 1 ≤ _
    rw [openings, hsites, List.filter_append, List.map_append, List.idxOf_append_of_mem hmem]
    exact hlt

/-- The sites that open scopes, with how many come before each. -/
theorem Node.openings_getElem? {i : Nat} :
    root.openings[i]? = some x ↔ ∃ done rest, root.sites [] = done ++ x :: rest
      ∧ x.opens = true ∧ (done.filter Site.opens).length = i := by
  constructor
  · intro h
    obtain ⟨before, after, heq, rfl⟩ : ∃ before after, root.openings = before ++ x :: after
        ∧ before.length = i := by
      obtain ⟨hlt, hget⟩ := List.getElem?_eq_some_iff.1 h
      refine ⟨root.openings.take i, root.openings.drop (i + 1), ?_, ?_⟩
      · rw [← hget, List.cons_getElem_drop_succ, List.take_append_drop]
      · rw [List.length_take, Nat.min_eq_left (Nat.le_of_lt hlt)]
    obtain ⟨done, rest', hsites, hdone, hrest⟩ := List.filter_eq_append_iff.1 heq
    obtain ⟨skipped, rest, rfl, hskipped, hopens, -⟩ := List.filter_eq_cons_iff.1 hrest
    refine ⟨done ++ skipped, rest, by rw [hsites, List.append_assoc], hopens, ?_⟩
    have hnil : skipped.filter Site.opens = [] :=
      List.filter_eq_nil_iff.2 hskipped
    rw [List.filter_append, hnil, List.append_nil, hdone]
  · rintro ⟨done, rest, hsites, hopens, rfl⟩
    rw [openings, hsites, List.filter_append, List.filter_cons_of_pos hopens,
      List.getElem?_append_right (Nat.le_refl _), Nat.sub_self]
    rfl

/-- Of the scopes around a site, outer ones have lower numbers. -/
theorem Node.Numbers.scopeBelow_le_of_isAround {lower upper : Nat}
    (h : Numbers lower root.postorder upper) (hy : y ∈ root.sites []) (haround : x.IsAround y) :
    root.scopeBelow x.path ≤ root.scopeBelow y.above := by
  obtain ⟨node, above⟩ := y
  induction above generalizing node with
  | nil => exact absurd (List.suffix_nil.1 haround) (List.cons_ne_nil _ _)
  | cons a above ih =>
    have hparent : ⟨a, above⟩ ∈ root.sites [] := mem_sites_of_isAround hy List.suffix_rfl
    rcases List.suffix_cons_iff.1 haround with heq | hsuffix
    · rw [heq]
    · refine Nat.le_trans (ih a hparent hsuffix) ?_
      show root.scopeBelow above ≤ root.scopeBelow (Site.path ⟨a, above⟩)
      by_cases hopens : Site.opens ⟨a, above⟩ = true
      · obtain ⟨done, rest, hsites⟩ := List.append_of_mem hparent
        rw [h.scopeBelow_path hsites hopens]
        exact Nat.le_succ_of_le (scopeBelow_le hsites)
      · rw [scopeBelow_path_of_not_opens hopens]

end Numbers

end ScriptLens
