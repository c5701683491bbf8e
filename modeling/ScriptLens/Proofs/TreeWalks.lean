import Mathlib
import ScriptLens.Proofs.NodeLines
import ScriptLens.Proofs.Sites

/-!
# Walks

A walk keeps the nodes that are still to be visited in a list of its own and puts the children
of a node in front of it. Written down by recursion it is a traversal in pre-order that stops
below the kinds it prunes (`Node.traversal`), for trees of any depth, and the list is never
more than the rest of that traversal (`Node.visit_eq_traversal`).

Which nodes a walk comes to is then a matter of the nodes around a node. `Node.sites` lists the
nodes of a tree in pre-order, each with those around it, and pruning leaves out the sites
around which there is a node of a pruned kind (`Node.traversal_eq_sites`). From there on
nothing is about walks any more: that a node is visited once is a matter of the numbers, that
the nodes around it are visited before it is the order of sites, and that the starts of the
nodes do not decrease is that a tree is well nested.
-/

namespace ScriptLens

open scoped List

open Relation

namespace Node

/-! ## Pre-order by recursion -/

/-- **The nodes of a tree in pre-order**, each with its depth, where only the parts of the
nodes whose kind `descend` accepts are gone through. -/
def traversal (descend : NodeKind → Bool) (depth : Nat) (n : Node) : List (Nat × Node) :=
  (depth, n) ::
    if descend n.kind then n.children.attach.flatMap fun c => c.1.traversal descend (depth + 1)
    else []
termination_by n
decreasing_by exact sizeOf_lt_of_mem_children c.2

variable {descend : NodeKind → Bool} {n m a c : Node} {x y : Site}

theorem traversal_eq (descend : NodeKind → Bool) (depth : Nat) (n : Node) :
    n.traversal descend depth = (depth, n) ::
      if descend n.kind then n.children.flatMap (traversal descend (depth + 1)) else [] := by
  rw [traversal]
  simp

/-- A visit goes through one pending node after the other. -/
theorem visit_eq_traversal (descend : NodeKind → Bool) (pending : List (Nat × Node)) :
    visit descend pending = pending.flatMap fun p => p.2.traversal descend p.1 := by
  rw [← map_visit_eq_flatMap (traversal_eq descend) pending, List.map_id'' fun _ => rfl]

/-- **A walk is a traversal.** -/
theorem walk_eq_traversal (descend : NodeKind → Bool) (n : Node) :
    n.walk descend = (n.traversal descend 0).map Prod.snd := by
  rw [walk, visit_eq_traversal, List.flatMap_singleton]

/-- Whether a walk comes to a site: the nodes around it are accepted. -/
def reaches (descend : NodeKind → Bool) (x : Site) : Bool := x.above.all (descend ·.kind)

/-- **A traversal comes to the sites around which all nodes are accepted**, in their order. -/
theorem traversal_eq_sites {above : List Node} (habove : above.all (descend ·.kind) = true) :
    n.traversal descend above.length
      = ((n.sites above).filter (reaches descend)).map fun x => (x.above.length, x.node) := by
  induction n using childInduction generalizing above with
  | step n ih =>
    have hself : reaches descend ⟨n, above⟩ = true := habove
    rw [traversal_eq, sites_eq, List.filter_cons_of_pos hself, List.map_cons]
    refine congrArg _ ?_
    by_cases h : descend n.kind = true
    · have hall : (n :: above).all (descend ·.kind) = true := by
        rw [List.all_cons, h, habove]
        rfl
      rw [if_pos h, List.filter_flatMap, List.map_flatMap]
      exact List.flatMap_congr fun c hc => ih c hc hall
    · -- the node is around all sites below it
      rw [if_neg h, List.filter_eq_nil_iff.2, List.map_nil]
      intro x hx hreaches
      obtain ⟨c, -, hx⟩ := List.mem_flatMap.1 hx
      have hmem : n ∈ x.above := by
        rcases suffix_of_mem_sites hx with rfl | hsuffix
        · exact List.mem_cons_self
        · exact hsuffix.subset (List.mem_cons_of_mem _ List.mem_cons_self)
      exact h (List.all_eq_true.1 hreaches n hmem)

theorem walk_eq_sites (descend : NodeKind → Bool) (n : Node) :
    n.walk descend = ((n.sites []).filter (reaches descend)).map Site.node := by
  have h := @traversal_eq_sites descend n [] rfl
  rw [walk_eq_traversal, ← List.length_nil (α := Node), h, List.map_map]
  rfl

/-! ## Nodes around a node -/

/-- Whether a node is a part of another one. -/
def HasPart (n c : Node) : Prop := c ∈ n.children

/-- Every node of a tree has a site. -/
theorem exists_site (h : ReflTransGen HasPart n m) : ∃ x ∈ n.sites [], x.node = m := by
  induction h with
  | refl => exact ⟨_, mem_sites_self [] n, rfl⟩
  | tail _ hpart ih =>
    obtain ⟨x, hx, rfl⟩ := ih
    exact ⟨_, child_mem_sites hx hpart, rfl⟩

/-- A site of a tree is below its root, and the nodes around it are between the two. -/
theorem reaches_of_mem_sites {above : List Node} (hx : x ∈ n.sites above) :
    ReflTransGen HasPart n x.node
      ∧ ∀ a ∈ x.above, a ∈ above ∨ ReflTransGen HasPart n a ∧ TransGen HasPart a x.node := by
  induction n using childInduction generalizing above with
  | step n ih =>
    rcases mem_sites_iff.1 hx with rfl | ⟨c, hc, hx⟩
    · exact ⟨.refl, fun a ha => .inl ha⟩
    · obtain ⟨hbelow, habove⟩ := ih c hc hx
      refine ⟨.head hc hbelow, fun a ha => ?_⟩
      rcases habove a ha with hmem | ⟨hroot, hpart⟩
      · refine (List.mem_cons.1 hmem).symm.imp_right ?_
        rintro rfl
        exact ⟨.refl, .head' hc hbelow⟩
      · exact .inr ⟨.head hc hroot, hpart⟩

/-- **In a numbered tree the nodes around a site are those above its node.** -/
theorem Numbers.mem_above_iff {lower upper : Nat} (h : Numbers lower n.postorder upper)
    (hx : x ∈ n.sites []) :
    a ∈ x.above ↔ ReflTransGen HasPart n a ∧ TransGen HasPart a x.node := by
  refine ⟨fun ha => ((reaches_of_mem_sites hx).2 a ha).resolve_left List.not_mem_nil, ?_⟩
  rintro ⟨hroot, habove⟩
  obtain ⟨y, hy, rfl⟩ := exists_site hroot
  obtain ⟨z, hz, hnode, hmem⟩ : ∃ z ∈ n.sites [], z.node = x.node ∧ y.node ∈ z.above := by
    generalize x.node = m at habove
    induction habove with
    | single hpart => exact ⟨_, child_mem_sites hy hpart, rfl, List.mem_cons_self⟩
    | tail _ hpart ih =>
      obtain ⟨z, hz, rfl, hmem⟩ := ih
      exact ⟨_, child_mem_sites hz hpart, rfl, List.mem_cons_of_mem _ hmem⟩
  rwa [← h.site_eq hz hx (congrArg Node.id hnode)]

/-- What is around a site is a site of the tree. -/
theorem exists_isAround (hx : x ∈ n.sites []) (ha : a ∈ x.above) :
    ∃ y ∈ n.sites [], y.node = a ∧ y.IsAround x := by
  obtain ⟨before, after, heq⟩ := List.append_of_mem ha
  have haround : Site.IsAround ⟨a, after⟩ x := ⟨before, heq.symm⟩
  exact ⟨_, mem_sites_of_isAround hx haround, rfl, haround⟩

/-! ## What a walk comes to -/

variable {lower upper : Nat}

/-- **A walk visits the nodes above which it prunes nothing.** -/
theorem Numbers.mem_walk_iff (h : Numbers lower n.postorder upper) :
    m ∈ n.walk descend ↔ ReflTransGen HasPart n m
      ∧ ∀ a, ReflTransGen HasPart n a → TransGen HasPart a m → descend a.kind = true := by
  rw [walk_eq_sites, List.mem_map]
  constructor
  · rintro ⟨x, hx, rfl⟩
    obtain ⟨hx, hreaches⟩ := List.mem_filter.1 hx
    refine ⟨(reaches_of_mem_sites hx).1, fun a hroot habove => ?_⟩
    exact List.all_eq_true.1 hreaches a ((h.mem_above_iff hx).2 ⟨hroot, habove⟩)
  · rintro ⟨hroot, haccepted⟩
    obtain ⟨x, hx, rfl⟩ := exists_site hroot
    refine ⟨x, List.mem_filter.2 ⟨hx, List.all_eq_true.2 fun a ha => ?_⟩, rfl⟩
    obtain ⟨hroot, habove⟩ := (h.mem_above_iff hx).1 ha
    exact haccepted a hroot habove

/-- A walk visits no number twice. -/
theorem Numbers.nodup_walk (h : Numbers lower n.postorder upper) :
    ((n.walk descend).map Node.id).Nodup := by
  rw [walk_eq_sites, List.map_map]
  exact (h.nodup_sites []).sublist (List.filter_sublist.map _)

/-- **A walk visits a node after the nodes above it.** -/
theorem Numbers.pair_sublist_walk (h : Numbers lower n.postorder upper) (hm : m ∈ n.walk descend)
    (hroot : ReflTransGen HasPart n a) (habove : TransGen HasPart a m) :
    [a, m] <+ n.walk descend := by
  rw [walk_eq_sites] at hm ⊢
  obtain ⟨x, hx, rfl⟩ := List.mem_map.1 hm
  obtain ⟨hx, hreaches⟩ := List.mem_filter.1 hx
  obtain ⟨y, -, rfl, haround⟩ := exists_isAround hx ((h.mem_above_iff hx).2 ⟨hroot, habove⟩)
  -- a walk that comes to a node has come to all around it
  have hreaches' : reaches descend y = true := by
    refine List.all_eq_true.2 fun b hb => List.all_eq_true.1 hreaches b ?_
    exact haround.subset (List.mem_cons_of_mem _ hb)
  obtain ⟨before, after, heq⟩ := List.append_of_mem hx
  have hpair : [y, x] <+ n.sites [] := by
    rw [heq]
    exact (List.singleton_sublist.2 (mem_of_isAround heq haround)).append
      (List.singleton_sublist.2 List.mem_cons_self)
  have hfilter := hpair.filter (reaches descend)
  rw [List.filter_cons_of_pos hreaches', List.filter_cons_of_pos hreaches] at hfilter
  exact hfilter.map Site.node

/-- What is visited with pruning is visited without, in the same order. -/
theorem walk_sublist (descend : NodeKind → Bool) (n : Node) :
    n.walk descend <+ n.walk fun _ => true := by
  have hall : (n.sites []).filter (reaches fun _ => true) = n.sites [] :=
    List.filter_eq_self.2 fun x _ => List.all_eq_true.2 fun _ _ => rfl
  rw [walk_eq_sites, walk_eq_sites, hall]
  exact List.filter_sublist.map _

/-- **The starts of the nodes that a walk visits do not decrease**: a node starts where the one
around it starts or later, and so does one that stands behind the other. -/
theorem WellNested.pairwise_walk (h : n.WellNested) :
    (n.walk descend).Pairwise fun m m' => m.span.start ≤ m'.span.start := by
  rw [walk_eq_sites, List.pairwise_map]
  refine .filter _ ((h.pairwise_sites []).imp_of_mem fun {x y} hx hy hor => ?_)
  rcases hor with haround | hbefore
  · exact (h.covers_of_isAround hy haround).1
  · have hself := h x.node (mem_postorder_of_mem_sites hx)
    exact Nat.le_trans hself.start_le_stop hbefore

/-- **A listing is the lines of a traversal.** -/
theorem listing_eq (n : Node) :
    n.listing
      = String.join ((n.traversal (fun _ => true) 0).map fun (depth, m) => m.line depth) := by
  rw [listing, visit_eq_traversal, List.flatMap_singleton]

end Node

/-- **Walks and listings of a text are traversals in pre-order.** From any node of a text, and
whatever kinds are pruned, a walk visits the nodes below it and itself, without those that are
below a node of a pruned kind; it visits each of them once and after the nodes that it is a
part of. Their order is that of the traversal by recursion, with pruning or without, and along
it the starts of the nodes do not decrease. A listing has one line for each node, in the order
of the walk that prunes nothing. -/
theorem SourceTree.walk_pruned (fileName : String) (text : List Char) :
    ∀ n ∈ (SourceTree.parse fileName text).nodes, ∀ pruned : NodeKind → Bool,
      let visited := n.walk fun kind => !pruned kind
      let entries := n.traversal (fun _ => true) 0
      (∀ m, m ∈ visited ↔ ReflTransGen Node.HasPart n m
        ∧ ∀ a, ReflTransGen Node.HasPart n a → TransGen Node.HasPart a m → pruned a.kind = false)
      ∧ (visited.map Node.id).Nodup
      ∧ (∀ m ∈ visited, ∀ a, ReflTransGen Node.HasPart n a → TransGen Node.HasPart a m →
        [a, m] <+ visited)
      ∧ visited = (n.traversal (fun kind => !pruned kind) 0).map Prod.snd
      ∧ visited <+ entries.map Prod.snd
      ∧ visited.Pairwise (fun m m' => m.span.start ≤ m'.span.start)
      ∧ n.listing = String.join (entries.map fun (depth, m) => m.line depth)
      ∧ entries.map Prod.snd = n.walk (fun _ => true)
      ∧ ∀ entry ∈ entries, ∃ line, OneLine line ∧ entry.2.line entry.1 = line ++ "\n" := by
  intro n hn pruned visited entries
  obtain ⟨-, hparses⟩ := Parser.run_parses .standard .standard fileName text
  obtain ⟨x, hx, rfl⟩ := List.mem_map.1 ((Node.map_node_sites _ []).mem_iff.2 hn)
  obtain ⟨_, _, hnumbers⟩ := hparses.numbers.of_mem_sites hx
  have hnested : x.node.WellNested :=
    (hparses.wellNested (Parser.room_ofTokens text).fits).of_mem_sites hx
  have hentries : entries.map Prod.snd = x.node.walk fun _ => true :=
    (Node.walk_eq_traversal _ _).symm
  refine ⟨fun m => ?_, hnumbers.nodup_walk, fun m hm a => hnumbers.pair_sublist_walk hm,
    Node.walk_eq_traversal _ _, ?_, hnested.pairwise_walk, x.node.listing_eq, hentries, ?_⟩
  · rw [hnumbers.mem_walk_iff]
    simp only [Bool.not_eq_true']
  · rw [hentries]
    exact Node.walk_sublist _ _
  · intro entry hentry
    have hvisited : entry.2 ∈ x.node.preorder := by
      rw [Node.preorder, ← hentries]
      exact List.mem_map_of_mem hentry
    have hmem := Node.postorder_subset hn (x.node.preorder_perm.mem_iff.1 hvisited)
    refine Node.exists_line entry.1 fun m hm word hword => ?_
    have hword := SourceTree.parse_words fileName text m (Node.postorder_subset hmem hm) word hword
    exact hword.newline_notMem

/-- A walk over a function that does not go into its body. -/
theorem SourceTree.walk_pruned_block :
    ∃ n ∈ (SourceTree.parse "test.c" "int f()\x7bint x;\x7d".toList).nodes,
      n.kind = .functionDeclaration
      ∧ (n.walk fun kind => !(kind == .block)).map Node.kind
        = [.functionDeclaration, .typeName, .identifier, .block]
      ∧ (n.walk fun kind => !(kind == .block)) <+ (n.traversal (fun _ => true) 0).map Prod.snd
      ∧ (n.walk fun kind => !(kind == .block)).Pairwise
        fun m m' => m.span.start ≤ m'.span.start := by
  have h : (SourceTree.parse "test.c" "int f()\x7bint x;\x7d".toList).nodes[7]?.map (fun n =>
      (n.kind, (n.walk fun kind => !(kind == .block)).map Node.kind))
      = some (.functionDeclaration, [.functionDeclaration, .typeName, .identifier, .block]) := by
    cbv
  obtain ⟨n, hn, heq⟩ := Option.map_eq_some_iff.1 h
  obtain ⟨hkind, hkinds⟩ := Prod.mk.inj heq
  have hmem := List.mem_of_getElem? hn
  obtain ⟨-, -, -, -, hsublist, hpairwise, -⟩ := SourceTree.walk_pruned _ _ n hmem (· == .block)
  exact ⟨n, hmem, hkind, hkinds, hsublist, hpairwise⟩

end ScriptLens
