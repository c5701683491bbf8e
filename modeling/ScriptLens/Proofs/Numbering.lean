import Mathlib.Data.List.Perm.Basic
import Mathlib.Logic.Relation
import ScriptLens.Proofs.SourceRuns

/-!
# Numbers of nodes

A node gets its number when it is completed, and a part is carried on as a value until
the node around it is. Nothing in the functions of the parser keeps a completed node
from being dropped, or from becoming a part twice; that it does not happen is a fact
about the numbers. The nodes that a run leaves, with all that lies below them, have
exactly the numbers that the run gave out, in order (`Passes.numbers`). So the tree of
a text has as many nodes as were ever completed, and the place of a node in it is its
number.

What follows is about trees that are numbered this way. Written as rows, one for each
node with numbers in place of its parts, such a tree refers back only, names each row
but the last exactly once, and can be walked from the last row to any other
(`OneTree`).
-/

namespace ScriptLens

open scoped List

/-! ## Trees as rows -/

/-- What a node holds, with the numbers of its parts in their place. -/
def Node.row (n : Node) : Payload Nat := n.payload.map Node.id

theorem Node.children_row (n : Node) : n.row.children = n.children.map Node.id :=
  Payload.children_map _ _

/-- The rows of a source text, each at the place of its node. -/
def SourceTree.rows (t : SourceTree) : List (Payload Nat) := t.nodes.map Node.row

/-- Whether the row at place `j` has the number `i` among its parts. -/
def IsPart (rows : List (Payload Nat)) (i j : Nat) : Prop :=
  ∃ row, rows[j]? = some row ∧ i ∈ row.children

/-- **Rows that make one tree**: the last row is the root, parts come before what they
are parts of, and every other row is a part once, of one row. -/
structure OneTree (rows : List (Payload Nat)) (root : Nat) : Prop where
  root_last : root + 1 = rows.length
  part_lt : ∀ {i j : Nat}, IsPart rows i j → i < j
  count_parts : ∀ i < rows.length, i ≠ root → (rows.flatMap Payload.children).count i = 1

namespace OneTree

variable {rows : List (Payload Nat)} {root : Nat}

/-- Going on from parts to their parts comes to an end. -/
theorem wellFounded (h : OneTree rows root) : WellFounded (IsPart rows) :=
  Subrelation.wf (fun hpart => h.part_lt hpart) Nat.lt_wfRel.wf

/-- Every row is a part of the root, or of a part of it, and so on. -/
theorem reaches (h : OneTree rows root) {i : Nat} (hi : i < rows.length) :
    Relation.ReflTransGen (IsPart rows) i root := by
  -- a row comes before the one it is part of, so the rows behind it are done first
  induction hk : rows.length - i using Nat.strong_induction_on generalizing i with
  | _ k ih =>
    by_cases hroot : i = root
    · rw [hroot]
    · have hmem : i ∈ rows.flatMap Payload.children :=
        List.count_pos_iff.1 (by rw [h.count_parts i hi hroot]; exact Nat.one_pos)
      obtain ⟨row, hrow, hpart⟩ := List.mem_flatMap.1 hmem
      obtain ⟨j, hj⟩ := List.mem_iff_getElem?.1 hrow
      have hstep : IsPart rows i j := ⟨row, hj, hpart⟩
      have hlt := h.part_lt hstep
      have hjlt := (List.getElem?_eq_some_iff.1 hj).1
      exact .head hstep (ih (rows.length - j) (by omega) hjlt rfl)

end OneTree

namespace Node

/-! ## Listing the nodes of a tree -/

theorem mem_postorder_self (n : Node) : n ∈ n.postorder := by
  rw [postorder_eq]
  exact List.mem_append_right _ (List.mem_singleton.2 rfl)

/-- Below a part of a node is below the node. -/
theorem mem_postorder_of_mem_children {n c m : Node} (hc : c ∈ n.children)
    (hm : m ∈ c.postorder) : m ∈ n.postorder := by
  rw [postorder_eq]
  exact List.mem_append_left _ (List.mem_flatMap.2 ⟨c, hc, hm⟩)

/-- All nodes below a node of a tree are nodes of the tree. -/
theorem postorder_subset {root n : Node} (h : n ∈ root.postorder) :
    n.postorder ⊆ root.postorder := by
  induction root using childInduction with
  | step root ih =>
    rw [postorder_eq root] at h ⊢
    rcases List.mem_append.1 h with h | h
    · obtain ⟨c, hc, hn⟩ := List.mem_flatMap.1 h
      exact fun m hm => List.mem_append_left _ (List.mem_flatMap.2 ⟨c, hc, ih c hc hn hm⟩)
    · rw [List.mem_singleton.1 h, ← postorder_eq root]
      exact List.Subset.refl _

/-- **Every node of a tree but its root is a child**, of one node and once. -/
theorem postorder_perm (n : Node) : n.postorder ~ n.postorder.flatMap children ++ [n] := by
  induction n using childInduction with
  | step n ih =>
    have hbelow : n.children.flatMap postorder
        ~ n.children.flatMap (fun c => c.postorder.flatMap children) ++ n.children := by
      refine (List.Perm.flatMap_left n.children ih).trans ?_
      refine (List.flatMap_append_perm _ _ _).symm.trans ?_
      rw [List.flatMap_singleton']
    rw [postorder_eq, List.flatMap_append, List.flatMap_assoc, List.flatMap_singleton]
    exact hbelow.append_right [n]

/-- **A visit is a recursion.** What goes through a node and then through its parts, one level
further down, tells what is collected on a visit of pending nodes: it goes through one of them
after the other. -/
theorem map_visit_eq_flatMap {α : Type} {descend : NodeKind → Bool} {f : Nat → Node → α}
    {through : Nat → Node → List α}
    (h : ∀ depth n, through depth n = f depth n ::
      if descend n.kind then n.children.flatMap (through (depth + 1)) else [])
    (pending : List (Nat × Node)) :
    (visit descend pending).map (fun p => f p.1 p.2)
      = pending.flatMap fun p => through p.1 p.2 := by
  fun_induction visit descend pending with
  | case1 => rfl
  | case2 depth n pending ih =>
    rw [List.map_cons, ih, List.flatMap_append, List.flatMap_cons, h, expand]
    by_cases hdescend : descend n.kind = true
    · rw [if_pos hdescend, if_pos hdescend, List.flatMap_map]
      rfl
    · rw [if_neg hdescend, if_neg hdescend]
      rfl

/-- A visit of nodes that passes nothing over comes to all that lies below them. -/
theorem visit_perm (pending : List (Nat × Node)) :
    (visit (fun _ => true) pending).map Prod.snd ~ pending.flatMap (·.2.postorder) := by
  fun_induction visit (fun _ => true) pending with
  | case1 => exact .nil
  | case2 depth n pending ih =>
    have hexpand : (expand (fun _ => true) depth n).flatMap (·.2.postorder)
        = n.children.flatMap postorder := by
      rw [expand, if_pos rfl, List.flatMap_map]
    rw [List.flatMap_append, hexpand] at ih
    rw [List.map_cons, List.flatMap_cons, postorder_eq, List.append_assoc, List.singleton_append]
    exact (ih.cons n).trans List.perm_middle.symm

theorem preorder_perm (n : Node) : n.preorder ~ n.postorder := by
  have h := visit_perm [(0, n)]
  rwa [List.flatMap_singleton] at h

/-! ## Numbered trees -/

/-- **Nodes that are numbered one after the other**, from `lower` up to the number
before `upper`. -/
def Numbers : Nat → List Node → Nat → Prop
  | lower, [], upper => lower = upper
  | lower, n :: ns, upper => n.id = lower ∧ Numbers (lower + 1) ns upper

section Numbers

variable {lower upper : Nat} {n : Node} {ns ms : List Node}

theorem numbers_append :
    Numbers lower (ns ++ ms) upper ↔ ∃ k, Numbers lower ns k ∧ Numbers k ms upper := by
  induction ns generalizing lower with
  | nil =>
    refine ⟨fun h => ⟨lower, rfl, h⟩, ?_⟩
    rintro ⟨k, rfl, h⟩
    exact h
  | cons n ns ih =>
    refine ⟨?_, ?_⟩
    · rintro ⟨hid, h⟩
      obtain ⟨k, hns, hms⟩ := ih.1 h
      exact ⟨k, ⟨hid, hns⟩, hms⟩
    · rintro ⟨k, ⟨hid, hns⟩, hms⟩
      exact ⟨hid, ih.2 ⟨k, hns, hms⟩⟩

theorem numbers_singleton : Numbers lower [n] upper ↔ n.id = lower ∧ n.id + 1 = upper := by
  unfold Numbers Numbers
  refine and_congr_right ?_
  rintro rfl
  rfl

theorem Numbers.map_id (h : Numbers lower ns upper) :
    ns.map Node.id = List.range' lower ns.length ∧ upper = lower + ns.length := by
  induction ns generalizing lower with
  | nil => exact ⟨rfl, h.symm⟩
  | cons n ns ih =>
    obtain ⟨rfl, h⟩ := h
    obtain ⟨hmap, hupper⟩ := ih h
    rw [List.map_cons, hmap, List.length_cons, List.range'_succ]
    exact ⟨rfl, by omega⟩

/-- The place of a node among numbered nodes tells its number. -/
theorem Numbers.id_eq (h : Numbers lower ns upper) {place : Nat} (hn : ns[place]? = some n) :
    n.id = lower + place := by
  have hlt : place < ns.length := (List.getElem?_eq_some_iff.1 hn).1
  have hmap := congrArg (·[place]?) h.map_id.1
  rw [List.getElem?_map, hn, List.getElem?_range' hlt, Nat.one_mul] at hmap
  exact Option.some.inj hmap

theorem Numbers.lt (h : Numbers lower ns upper) (hn : n ∈ ns) : n.id < upper := by
  obtain ⟨hmap, rfl⟩ := h.map_id
  have hid := List.mem_map_of_mem (f := Node.id) hn
  rw [hmap, List.mem_range'_1] at hid
  exact hid.2

/-- The parts of a numbered tree are numbered. -/
theorem Numbers.child (h : Numbers lower n.postorder upper) {c : Node} (hc : c ∈ n.children) :
    ∃ lower' upper', Numbers lower' c.postorder upper' := by
  rw [postorder_eq] at h
  obtain ⟨_, hbelow, -⟩ := numbers_append.1 h
  obtain ⟨before, after, hchildren⟩ := List.append_of_mem hc
  rw [hchildren, List.flatMap_append, List.flatMap_cons] at hbelow
  obtain ⟨_, -, hrest⟩ := numbers_append.1 hbelow
  obtain ⟨_, hchild, -⟩ := numbers_append.1 hrest
  exact ⟨_, _, hchild⟩

/-- In a numbered tree every child comes before its node. -/
theorem Numbers.id_lt (h : Numbers lower n.postorder upper) :
    ∀ m ∈ n.postorder, ∀ c ∈ m.children, c.id < m.id := by
  induction n using childInduction generalizing lower upper with
  | step n ih =>
    refine forall_mem_postorder.2 ⟨fun c hc => ?_, fun c hc => ?_⟩
    · obtain ⟨_, _, hchild⟩ := h.child hc
      exact ih c hc hchild
    · rw [postorder_eq] at h
      obtain ⟨k, hbelow, hself⟩ := numbers_append.1 h
      obtain ⟨rfl, -⟩ := numbers_singleton.1 hself
      exact hbelow.lt (List.mem_flatMap.2 ⟨c, hc, c.mem_postorder_self⟩)

/-- **A tree that is numbered from zero is one tree of rows.** -/
theorem Numbers.oneTree (h : Numbers 0 n.postorder upper) :
    OneTree (n.postorder.map row) n.id := by
  obtain ⟨hmap, -⟩ := h.map_id
  rw [← List.range_eq_range'] at hmap
  refine ⟨?_, ?_, ?_⟩
  · rw [List.length_map]
    rw [postorder_eq] at h ⊢
    obtain ⟨k, hbelow, hself⟩ := numbers_append.1 h
    obtain ⟨rfl, -⟩ := numbers_singleton.1 hself
    rw [List.length_append, hbelow.map_id.2, Nat.zero_add]
    rfl
  · rintro i j ⟨row, hrow, hpart⟩
    rw [List.getElem?_map] at hrow
    obtain ⟨m, hm, rfl⟩ := Option.map_eq_some_iff.1 hrow
    rw [children_row] at hpart
    obtain ⟨c, hc, rfl⟩ := List.mem_map.1 hpart
    rw [← Nat.zero_add j, ← h.id_eq hm]
    exact h.id_lt m (List.mem_of_getElem? hm) c hc
  · intro i hi hne
    have hparts : (n.postorder.map row).flatMap Payload.children
        = (n.postorder.flatMap children).map Node.id := by
      rw [List.flatMap_map, List.map_flatMap]
      exact List.flatMap_congr fun m _ => m.children_row
    have hcount := (n.postorder_perm.map Node.id).count_eq i
    rw [List.length_map] at hi
    rw [hmap, List.count_range, if_pos hi, List.map_append, List.count_append, List.map_singleton,
      List.count_singleton, if_neg (by simpa using Ne.symm hne), ← hparts] at hcount
    exact hcount.symm

end Numbers

end Node

namespace Parser

/-! ## Numbers along a run -/

variable {r : Setting}

@[simp] theorem State.nodeCount_take (s : State) : s.take.nodeCount = s.nodeCount := by
  rw [take]
  split <;> rfl

mutual

/-- **The nodes that a run leaves have the numbers that it gave out**, with all that
lies below them. -/
theorem Passes.numbers {s s' : State} {ns : List Node} :
    Passes r s ns s' → Node.Numbers s.nodeCount (ns.flatMap Node.postorder) s'.nodeCount
  | .nil _ => rfl
  | @Passes.take _ s _ _ _ hp => by
    have h := hp.numbers
    rwa [s.nodeCount_take] at h
  | .report _ hp => hp.numbers
  | .child hc hp => by
    rw [List.flatMap_cons]
    exact Node.numbers_append.2 ⟨_, hc.numbers, hp.numbers⟩

theorem Completes.numbers {s s' : State} {n : Node} :
    Completes r s n s' → Node.Numbers s.nodeCount n.postorder s'.nodeCount
  | .missing _ _ => by
    rw [Node.postorder_eq]
    exact ⟨rfl, rfl⟩
  | @Completes.wrong _ s _ _ _ _ _ => by
    rw [Node.postorder_eq, ← s.nodeCount_take]
    exact ⟨rfl, rfl⟩
  | .finish _ _ _ hp _ => by
    rw [Node.postorder_eq]
    exact Node.numbers_append.2 ⟨_, hp.numbers, rfl, rfl⟩
  | .openBlock hp _ => by
    rw [Node.postorder_eq]
    exact Node.numbers_append.2 ⟨_, hp.numbers, rfl, rfl⟩
  | .nested _ hc => hc.numbers

end

theorem ParsesSource.numbers {s s' : State} {fileName : String} {root : Node}
    (h : ParsesSource r fileName s root s') :
    Node.Numbers s.nodeCount root.postorder s'.nodeCount := by
  cases h with
  | mk hns _ =>
    rw [Node.postorder_eq]
    exact Node.numbers_append.2 ⟨_, hns.gives.passes.numbers, rfl, rfl⟩

end Parser

/-- **The nodes of a text make one tree.** As many nodes are in the tree as were ever
completed, each at the place of its number. Their rows make one tree: the root comes
last, parts come before what they are parts of, and every other node is a part once. So
a walk from the root comes to every node exactly once, there is a way from the root to
every node, and going down from any node comes to an end. -/
theorem SourceTree.parse_oneTree (fileName : String) (text : List Char) :
    let t := SourceTree.parse fileName text
    let count := (Parser.run .standard fileName text).2.nodeCount
    t.nodes.map Node.id = List.range count
      ∧ t.rows.length = count
      ∧ OneTree t.rows t.root.id
      ∧ t.root.preorder.map Node.id ~ List.range count
      ∧ (∀ i < count, Relation.ReflTransGen (IsPart t.rows) i t.root.id)
      ∧ WellFounded (IsPart t.rows) := by
  intro t count
  obtain ⟨-, hparses⟩ := Parser.run_parses .standard .standard fileName text
  have hnumbers : Node.Numbers 0 t.nodes count := hparses.numbers
  obtain ⟨hmap, hcount⟩ := hnumbers.map_id
  rw [Nat.zero_add] at hcount
  rw [← List.range_eq_range', ← hcount] at hmap
  have hlength : t.rows.length = count := by
    rw [hcount]
    exact List.length_map _
  have htree : OneTree t.rows t.root.id := hnumbers.oneTree
  refine ⟨hmap, hlength, htree, ?_, fun i hi => htree.reaches (hlength ▸ hi), htree.wellFounded⟩
  rw [← hmap]
  exact t.root.preorder_perm.map Node.id

end ScriptLens
