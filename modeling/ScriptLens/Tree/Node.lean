import ScriptLens.Tree.Payload

/-!
# The tree of a source text

A node is a payload with a span and a number. Nodes are numbered in the order in
which they are completed, so that a node's number is its place in the
`postorder` of its tree.

Recursion on a tree goes through `Node.children`: a child is smaller than its
node (`sizeOf_lt_of_mem_children`). The two orders in which a tree can be listed
are here; everything else that walks a tree is built on them or follows the same
pattern.
-/

namespace ScriptLens

/-- A node of the tree. -/
structure Node where
  /-- Its number: how many nodes were completed before it. -/
  id : Nat
  /-- Where it stands in the text. -/
  span : Span
  /-- What it is. -/
  payload : Payload Node

namespace Payload

/-- A part is smaller than its payload. -/
theorem sizeOf_lt_of_mem_children {p : Payload Node} {c : Node} (h : c ∈ p.children) :
    sizeOf c < sizeOf p := by
  have hlist : ∀ l : List Node, c ∈ l → sizeOf c < sizeOf l := fun _ => List.sizeOf_lt_of_mem
  have hopt : ∀ o : Option Node, o = some c → sizeOf c < sizeOf o := by
    rintro _ rfl
    simp
  have hargs : ∀ l : ArgumentList Node, c ∈ l.items → sizeOf c < sizeOf l := by
    rintro ⟨span, items⟩ hc
    have := hlist items hc
    simp only [ArgumentList.mk.sizeOf_spec]
    omega
  cases p
  case newObject target arguments =>
    cases arguments <;> simp [children] at h ⊢ <;> grind
  all_goals simp [children] at h ⊢
  all_goals grind

end Payload

namespace Node

/-- The kind of a node. -/
def kind (n : Node) : NodeKind := n.payload.kind

/-- The parts of a node that are present, in source order. -/
def children (n : Node) : List Node := n.payload.children

/-- A child is smaller than its node. -/
theorem sizeOf_lt_of_mem_children {n c : Node} (h : c ∈ n.children) : sizeOf c < sizeOf n := by
  obtain ⟨id, span, payload⟩ := n
  have : sizeOf c < sizeOf payload := Payload.sizeOf_lt_of_mem_children h
  simp only [mk.sizeOf_spec]
  omega

/-- **Induction on trees**: what passes from the children of a node to the node
holds of every node. -/
@[elab_as_elim]
theorem childInduction {motive : Node → Prop}
    (step : ∀ n, (∀ c ∈ n.children, motive c) → motive n) (n : Node) : motive n :=
  step n fun c _ => childInduction step c
termination_by n
decreasing_by exact sizeOf_lt_of_mem_children ‹_›

/-- The nodes of a tree in the order in which they are completed: every node
after its parts. -/
def postorder (n : Node) : List Node :=
  (n.children.attach.flatMap fun c => c.1.postorder) ++ [n]
termination_by n
decreasing_by exact sizeOf_lt_of_mem_children c.2

theorem postorder_eq (n : Node) : n.postorder = n.children.flatMap postorder ++ [n] := by
  rw [postorder]
  simp

/-- What holds of every node of a tree holds of the node itself and of every node
below its children. -/
theorem forall_mem_postorder {p : Node → Prop} {n : Node} :
    (∀ m ∈ n.postorder, p m) ↔ (∀ c ∈ n.children, ∀ m ∈ c.postorder, p m) ∧ p n := by
  rw [postorder_eq]
  simp only [List.mem_append, List.mem_flatMap, List.mem_singleton]
  refine ⟨fun h => ⟨fun c hc m hm => h m (.inl ⟨c, hc, hm⟩), h n (.inr rfl)⟩, ?_⟩
  rintro ⟨hc, hn⟩ m (⟨c, hmem, hm⟩ | rfl)
  · exact hc c hmem m hm
  · exact hn

/-- The number of nodes of a tree. -/
def size (n : Node) : Nat := n.postorder.length

theorem size_eq (n : Node) : n.size = (n.children.flatMap postorder).length + 1 := by
  rw [size, postorder_eq, List.length_append]
  rfl

theorem size_pos (n : Node) : 0 < n.size := by
  rw [size_eq]
  exact Nat.succ_pos _

/-! ## Visiting a tree -/

/-- The nodes that are still to be visited, counted with all that lies below
them. -/
def pendingSize (pending : List (Nat × Node)) : Nat := (pending.flatMap (·.2.postorder)).length

/-- What a visit of a node adds to the nodes that are to be visited. -/
def expand (descend : NodeKind → Bool) (depth : Nat) (n : Node) : List (Nat × Node) :=
  if descend n.kind then n.children.map (depth + 1, ·) else []

theorem pendingSize_expand_lt (descend : NodeKind → Bool) (depth : Nat) (n : Node) :
    pendingSize (expand descend depth n) < n.size := by
  unfold expand
  split
  · rw [size_eq, pendingSize, List.flatMap_map]
    exact Nat.lt_succ_self _
  · exact n.size_pos

/-- **Visits nodes one after the other**, each with its depth. The children of a
node come right after it, before whatever else was to be visited; they are
passed over where `descend` rejects the kind of the node. -/
def visit (descend : NodeKind → Bool) (pending : List (Nat × Node)) : List (Nat × Node) :=
  match pending with
  | [] => []
  | (depth, n) :: pending =>
    (depth, n) :: visit descend (expand descend depth n ++ pending)
termination_by pendingSize pending
decreasing_by
  have h := pendingSize_expand_lt descend depth n
  simp only [pendingSize, size, List.flatMap_append, List.flatMap_cons, List.length_append] at h ⊢
  omega

/-- The nodes of a tree, parents before children, where only the children of
nodes whose kind `descend` accepts are visited. -/
def walk (descend : NodeKind → Bool) (n : Node) : List Node :=
  (visit descend [(0, n)]).map Prod.snd

/-- The nodes of a tree, parents before children. -/
def preorder (n : Node) : List Node := n.walk fun _ => true

/-! ## What a node says -/

/-- The name that an identifier spells. -/
def identifierText? (n : Node) : Option String :=
  match n.payload with
  | .identifier name => some name
  | _ => none

/-- The text of a string literal. -/
def literalText? (n : Node) : Option String :=
  match n.payload with
  | .literal (.string text) => some text
  | _ => none

/-- The text of a string literal or of a run of adjacent ones. -/
def stringValue? (n : Node) : Option String :=
  match n.payload with
  | .stringConcat parts => (parts.mapM literalText?).map String.join
  | _ => n.literalText?

/-- The statements of a source text; none for any other node. -/
def fileStatements (n : Node) : List Node :=
  match n.payload with
  | .sourceFile _ statements => statements
  | _ => []

/-- As many pairs of brackets as a type has dimensions. -/
def arraySuffix (depth : Nat) : String := String.join (List.replicate depth "[]")

/-- A type as the source spells it. What is no type reads as a question mark. -/
def typeText : Node → String
  | ⟨_, _, .typeName head depth⟩ => head.text ++ arraySuffix depth
  | ⟨_, _, .functionType returnType parameters _ depth⟩ =>
    "function<" ++ typeText returnType ++ "(" ++ ", ".intercalate (parameters.map typeText)
      ++ ")>" ++ arraySuffix depth
  | ⟨_, _, .ellipsis⟩ => "..."
  | _ => "?"
termination_by n => n

end Node

end ScriptLens
