import ScriptLens.Proofs.CompletedNodes
import ScriptLens.Proofs.Numbering
import ScriptLens.Proofs.TypeSpelling

/-!
# Which nodes denote a type

Asking for the type of a declaration means asking for the type of the node that spells it,
and for a function type also for those of its parts. If the parser ever put a name or an
expression there, the question would fail inside a declaration that nobody doubts, and the
error would name a node that nobody asked about.

It does not. What stands where a type is asked for is a type or a placeholder, however
little of the text is one (`SourceTree.parse_partsFit`). So the kind of the node that is asked
about decides alone, and the error names that kind (`SourceTree.parse_loweredType`).
-/

namespace ScriptLens

/-- Whether nodes of a kind denote a type: types, what is declared with a type, and
placeholders. -/
def NodeKind.denotesType : NodeKind → Bool
  | typeName | functionType | parameter | variableDeclaration | binding | functionDeclaration
  | missing | wrong => true
  | _ => false

theorem NodeKind.denotesType_of_fillsType {kind : NodeKind} (h : kind.fillsType = true) :
    kind.denotesType = true := by
  cases kind <;> first | rfl | cases h

namespace Node

/-- What denotes no type says which kind it is. -/
theorem loweredType_eq_error {n : Node} (h : n.kind.denotesType = false) :
    n.loweredType = .error (.notAType n.kind) := by
  obtain ⟨id, span, payload⟩ := n
  cases payload <;> first | (cases h; done) | rw [loweredType.eq_def]

/-- A placeholder denotes a type that is not known. -/
theorem loweredType_of_isSentinel {n : Node} (h : n.kind.isSentinel = true) :
    n.loweredType = .ok .unknown := by
  obtain ⟨id, span, payload⟩ := n
  cases payload <;> first | (cases h; done) | rw [loweredType]

/-- Each of the parameters of a function type says something, if those that are not `...`
denote types. -/
theorem exists_says {ns : List Node}
    (h : ∀ n ∈ ns, n.kind = .ellipsis ∨ ∃ shape, n.loweredType = .ok shape) :
    ∃ items, List.Forall₂ Says ns items := by
  induction ns with
  | nil => exact ⟨[], .nil⟩
  | cons n ns ih =>
    rw [List.forall_mem_cons] at h
    obtain ⟨items, hitems⟩ := ih h.2
    rcases h.1 with hdots | ⟨shape, hshape⟩
    · exact ⟨none :: items, .cons hdots hitems⟩
    · exact ⟨some shape :: items, .cons hshape hitems⟩

/-- **A node denotes a type if its kind does**, where types stand in all places for types. -/
theorem exists_loweredType {n : Node} (hfit : ∀ m ∈ n.postorder, m.payload.TypesFit)
    (hkind : n.kind.denotesType = true) : ∃ shape, n.loweredType = .ok shape := by
  induction n using childInduction with
  | step n ih =>
    obtain ⟨hbelow, hself⟩ := forall_mem_postorder.1 hfit
    have hslot : ∀ c ∈ n.children, c.kind.fillsType = true → ∃ shape, c.loweredType = .ok shape :=
      fun c hc hfills => ih c hc (hbelow c hc) (NodeKind.denotesType_of_fillsType hfills)
    obtain ⟨id, span, payload⟩ := n
    cases payload with
    | typeName head depth => exact ⟨_, loweredType_typeName id span head depth⟩
    | functionType returnType parameters variadic depth =>
      obtain ⟨hreturn, hparameters, rfl⟩ := hself
      obtain ⟨result, hresult⟩ := hslot returnType List.mem_cons_self hreturn
      -- `...` among the parameters is not asked
      obtain ⟨items, hitems⟩ := exists_says fun p hp =>
        (hparameters p hp).imp_right (hslot p (List.mem_cons_of_mem _ hp))
      exact ⟨_, loweredType_functionType id span depth hresult hitems⟩
    | parameter type name variadic =>
      rw [loweredType]
      exact hslot type List.mem_cons_self hself
    | variableDeclaration modifiers flags type declarators =>
      rw [loweredType]
      exact hslot type (List.mem_append_right _ List.mem_cons_self) hself
    | functionDeclaration modifiers flags returnType name parameters body =>
      rw [loweredType]
      exact hslot returnType (by simp [children, Payload.children]) hself
    | binding type name =>
      cases type with
      | none => exact ⟨_, by rw [loweredType]⟩
      | some type =>
        rw [loweredType]
        exact hslot type List.mem_cons_self (hself type rfl)
    | missing | wrong => exact ⟨_, loweredType_of_isSentinel rfl⟩
    | _ => cases hkind

end Node

namespace SourceTree

/-- In every text, types stand where types are asked for. -/
theorem parse_typesFit {fileName : String} {text : List Char} {n : Node}
    (hn : n ∈ (parse fileName text).nodes) : ∀ m ∈ n.postorder, m.payload.TypesFit :=
  fun m hm => (SourceTree.parse_partsFit fileName text m (Node.postorder_subset hn hm)).types

theorem loweredType_of_node? {t : SourceTree} {i : Nat} {n : Node} (h : t.node? i = some n) :
    t.loweredType (some i) = n.loweredType := by
  rw [loweredType, requireNode, Option.bind_some, h]
  rfl

/-- **Asking a node for its type fails exactly for the kinds of nodes that denote none**,
with the kind of the node that was asked, and where there is no such node. -/
theorem parse_loweredType (fileName : String) (text : List Char) :
    let t := parse fileName text
    (∀ i n, t.node? i = some n →
      ((∃ shape, t.loweredType (some i) = .ok shape) ↔ n.kind.denotesType = true)
        ∧ (n.kind.denotesType = false → t.loweredType (some i) = .error (.notAType n.kind)))
      ∧ t.loweredType none = .error (.unknownNode none)
      ∧ ∀ i, t.nodes.length ≤ i → t.loweredType (some i) = .error (.unknownNode (some i)) := by
  intro t
  refine ⟨fun i n hn => ?_, rfl, fun i hi => ?_⟩
  · rw [loweredType_of_node? hn]
    refine ⟨⟨fun ⟨shape, hshape⟩ => ?_, ?_⟩, Node.loweredType_eq_error⟩
    · by_contra hkind
      rw [Node.loweredType_eq_error (Bool.eq_false_iff.2 hkind)] at hshape
      cases hshape
    · exact Node.exists_loweredType (parse_typesFit (List.mem_of_getElem? hn))
  · rw [loweredType, requireNode, Option.bind_some, node?, List.getElem?_eq_none hi]
    rfl

/-- A declaration of which little more than `function<` is written: a number stands for the
result, the parameters and the name are absent. It denotes a type, its declarator does not,
and there are no more than six nodes. -/
theorem parse_loweredType_unfinished :
    let t := parse "half" "function<3".toList
    (∃ n, t.node? 4 = some n ∧ n.kind = .variableDeclaration
        ∧ ∃ shape, t.loweredType (some 4) = .ok shape)
      ∧ (∃ n, t.node? 3 = some n ∧ n.kind = .variableDeclarator
        ∧ t.loweredType (some 3) = .error (.notAType .variableDeclarator))
      ∧ t.loweredType none = .error (.unknownNode none)
      ∧ t.nodes.length ≤ 6 ∧ t.loweredType (some 6) = .error (.unknownNode (some 6)) := by
  intro t
  have hkinds : (parse "half" "function<3".toList).nodes.map Node.kind
      = [.wrong, .functionType, .missing, .variableDeclarator, .variableDeclaration,
        .sourceFile] := by
    cbv
  have hkind : ∀ {i : Nat} {kind : NodeKind}, (t.nodes.map Node.kind)[i]? = some kind →
      ∃ n, t.node? i = some n ∧ n.kind = kind := by
    intro i kind h
    rw [List.getElem?_map] at h
    exact Option.map_eq_some_iff.1 h
  obtain ⟨hnodes, hnone, houtside⟩ := parse_loweredType "half" "function<3".toList
  obtain ⟨n, hn, hvariable⟩ := hkind (i := 4) (by rw [hkinds]; rfl)
  obtain ⟨m, hm, hdeclarator⟩ := hkind (i := 3) (by rw [hkinds]; rfl)
  have hlength : t.nodes.length = 6 := by
    rw [← List.length_map Node.kind, hkinds]
    rfl
  refine ⟨⟨n, hn, hvariable, (hnodes 4 n hn).1.2 (by rw [hvariable]; rfl)⟩,
    ⟨m, hm, hdeclarator, ?_⟩, hnone, hlength.le, houtside 6 hlength.le⟩
  rw [(hnodes 3 m hm).2 (by rw [hdeclarator]; rfl), hdeclarator]

end SourceTree

end ScriptLens
