import ScriptLens.Proofs.Lowering
import ScriptLens.Proofs.ScopeBuilding
import ScriptLens.Proofs.TypeRoundTrip
import ScriptLens.Service.Completion

/-!
# Two texts of one type

A type is shown in two ways. What describes a definition spells the nodes that spell its
type in the source, and what annotates it spells the type that these nodes denote. The two
know different things: a node knows each `...` and where it stands, and a type knows only
whether there is one; a node knows words, and a type knows tags.

For all types that are parsed the two texts are the same, with all placeholders in them, if
only no parameter follows a `...` (`Node.text_of_loweredType`). With a parameter behind it they
are not: the type cannot tell where the `...` stood.
-/

namespace ScriptLens

open TypeShape

/-! ## Words -/

theorem TypeTag.ofHead_ne_unknown (head : TypeHead) : TypeTag.ofHead head ≠ .unknown := by
  cases head with
  | basic t => cases t <;> nofun
  | _ => nofun

theorem TypeTag.name_ofHead (head : TypeHead) : (TypeTag.ofHead head).name = head.text := by
  cases head with
  | basic t => cases t <;> rfl
  | _ => rfl

theorem TypeShape.text_unknown : unknown.text = "?" := by
  rw [text, unknown, ofTag, spell]
  rfl

/-! ## Where `...` stands -/

/-- The parameters of a function type; none for any other construct. -/
def Payload.typeParameters {α : Type} : Payload α → List α
  | .functionType _ parameters _ _ => parameters
  | _ => []

/-- **No parameter follows a `...`** in any of the function types in a node. -/
def Node.dotsLast (n : Node) : Bool :=
  n.postorder.all fun m => m.payload.typeParameters.dropLast.all (·.kind != .ellipsis)

theorem Node.dotsLast_iff {n : Node} : n.dotsLast = true
    ↔ ∀ m ∈ n.postorder, ∀ p ∈ m.payload.typeParameters.dropLast, p.kind ≠ .ellipsis := by
  simp [dotsLast]

theorem map_some_reduceOption {items : List (Option TypeShape)} (h : none ∉ items) :
    items.reduceOption.map some = items := by
  induction items with
  | nil => rfl
  | cons item items ih =>
    rw [List.mem_cons, not_or] at h
    cases item with
    | none => exact absurd rfl h.1
    | some shape => rw [List.reduceOption_cons_of_some, List.map_cons, ih h.2]

/-- A signature is written with the parameters that it was read from, if no `...` among them
is followed by one. -/
theorem items_of_dotsLast {items : List (Option TypeShape)} {result : TypeShape}
    (h : none ∉ items.dropLast) :
    TypeShape.items ⟨result, items.reduceOption, items.contains none⟩ = items := by
  rcases items.eq_nil_or_concat' with rfl | ⟨types, last, rfl⟩
  · rfl
  rw [List.dropLast_concat] at h
  have htypes := map_some_reduceOption h
  cases last <;> simp [TypeShape.items, List.reduceOption_append, htypes, h]

namespace Node

theorem typeText_of_ellipsis {n : Node} (h : n.kind = .ellipsis) : n.typeText = "..." := by
  obtain ⟨id, span, payload⟩ := n
  cases payload <;> first | (cases h; done) | rw [typeText]

theorem typeText_of_isSentinel {n : Node} (h : n.kind.isSentinel = true) : n.typeText = "?" := by
  obtain ⟨id, span, payload⟩ := n
  cases payload <;> first | (cases h; done) | rw [typeText.eq_def]

/-- **A type that stands in a text has the same text as the nodes that spell it**, and it is
known unless there is only a placeholder. -/
theorem text_of_loweredType {n : Node} {shape : TypeShape}
    (hfit : ∀ m ∈ n.postorder, m.payload.TypesFit) (hlast : n.dotsLast = true)
    (hkind : n.kind.fillsType = true) (h : n.loweredType = .ok shape) :
    shape.text = n.typeText ∧ shape.isUnknown = n.kind.isSentinel := by
  induction n using childInduction generalizing shape with
  | step n ih =>
    obtain ⟨hfits, hself⟩ := forall_mem_postorder.1 hfit
    obtain ⟨hlasts, hdots⟩ := forall_mem_postorder.1 (dotsLast_iff.1 hlast)
    have hpart : ∀ c ∈ n.children, c.kind.fillsType = true → ∀ shape, c.loweredType = .ok shape →
        shape.text = c.typeText := fun c hc hfills shape hshape =>
      (ih c hc (hfits c hc) (dotsLast_iff.2 (hlasts c hc)) hfills hshape).1
    obtain ⟨id, span, payload⟩ := n
    cases payload with
    | typeName head depth =>
      rw [loweredType_typeName] at h
      cases h
      have hknown := TypeTag.ofHead_ne_unknown head
      refine ⟨?_, beq_eq_false_iff_ne.2 hknown⟩
      rw [arrayOf, text_bare depth hknown, TypeTag.name_ofHead, typeText]
    | functionType returnType parameters variadic depth =>
      obtain ⟨hreturn, hparameters, rfl⟩ := hself
      have hlowers : ∀ c ∈ returnType :: parameters, c.kind.fillsType = true →
          ∃ shape, c.loweredType = .ok shape := fun c hc hfills =>
        exists_loweredType (hfits c hc) (NodeKind.denotesType_of_fillsType hfills)
      obtain ⟨result, hresult⟩ := hlowers returnType List.mem_cons_self hreturn
      obtain ⟨items, hitems⟩ := exists_says fun p hp =>
        (hparameters p hp).imp_right (hlowers p (List.mem_cons_of_mem _ hp))
      rw [loweredType_functionType id span depth hresult hitems] at h
      cases h
      have hitem : ∀ p ∈ parameters, ∀ item, p.Says item → p.typeText = itemText item := by
        rintro p hp (_ | shape) hsays
        · exact typeText_of_ellipsis hsays
        · have hfills := (hparameters p hp).resolve_left (kind_ne_ellipsis_of_loweredType hsays)
          exact (hpart p (List.mem_cons_of_mem _ hp) hfills shape hsays).symm
      have htexts : parameters.map typeText = items.map itemText := by
        rw [← List.forall₂_eq_eq_eq, List.forall₂_map_left_iff, List.forall₂_map_right_iff]
        exact ((List.forall₂_and_left _ _).2 ⟨hitem, hitems⟩).imp fun _ item h => h.1 item h.2
      -- so the signature knows where `...` stood: behind all types
      have hbefore : none ∉ items.dropLast := by
        have hdropped := List.forall₂_take (parameters.length - 1) hitems
        rw [← List.dropLast_eq_take, hitems.length_eq, ← List.dropLast_eq_take] at hdropped
        rw [← List.contains_iff_mem, ← any_ellipsis_eq hdropped, List.any_eq_true]
        rintro ⟨p, hp, hkind⟩
        exact hdots p hp (beq_iff_eq.1 hkind)
      refine ⟨?_, rfl⟩
      rw [text_function, items_of_dotsLast hbefore, typeText, htexts,
        hpart returnType List.mem_cons_self hreturn result hresult]
    | missing | wrong =>
      rw [loweredType_of_isSentinel rfl] at h
      cases h
      exact ⟨by rw [typeText_of_isSentinel rfl, text_unknown], rfl⟩
    | _ => cases hkind

/-- The type of what a node defines is one of its parts, and it stands where a type is asked
for. -/
theorem type_of_mem_definitions {n type : Node} {d : Definition} (hfit : n.payload.TypesFit)
    (hd : d ∈ n.definitions) (htype : d.type = some type) :
    type ∈ n.children ∧ type.kind.fillsType = true ∧ d.kind ≠ .classDef := by
  obtain ⟨name, -, hname⟩ := List.mem_filterMap.1 hd
  obtain ⟨text, -, rfl⟩ := Option.map_eq_some_iff.1 hname
  obtain ⟨id, span, payload⟩ := n
  cases payload with
  | functionDeclaration | parameter | variableDeclaration =>
    obtain rfl := Option.some.inj htype
    exact ⟨by simp [children, Payload.children], hfit, nofun⟩
  | binding bound =>
    obtain rfl : bound = some type := htype
    exact ⟨by simp [children, Payload.children], hfit type rfl, nofun⟩
  | _ => cases htype

end Node

/-- What is defined in a text is defined by one of its nodes. -/
theorem Orderly.exists_of_mem_definitions {tokens : List Token} {root : Node} {d : Definition}
    (hroot : Orderly tokens root) (hd : d ∈ (ScopeTree.ofRoot root).definitions) :
    ∃ n ∈ root.postorder, d ∈ n.definitions := by
  rw [hroot.ofRoot_eq_replay, ScopeTree.replay_definitions, Node.events,
    Site.filterMap_definition?_events, List.map_flatMap] at hd
  obtain ⟨x, hx, hmem⟩ := List.mem_flatMap.1 hd
  rw [List.map_map] at hmem
  obtain ⟨d', hd', rfl⟩ := List.mem_map.1 hmem
  exact ⟨x.node, Node.mem_postorder_of_mem_sites hx, hd'⟩

/-! ## Descriptions and annotations -/

namespace Definition

/-- A signature begins with the type. -/
theorem exists_signature_eq (d : Definition) : ∃ rest, d.signature = d.typeText ++ rest := by
  unfold signature
  split
  · exact ⟨_, by simp only [String.append_assoc]; rfl⟩
  · split
    · next hempty => exact ⟨d.name, by rw [hempty, String.empty_append]⟩
    · exact ⟨_, String.append_assoc⟩

theorem typeText_eq {d : Definition} {n : Node} (hkind : d.kind ≠ .classDef)
    (htype : d.type = some n) : d.typeText = n.typeText := by
  rw [typeText, htype]
  split
  · next heq => exact absurd heq hkind
  · rfl

end Definition

namespace Suggestion

theorem ofDefinition_of_ne_class {d : Definition} (h : d.kind ≠ .classDef) :
    (ofDefinition d).description = d.signature
      ∧ Suggestion.annotation (ofDefinition d) = declaredType? d.type := by
  unfold ofDefinition
  cases hkind : d.kind with
  | classDef => exact absurd hkind h
  | _ => exact ⟨rfl, rfl⟩

/-- A type that is known is shown by its text. -/
theorem declaredType?_eq {n : Node} {shape : TypeShape} (h : n.loweredType = .ok shape) :
    declaredType? (some n) = if shape.isUnknown then none else some shape.text := by
  rw [declaredType?, Option.bind_eq_bind, Option.bind_some, h]
  rfl

end Suggestion

namespace SourceTree

variable {fileName : String} {text : List Char} {n : Node}

/-- A type in a text denotes one with the same text, which is known unless there is only a
placeholder. -/
theorem exists_shape_text (hn : n ∈ (parse fileName text).nodes)
    (hfills : n.kind.fillsType = true) (hlast : n.dotsLast = true) :
    ∃ shape, n.loweredType = .ok shape ∧ shape.text = n.typeText
      ∧ shape.isUnknown = n.kind.isSentinel := by
  have hfit := parse_typesFit hn
  obtain ⟨shape, hlowered⟩ :=
    Node.exists_loweredType hfit (NodeKind.denotesType_of_fillsType hfills)
  exact ⟨shape, hlowered, Node.text_of_loweredType hfit hlast hfills hlowered⟩

/-- The type of what is defined in a text stands in the text. -/
theorem type_of_definition {d : Definition}
    (hd : d ∈ (ScopeTree.ofRoot (parse fileName text).root).definitions)
    (htype : d.type = some n) :
    n ∈ (parse fileName text).nodes ∧ n.kind.fillsType = true ∧ d.kind ≠ .classDef := by
  obtain ⟨m, hm, hdefines⟩ := (parse_orderly fileName text).exists_of_mem_definitions hd
  obtain ⟨hpart, hfills, hkind⟩ := Node.type_of_mem_definitions
    (parse_typesFit hm m m.mem_postorder_self) hdefines htype
  exact ⟨Node.postorder_subset hm (Node.mem_postorder_of_mem_children hpart n.mem_postorder_self),
    hfills, hkind⟩

/-- **The two texts of a type agree.** From a type or a placeholder and from what it denotes
the same text is written, however function types, arrays and placeholders are nested in it.
So the type that annotates a definition is the one in its description, and only a
placeholder does not annotate it. -/
theorem parse_typeText (fileName : String) (text : List Char) :
    let t := parse fileName text
    (∀ n ∈ t.nodes, n.kind.fillsType = true → n.dotsLast = true →
      ∃ shape, n.loweredType = .ok shape ∧ shape.text = n.typeText)
      ∧ ∀ d ∈ (ScopeTree.ofRoot t.root).definitions, ∀ n, d.type = some n → n.dotsLast = true →
        (∃ rest, (Suggestion.ofDefinition d).description = n.typeText ++ rest)
          ∧ Suggestion.annotation (Suggestion.ofDefinition d)
            = if n.kind.isSentinel then none else some n.typeText := by
  intro t
  refine ⟨fun n hn hfills hlast => ?_, fun d hd n htype hlast => ?_⟩
  · obtain ⟨shape, hlowered, htext, -⟩ := exists_shape_text hn hfills hlast
    exact ⟨shape, hlowered, htext⟩
  · obtain ⟨hn, hfills, hkind⟩ := type_of_definition hd htype
    obtain ⟨shape, hlowered, htext, hunknown⟩ := exists_shape_text hn hfills hlast
    obtain ⟨hdescribed, hshown⟩ := Suggestion.ofDefinition_of_ne_class hkind
    constructor
    · rw [hdescribed, ← Definition.typeText_eq hkind htype]
      exact d.exists_signature_eq
    · rw [hshown, htype, Suggestion.declaredType?_eq hlowered, hunknown, htext]

set_option maxRecDepth 8000 in
/-- A variable whose type is a function type that lacks a parameter and takes further
arguments. -/
theorem parse_typeText_function :
    let t := parse "half" "function<A(,...)>f".toList
    (∃ n ∈ t.nodes, n.kind.fillsType = true ∧ n.dotsLast = true
        ∧ n.typeText = "function<A(?, ...)>"
        ∧ ∃ shape, n.loweredType = .ok shape ∧ shape.text = n.typeText)
      ∧ ∃ d ∈ (ScopeTree.ofRoot t.root).definitions, ∃ n, d.type = some n ∧ n.dotsLast = true
        ∧ n.typeText = "function<A(?, ...)>"
        ∧ (∃ rest, (Suggestion.ofDefinition d).description = n.typeText ++ rest)
        ∧ Suggestion.annotation (Suggestion.ofDefinition d) = some "function<A(?, ...)>" := by
  intro t
  obtain ⟨htexts, hdefinitions⟩ := parse_typeText "half" "function<A(,...)>f".toList
  have hfound : ((ScopeTree.ofRoot
      (parse "half" "function<A(,...)>f".toList).root).definitions.any fun d => d.type.any
      fun n => !n.kind.isSentinel && n.dotsLast && n.typeText == "function<A(?, ...)>")
      = true := by
    cbv
  obtain ⟨d, hd, hany⟩ := List.any_eq_true.1 hfound
  obtain ⟨n, htype, hall⟩ := (Option.any_eq_true _ _).1 hany
  rw [Bool.and_eq_true, Bool.and_eq_true, beq_iff_eq, Bool.not_eq_true'] at hall
  obtain ⟨⟨hkind, hlast⟩, htext⟩ := hall
  -- the type of the variable is one of the nodes of the text
  obtain ⟨hn, hfills, -⟩ := type_of_definition hd htype
  obtain ⟨hdescribed, hshown⟩ := hdefinitions d hd n htype hlast
  rw [hkind, if_neg Bool.false_ne_true, htext] at hshown
  exact ⟨⟨n, hn, hfills, hlast, htext, htexts n hn hfills hlast⟩,
    d, hd, n, htype, hlast, htext, hdescribed, hshown⟩

end SourceTree

end ScriptLens
