import Mathlib.Data.List.Flatten
import ScriptLens.Proofs.ScopeEvents
import ScriptLens.Proofs.StatementLayout

/-!
# The scopes of a text, site by site

Scopes are built in one pass over the nodes of a tree, which is never told when a
construct ends: it leaves a scope when a node starts at or behind its end. Nodes can
be empty and can start where another construct ends, so the pass may keep scopes
open for too long, or leave them while it is still inside. Neither matters: whenever
a node has something to add, the open scopes are those of the constructs around it.

So the pass amounts to the events of the sites of the tree (`Site.events`), each with
the scope of the nearest construct around it, and this is what `ofRoot_eq_replay`
says. With the keys of the tree in order, the events are lawful
(`Orderly.lawful_events`).
-/

namespace ScriptLens

open Node ScopeTree

/-! ## What a site adds -/

/-- The definition of a name, if the name is there. -/
def named? (define : String → Nat → Definition) (name : Node) : Option Definition :=
  name.identifierText?.map fun text => define text name.span.start

namespace Node

/-- What a node says of a name that it brings. -/
def definition (n : Node) (text : String) (offset : Nat) : Definition :=
  match n.payload with
  | .functionDeclaration _ flags returnType _ parameters body =>
    ⟨text, .functionDef, offset, n.id, some returnType, flags,
      some (functionInfo parameters.items flags body.isSome)⟩
  | .parameter type _ _ => ⟨text, .parameterDef, offset, n.id, some type, [], none⟩
  | .variableDeclaration _ flags type _ =>
    ⟨text, .variableDef, offset, n.id, some type, flags, none⟩
  | .binding type _ => ⟨text, .variableDef, offset, n.id, type, [], none⟩
  | .classDeclaration _ flags _ _ => ⟨text, .classDef, offset, n.id, none, flags, none⟩
  | _ => ⟨text, .variableDef, offset, n.id, none, [], none⟩

/-- **The definitions that a node makes.** -/
def definitions (n : Node) : List Definition := n.names.filterMap (named? n.definition)

/-- The text that a node names. -/
def dependency? (n : Node) : Option Dependency :=
  match n.payload with
  | .includeDirective path system =>
    path.stringValue?.map fun value =>
      ⟨if system then .systemInclude else .quotedInclude, value, path.span.start⟩
  | .inherit path => path.stringValue?.map fun value => ⟨.inherit, value, path.span.start⟩
  | _ => none

end Node

namespace Site

/-- What a site adds to scopes if it belongs to the scope `owner`. -/
def eventsIn (owner : Nat) (x : Site) : List Event :=
  x.node.definitions.map (.define owner)
    ++ (x.scope?.map fun s => Event.enter owner s.1 ⟨s.2, x.node.span.stop⟩).toList
    ++ (x.node.dependency?.map Event.depend).toList

/-- **What a site of a tree adds to scopes**: all that its node brings belongs to the
scope of the nearest construct around it. -/
def events (root : Node) (x : Site) : List Event := x.eventsIn (root.scopeBelow x.above)

end Site

/-- The scope that a site of a tree opens, before anything is in it. -/
def Site.opened? (root : Node) (x : Site) : Option Scope :=
  x.scope?.map fun s => ⟨some (root.scopeBelow x.above), s.1, ⟨s.2, x.node.span.stop⟩, []⟩

/-- **What happens along a tree.** -/
def Node.events (root : Node) : List Event := (root.sites []).flatMap (Site.events root)

variable {tokens : List Token} {root n name : Node} {x y : Site} {above : List Node}
  {b : Builder} {owner : Nat}

theorem Node.offset_definition (n : Node) (text : String) (offset : Nat) :
    (n.definition text offset).offset = offset := by
  unfold definition
  split <;> rfl

/-- The offsets of definitions are keys. -/
theorem Node.map_offset_definitions (n : Node) :
    n.definitions.map Definition.offset = (identifiers n.names).map (·.span.start) := by
  unfold definitions identifiers
  induction n.names with
  | nil => rfl
  | cons name names ih =>
    rw [filterMap_cons_toList, List.map_append, ih, named?]
    cases hname : name.identifierText? with
    | none => rw [List.filter_cons_of_neg (by simp [hname])]; rfl
    | some text =>
      rw [List.filter_cons_of_pos (by simp [hname]), List.map_cons, Option.map_some]
      exact congrArg (· :: _) (n.offset_definition text _)

namespace Site

theorem filterMap_key?_eventsIn (owner : Nat) (x : Site) :
    (x.eventsIn owner).filterMap Event.key?
      = (identifiers x.node.names).map (·.span.start) ++ (x.scope?.map Prod.snd).toList := by
  rw [← map_offset_definitions, eventsIn, List.filterMap_append, List.filterMap_append,
    List.filterMap_map]
  cases x.scope? <;> cases x.node.dependency? <;> simp [Event.key?, Function.comp_def]

/-- The scopes that sites open, as their events say. -/
theorem filterMap_scope?_events (root : Node) (xs : List Site) :
    (xs.flatMap (events root)).filterMap Event.scope? = xs.filterMap (opened? root) := by
  rw [List.filterMap_flatMap, List.filterMap_eq_flatMap_toList]
  refine List.flatMap_congr fun x _ => ?_
  rw [events, eventsIn, List.filterMap_append, List.filterMap_append, List.filterMap_map, opened?]
  cases x.scope? <;> cases x.node.dependency? <;> simp [Event.scope?, Function.comp_def]

/-- The definitions that sites make, as their events say. -/
theorem filterMap_definition?_events (root : Node) (xs : List Site) :
    (xs.flatMap (events root)).filterMap Event.definition?
      = xs.flatMap fun x => x.node.definitions.map (root.scopeBelow x.above, ·) := by
  rw [List.filterMap_flatMap]
  refine List.flatMap_congr fun x _ => ?_
  rw [events, eventsIn, List.filterMap_append, List.filterMap_append, List.filterMap_map]
  cases x.scope? <;> cases x.node.dependency? <;> simp [Event.definition?, Function.comp_def]

theorem isSome_opened? (root : Node) (x : Site) : (x.opened? root).isSome = x.opens := by
  rw [opened?, Option.isSome_map, opens]

theorem length_filterMap_scope?_events (root : Node) (xs : List Site) :
    ((xs.flatMap (events root)).filterMap Event.scope?).length = (xs.filter opens).length := by
  rw [filterMap_scope?_events, List.length_filterMap_eq_countP, ← List.countP_eq_length_filter]
  simp only [isSome_opened?]

theorem scope?_eq_none_or (x : Site) : x.scope? = none ∨ x.scope? = x.node.scope? := by
  unfold scope?
  split
  · exact .inl rfl
  · exact .inr rfl

/-- What a site adds has keys of its node. -/
theorem key?_eventsIn_sublist (owner : Nat) (x : Site) :
    ((x.eventsIn owner).filterMap Event.key?).Sublist x.node.keys := by
  rw [filterMap_key?_eventsIn, keys]
  refine List.Sublist.append_left ?_ _
  rcases x.scope?_eq_none_or with h | h <;> rw [h]
  exact List.nil_sublist _

/-- A site without keys opens no scope. -/
theorem scope?_of_keys_eq_nil (h : x.node.keys = []) : x.scope? = none := by
  have hnone : x.node.scope? = none := by simpa [keys] using (List.append_eq_nil_iff.1 h).2
  rcases x.scope?_eq_none_or with h' | h'
  · exact h'
  · rw [h', hnone]

/-- A site without keys adds the same to every scope. -/
theorem eventsIn_of_keys_eq_nil (h : x.node.keys = []) (owner owner' : Nat) :
    x.eventsIn owner = x.eventsIn owner' := by
  have hdefinitions : x.node.definitions = [] := by
    have hnames := (List.append_eq_nil_iff.1 h).1
    rwa [← map_offset_definitions, List.map_eq_nil_iff] at hnames
  rw [eventsIn, eventsIn, hdefinitions, scope?_of_keys_eq_nil h]
  rfl

theorem events_of_isSilent (root : Node) (h : x.node.kind.isSilent = true) :
    x.events root = [] := by
  obtain ⟨⟨id, span, payload⟩, above⟩ := x
  cases payload <;> first | rfl | cases h

theorem keys_ne_nil_of_opens (h : x.opens = true) : x.node.keys ≠ [] := by
  intro hkeys
  rw [opens, scope?_of_keys_eq_nil hkeys] at h
  cases h

end Site

/-! ## One node -/

theorem foldl_declareName (names : List Node) (define : String → Nat → Definition) (b : Builder) :
    names.foldl (fun b name => b.declareName name define) b
      = { b with
          tree := ((names.filterMap (named? define)).map (.define b.current)).foldl apply
            b.tree } := by
  induction names generalizing b with
  | nil => rfl
  | cons name names ih =>
    rw [List.foldl_cons, ih, filterMap_cons_toList]
    unfold Builder.declareName named?
    cases name.identifierText? <;> rfl

theorem declareName_eq (define : String → Nat → Definition) (b : Builder) :
    b.declareName name define
      = { b with
          tree := (([name].filterMap (named? define)).map (.define b.current)).foldl apply
            b.tree } :=
  foldl_declareName [name] define b

theorem length_scopes_define (ds : List Definition) (t : ScopeTree) :
    ((ds.map (.define owner)).foldl apply t).scopes.length = t.scopes.length := by
  induction ds generalizing t with
  | nil => rfl
  | cons d ds ih =>
    rw [List.map_cons, List.foldl_cons, ih]
    exact List.length_modify _ _ _

theorem enter_eq (kind : ScopeKind) {start stop : Nat} (h : start ≤ stop) (b : Builder) :
    b.enter kind start stop
      = { b with
          tree := b.tree.apply (.enter b.current kind ⟨start, stop⟩)
          openScopes := (b.tree.scopes.length, stop) :: b.openScopes } := by
  rw [Builder.enter, Nat.max_eq_left h]
  rfl

theorem depend_eq (kind : DependencyKind) (path : Node) (b : Builder) :
    b.depend kind path
      = { b with
          tree := ((path.stringValue?.map fun value =>
            Event.depend ⟨kind, value, path.span.start⟩).toList).foldl apply b.tree } := by
  unfold Builder.depend
  cases path.stringValue? <;> rfl

/-- **What the pass does at a node**: it adds the events of its site to the innermost
open scope, and opens the scope of the site. -/
theorem bind_eq (hbody : x.node.kind = .block → b.bodies.contains x.node.id = x.isBody)
    (hle : ∀ s ∈ x.node.scope?, s.2 ≤ x.node.span.stop) :
    b.bind x.node = ⟨(x.eventsIn b.current).foldl apply b.tree,
      (x.scope?.map fun _ => (b.tree.scopes.length, x.node.span.stop)).toList ++ b.openScopes,
      (x.node.body?.map Node.id).toList ++ b.bodies⟩ := by
  obtain ⟨⟨id, span, payload⟩, above⟩ := x
  have hscope : (payload.kind == .block) = false →
      Site.scope? ⟨⟨id, span, payload⟩, above⟩ = Node.scope? ⟨id, span, payload⟩ := by
    intro hkind
    rw [Site.scope?, if_neg]
    simp [Node.kind, hkind]
  cases payload
  case functionDeclaration modifiers flags type name parameters body =>
    have hle' : parameters.span.start ≤ span.stop := hle _ rfl
    simp only [Builder.bind]
    rw [declareName_eq, enter_eq _ hle', Site.eventsIn, hscope rfl, List.foldl_append,
      List.foldl_append, length_scopes_define]
    rfl
  case classDeclaration modifiers flags name members =>
    have hle' : name.span.stop ≤ span.stop := hle _ rfl
    simp only [Builder.bind]
    rw [declareName_eq, enter_eq _ hle', Site.eventsIn, hscope rfl, List.foldl_append,
      List.foldl_append, length_scopes_define]
    rfl
  case block statements =>
    have hbody' : b.bodies.contains id = Site.isBody ⟨⟨id, span, .block statements⟩, above⟩ :=
      hbody rfl
    have hle' : span.start ≤ span.stop := hle _ rfl
    simp only [Builder.bind]
    rw [hbody', Site.eventsIn, Site.scope?, enter_eq _ hle']
    by_cases hisBody : Site.isBody ⟨⟨id, span, .block statements⟩, above⟩ = true
    · rw [if_pos hisBody, if_pos (by simp [Node.kind, Payload.kind, hisBody])]
      rfl
    · rw [if_neg hisBody, if_neg (by simp [hisBody])]
      rfl
  case variableDeclaration modifiers flags type declarators =>
    simp only [Builder.bind]
    rw [foldl_declareName, Site.eventsIn, hscope rfl, List.foldl_append, List.foldl_append]
    rfl
  case parameter type name variadic =>
    simp only [Builder.bind]
    rw [declareName_eq, Site.eventsIn, hscope rfl, List.foldl_append, List.foldl_append]
    rfl
  case binding type name =>
    simp only [Builder.bind]
    rw [declareName_eq, Site.eventsIn, hscope rfl, List.foldl_append, List.foldl_append]
    rfl
  case includeDirective path system =>
    simp only [Builder.bind]
    rw [depend_eq, Site.eventsIn, hscope rfl, Node.dependency?, Option.map_map]
    rfl
  case inherit path =>
    simp only [Builder.bind]
    rw [depend_eq, Site.eventsIn, hscope rfl, Node.dependency?, Option.map_map]
    rfl
  all_goals
    rw [Site.eventsIn, hscope rfl]
    rfl

/-! ## The open scopes -/

/-- The scopes around something with given nodes around it, with their ends, innermost
first. -/
def Node.openAround (root : Node) (above : List Node) : List (Nat × Nat) :=
  (scopesAround above).map fun y => (root.scopeBelow y.path, y.node.span.stop)

/-- Whether open scopes pass for others from an offset on: at every place behind it the
same of them are left. -/
def PassFor (offset : Nat) (scopes scopes' : List (Nat × Nat)) : Prop :=
  ∀ o, offset ≤ o → scopes.dropWhile (·.2 ≤ o) = scopes'.dropWhile (·.2 ≤ o)

namespace PassFor

variable {offset offset' : Nat} {scopes scopes' scopes'' : List (Nat × Nat)}

theorem mono (h : PassFor offset scopes scopes') (hle : offset ≤ offset') :
    PassFor offset' scopes scopes' :=
  fun o ho => h o (Nat.le_trans hle ho)

theorem trans (h : PassFor offset scopes scopes') (h' : PassFor offset scopes' scopes'') :
    PassFor offset scopes scopes'' :=
  fun o ho => (h o ho).trans (h' o ho)

/-- Leaving scopes at an offset makes no difference behind it. -/
theorem leave (offset : Nat) (scopes : List (Nat × Nat)) :
    PassFor offset (scopes.dropWhile (·.2 ≤ offset)) scopes := by
  intro o ho
  induction scopes with
  | nil => rfl
  | cons s scopes ih =>
    by_cases h : s.2 ≤ offset
    · rw [List.dropWhile_cons_of_pos (by simpa using h), ih,
        List.dropWhile_cons_of_pos (by simpa using Nat.le_trans h ho)]
    · rw [List.dropWhile_cons_of_neg (by simpa using h)]

/-- A scope that ends by then makes no difference. -/
theorem of_cons (id : Nat) {stop : Nat} (h : stop ≤ offset) (scopes : List (Nat × Nat)) :
    PassFor offset ((id, stop) :: scopes) scopes :=
  fun o ho => List.dropWhile_cons_of_pos (by simpa using Nat.le_trans h ho)

end PassFor

theorem Node.openAround_path_of_opens (h : x.opens = true) :
    root.openAround x.path
      = (root.scopeBelow x.path, x.node.span.stop) :: root.openAround x.above := by
  rw [openAround, scopesAround_path_of_opens h]
  rfl

theorem Node.openAround_path_of_not_opens (h : ¬x.opens = true) :
    root.openAround x.path = root.openAround x.above := by
  rw [openAround, scopesAround_path_of_not_opens h]
  rfl

/-- Once a construct has ended, its scope makes no difference. -/
theorem Node.openAround_passFor (root : Node) (x : Site) :
    PassFor x.node.span.stop (root.openAround x.path) (root.openAround x.above) := by
  by_cases h : x.opens = true
  · rw [openAround_path_of_opens h]
    exact .of_cons _ (Nat.le_refl _) _
  · rw [openAround_path_of_not_opens h]
    exact fun _ _ => rfl

/-- The innermost of the scopes around something is the one that it belongs to. -/
theorem Node.head?_openAround (root : Node) (above : List Node) :
    ((root.openAround above).head?.map Prod.fst).getD ScopeTree.root = root.scopeBelow above := by
  rw [openAround, List.head?_map]
  cases h : (scopesAround above).head? with
  | none => rw [scopeBelow, h]; rfl
  | some y => rw [scopeBelow_eq h]; rfl

/-- **A tree as the parser makes it**: its parts lie inside one another, it is laid out,
and its nodes are numbered. -/
structure Orderly (tokens : List Token) (root : Node) : Prop where
  nested : root.WellNested
  laid : ∀ m ∈ root.postorder, Laid tokens m
  numbered : ∃ upper, Numbers 0 root.postorder upper
  isFree : root.kind.isFree = true

namespace Orderly

variable {done rest : List Site}

theorem laid_site (h : Orderly tokens root) (hx : x ∈ root.sites []) : Laid tokens x.node :=
  h.laid _ (mem_postorder_of_mem_sites hx)

/-- Where a node has keys, all scopes around it end behind its start. -/
theorem dropWhile_openAround (h : Orderly tokens root) (hx : x ∈ root.sites [])
    (hkeys : x.node.keys ≠ []) :
    (root.openAround x.above).dropWhile (·.2 ≤ x.node.span.start) = root.openAround x.above := by
  obtain ⟨k, hk⟩ := List.exists_mem_of_ne_nil _ hkeys
  have hlt := ((h.laid_site hx).within k hk).2.2
  cases hopen : root.openAround x.above with
  | nil => rfl
  | cons s scopes =>
    have hs : s ∈ root.openAround x.above := by rw [hopen]; exact List.mem_cons_self
    obtain ⟨y, hy, rfl⟩ := List.mem_map.1 hs
    have hcovers := h.nested.covers_of_isAround hx (mem_scopesAround.1 hy).1
    rw [List.dropWhile_cons_of_neg]
    simpa using Nat.lt_of_lt_of_le hlt hcovers.2

end Orderly

/-- **Where the pass is** after some sites of a tree, with given nodes around it: it has
taken the events of these sites, it knows the bodies of their functions, and its open
scopes pass for those of the nodes around. -/
structure Follows (root : Node) (done : List Site) (above : List Node) (offset : Nat)
    (b : Builder) : Prop where
  tree : b.tree = replay root.span.stop (done.flatMap (Site.events root))
  bodies : ∀ id, id ∈ b.bodies ↔ ∃ y ∈ done, ∃ body, y.node.body? = some body ∧ body.id = id
  openScopes : PassFor offset b.openScopes (root.openAround above)

namespace Follows

variable {done rest : List Site} {offset : Nat}

theorem mono (h : Follows root done above offset b) {offset' : Nat} (hle : offset ≤ offset') :
    Follows root done above offset' b :=
  ⟨h.tree, h.bodies, h.openScopes.mono hle⟩

/-- The body of a function is known when the pass comes to it. -/
theorem contains_bodies (h : Follows root done above offset b) (hroot : Orderly tokens root)
    (hsites : root.sites [] = done ++ x :: rest) :
    b.bodies.contains x.node.id = x.isBody := by
  have hx : x ∈ root.sites [] := by rw [hsites]; simp
  rw [Bool.eq_iff_iff, List.contains_iff_mem, h.bodies, Site.isBody, Option.any_eq_true]
  constructor
  · rintro ⟨y, hy, body, hbody, hid⟩
    have hy' : y ∈ root.sites [] := by rw [hsites]; exact List.mem_append_left _ hy
    obtain ⟨upper, hnumbers⟩ := hroot.numbered
    have hsite := hnumbers.site_eq (child_mem_sites hy' (mem_children_of_body? hbody)) hx hid
    refine ⟨body, ?_, by simpa using hid⟩
    rw [← hsite]
    exact hbody
  · rintro ⟨body, hbody, hid⟩
    obtain ⟨a, ha, hbody⟩ := Option.bind_eq_some_iff.1 hbody
    obtain ⟨above', habove⟩ : ∃ above', x.above = a :: above' := List.head?_eq_some_iff.1 ha
    have haround : Site.IsAround ⟨a, above'⟩ x := by
      rw [Site.IsAround, habove]
      exact List.suffix_rfl
    exact ⟨⟨a, above'⟩, mem_of_isAround hsites haround, body, hbody, by simpa using hid⟩

theorem length_scopes (h : Follows root done above offset b) :
    b.tree.scopes.length = (done.filter Site.opens).length + 1 := by
  rw [h.tree, replay, length_foldl_apply_scopes, Site.length_filterMap_scope?_events, Nat.add_comm]
  rfl

/-- **A step of the pass**: it takes the events of the next site, and the open scopes
become those around the parts of its node. -/
theorem step (h : Follows root done x.above x.node.span.start b) (hroot : Orderly tokens root)
    (hsites : root.sites [] = done ++ x :: rest) :
    Follows root (done ++ [x]) x.path x.node.span.start (b.step x.node) := by
  have hx : x ∈ root.sites [] := by rw [hsites]; simp
  have hleft : (b.leaveBefore x.node.span.start).openScopes
      = (root.openAround x.above).dropWhile (·.2 ≤ x.node.span.start) :=
    h.openScopes _ (Nat.le_refl _)
  have hevents : x.eventsIn (b.leaveBefore x.node.span.start).current = x.events root := by
    by_cases hkeys : x.node.keys = []
    · exact Site.eventsIn_of_keys_eq_nil hkeys _ _
    · rw [Builder.current, hleft, hroot.dropWhile_openAround hx hkeys, head?_openAround]
      rfl
  have hle : ∀ s ∈ x.node.scope?, s.2 ≤ x.node.span.stop := by
    intro s hs
    refine ((hroot.laid_site hx).within s.2 ?_).2.1
    rw [keys, hs]
    simp
  rw [Builder.step,
    bind_eq (b := b.leaveBefore _) (fun _ => h.contains_bodies hroot hsites) hle, hevents]
  refine ⟨?_, fun id => ?_, ?_⟩
  · show (x.events root).foldl apply b.tree = _
    rw [h.tree, replay, replay, List.flatMap_append, List.foldl_append, List.flatMap_singleton]
  · show id ∈ (x.node.body?.map Node.id).toList ++ b.bodies ↔ _
    simp only [List.mem_append, Option.mem_toList, Option.map_eq_some_iff,
      List.mem_singleton, or_and_right, exists_or, exists_eq_left, h.bodies]
    exact Or.comm
  · show PassFor _ ((x.scope?.map fun _ => (b.tree.scopes.length, x.node.span.stop)).toList
      ++ (b.leaveBefore x.node.span.start).openScopes) _
    rw [hleft]
    by_cases hopens : x.opens = true
    · obtain ⟨upper, hnumbers⟩ := hroot.numbered
      obtain ⟨s, hs⟩ := Option.isSome_iff_exists.1 hopens
      rw [hroot.dropWhile_openAround hx (Site.keys_ne_nil_of_opens hopens),
        openAround_path_of_opens hopens, hnumbers.scopeBelow_path hsites hopens,
        h.length_scopes, hs]
      exact fun _ _ => rfl
    · rw [openAround_path_of_not_opens hopens, Option.not_isSome_iff_eq_none.1 hopens]
      exact .leave _ _

/-- Silent trees can be passed over: they add nothing. -/
theorem append_silent (h : Follows root done above offset b) {xs : List Site}
    (hsilent : ∀ x ∈ xs, x.node.kind.isSilent = true) :
    Follows root (done ++ xs) above offset b := by
  have hevents : xs.flatMap (Site.events root) = [] :=
    List.flatMap_eq_nil_iff.2 fun x hx => Site.events_of_isSilent root (hsilent x hx)
  refine ⟨?_, fun id => ?_, h.openScopes⟩
  · rw [h.tree, List.flatMap_append, hevents, List.append_nil]
  · rw [h.bodies]
    refine ⟨fun ⟨y, hy, hbody⟩ => ⟨y, List.mem_append_left _ hy, hbody⟩, ?_⟩
    rintro ⟨y, hy, body, hbody, hid⟩
    rcases List.mem_append.1 hy with hy | hy
    · exact ⟨y, hy, body, hbody, hid⟩
    · have hkind := hsilent y hy
      rw [kind_of_body? hbody] at hkind
      cases hkind

end Follows

/-! ## The pass over a tree -/

/-- The nodes that a pass over a tree comes to. -/
def Node.reached (n : Node) : List Node :=
  n :: if descends n.kind then n.children.attach.flatMap fun c => c.1.reached else []
termination_by n
decreasing_by exact sizeOf_lt_of_mem_children c.2

theorem Node.reached_eq (n : Node) :
    n.reached = n :: if descends n.kind then n.children.flatMap reached else [] := by
  rw [reached]
  simp

theorem Node.visit_eq (pending : List (Nat × Node)) :
    (visit descends pending).map Prod.snd = pending.flatMap (·.2.reached) :=
  map_visit_eq_flatMap (fun _ n => n.reached_eq) pending

theorem Node.walk_eq (n : Node) : n.walk descends = n.reached := by
  rw [walk, visit_eq, List.flatMap_singleton]

/-- What a pass over a tree does: it takes the events of all sites, and when it is
done, the open scopes pass for those around the tree. -/
def PassesOver (root : Node) (above : List Node) (n : Node) : Prop :=
  ∀ (done rest : List Site) (b : Builder), root.sites [] = done ++ n.sites above ++ rest →
    Follows root done above n.span.start b →
      Follows root (done ++ n.sites above) above n.span.stop (n.reached.foldl Builder.step b)

/-- A pass over the parts of a node, one after the other. -/
theorem Follows.foldl_parts {done rest : List Site} {offset stop : Nat} {cs : List Node}
    (h : Follows root done above offset b)
    (hsites : root.sites [] = done ++ cs.flatMap (sites above) ++ rest)
    (hcs : ∀ c ∈ cs, PassesOver root above c)
    (hapart : cs.Pairwise fun c c' => c.span.stop ≤ c'.span.start)
    (hstart : ∀ c ∈ cs, offset ≤ c.span.start) (hstop : ∀ c ∈ cs, c.span.stop ≤ stop)
    (hle : offset ≤ stop) :
    Follows root (done ++ cs.flatMap (sites above)) above stop
      ((cs.flatMap reached).foldl Builder.step b) := by
  induction cs generalizing done offset b with
  | nil =>
    rw [List.flatMap_nil, List.append_nil]
    exact h.mono hle
  | cons c cs ih =>
    obtain ⟨hfirst, hapart⟩ := List.pairwise_cons.1 hapart
    rw [List.flatMap_cons, ← List.append_assoc] at hsites ⊢
    rw [List.flatMap_cons, List.foldl_append]
    have hc : Follows root (done ++ c.sites above) above c.span.stop
        (c.reached.foldl Builder.step b) := by
      refine hcs c List.mem_cons_self done (cs.flatMap (sites above) ++ rest) b ?_
        (h.mono (hstart c List.mem_cons_self))
      rw [hsites, List.append_assoc]
    exact ih hc hsites (fun d hd => hcs d (List.mem_cons_of_mem _ hd)) hapart hfirst
      (fun d hd => hstop d (List.mem_cons_of_mem _ hd)) (hstop c List.mem_cons_self)

/-- **A pass over a tree**, by induction on the tree: a step at the root, then the parts,
unless these are silent and passed over. -/
theorem Orderly.passes_over (hroot : Orderly tokens root) (n : Node) (above : List Node) :
    PassesOver root above n := by
  induction n using childInduction generalizing above with
  | step n ih =>
    intro done rest b hsites h
    have hn : ⟨n, above⟩ ∈ root.sites [] := by
      rw [hsites]
      exact List.mem_append_left _ (List.mem_append_right _ (mem_sites_self above n))
    rw [sites_eq above n] at hsites ⊢
    have hordered := hroot.nested n (mem_postorder_of_mem_sites hn)
    have hstep : Follows root (done ++ [⟨n, above⟩]) (n :: above) n.span.start (b.step n) := by
      have hnext : root.sites [] = done ++ ⟨n, above⟩ ::
          (n.children.flatMap (sites (n :: above)) ++ rest) := by
        rw [hsites, List.append_assoc, List.cons_append]
      exact h.step hroot hnext
    rw [List.append_cons] at hsites ⊢
    suffices hparts : Follows root
        (done ++ [⟨n, above⟩] ++ n.children.flatMap (sites (n :: above))) (n :: above) n.span.stop
        (n.reached.foldl Builder.step b) by
      exact ⟨hparts.tree, hparts.bodies,
        hparts.openScopes.trans (root.openAround_passFor ⟨n, above⟩)⟩
    rw [reached_eq, List.foldl_cons]
    by_cases hdescends : descends n.kind = true
    · rw [if_pos hdescends]
      exact hstep.foldl_parts hsites (fun c hc => ih c hc (n :: above))
        (hroot.nested.of_mem_sites hn).pairwise_children
        (fun c hc => (hordered.covers c hc).1) (fun c hc => (hordered.covers c hc).2)
        hordered.start_le_stop
    · rw [if_neg hdescends]
      have hquiet : Quiet n.children := (hroot.laid_site hn).quiet_parts (by
        simp [NodeKind.hasQuietParts, hdescends])
      refine (hstep.mono hordered.start_le_stop).append_silent fun x hx => ?_
      obtain ⟨c, hc, hx⟩ := List.mem_flatMap.1 hx
      exact hquiet c hc _ (mem_postorder_of_mem_sites hx)

/-- **The scopes of a text are what its sites say.** -/
theorem Orderly.ofRoot_eq_replay (hroot : Orderly tokens root) :
    ofRoot root = replay root.span.stop root.events := by
  have hstart : Follows root [] [] root.span.start ⟨ofLength root.span.stop, [], []⟩ :=
    ⟨rfl, by simp, fun _ _ => rfl⟩
  have hpass := hroot.passes_over root [] [] [] _ (List.append_nil _).symm hstart
  rw [ofRoot, walk_eq]
  exact hpass.tree

/-! ## The events of a text -/

theorem Site.owner?_events {e : Event} (he : e ∈ x.events root) :
    ∀ owner ∈ e.owner?, owner = root.scopeBelow x.above := by
  intro owner howner
  rw [events, eventsIn, List.mem_append, List.mem_append, List.mem_map] at he
  rcases he with (⟨d, -, rfl⟩ | he) | he
  · exact (Option.some.inj howner).symm
  · obtain ⟨s, -, rfl⟩ := Option.map_eq_some_iff.1 (Option.mem_toList.1 he)
    exact (Option.some.inj howner).symm
  · obtain ⟨d, -, rfl⟩ := Option.map_eq_some_iff.1 (Option.mem_toList.1 he)
    cases howner

/-- What the sites of a tree add belongs to scopes that were opened before. -/
theorem Node.owned_events {done rest : List Site} (h : root.sites [] = done ++ rest) :
    Owned ((done.filter Site.opens).length + 1) (rest.flatMap (Site.events root)) := by
  induction rest generalizing done with
  | nil => trivial
  | cons x rest ih =>
    rw [List.flatMap_cons]
    refine .append (.of_forall fun e he owner howner => ?_) ?_
    · rw [Site.owner?_events he owner howner]
      exact Nat.lt_succ_of_le (scopeBelow_le h)
    · have hopened : ((x.events root).filterMap Event.scope?).length
          = ([x].filter Site.opens).length := by
        rw [← Site.length_filterMap_scope?_events root, List.flatMap_singleton]
      rw [hopened, Nat.add_right_comm, ← List.length_append, ← List.filter_append]
      exact ih (by rw [h, List.append_assoc]; rfl)

/-- **The events of a text lose nothing.** -/
theorem Orderly.lawful_events (hroot : Orderly tokens root) : Lawful root.events := by
  refine ⟨?_, owned_events (List.nil_append _).symm⟩
  rw [Node.events, List.filterMap_flatMap]
  refine (Laid.keysLaid hroot.laid hroot.nested).ascending.sublist ?_
  exact List.Sublist.flatMap_right _ fun x _ => x.key?_eventsIn_sublist _

theorem SourceTree.parse_span (fileName : String) (text : List Char) :
    (SourceTree.parse fileName text).root.span = ⟨0, Text.byteLength text⟩ := by
  obtain ⟨-, hparses⟩ := Parser.run_parses .standard .standard fileName text
  exact hparses.span_eq

/-- **The tree of every text is as the pass over it needs it.** -/
theorem SourceTree.parse_orderly (fileName : String) (text : List Char) :
    Orderly (Parser.tokensOf text) (SourceTree.parse fileName text).root := by
  obtain ⟨-, hparses⟩ := Parser.run_parses .standard .standard fileName text
  have hformed := Parser.run_formed fileName text
  exact ⟨hparses.wellNested (Parser.room_ofTokens text).fits, hformed.laid, ⟨_, hparses.numbers⟩,
    hformed.isFree⟩

end ScriptLens
