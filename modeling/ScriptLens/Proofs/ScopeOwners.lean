import ScriptLens.Proofs.ScopeBuilding

/-!
# Every name has one definition, in one scope

What the scopes of a text should be can be said by looking at its tree alone: there is
a definition for each identifier in the place of a name, and it belongs to the scope of
the nearest construct around the declaration (`Node.declarations`, `Node.scopeBelow`).
`ScopeTree.Registers` says that a scope tree is that: nothing is lost, nothing is there
twice, and nothing is in a scope of something else.

The scopes of every text are (`ofRoot_registers`). One step is left on the way from the
events of a tree: a declaration of variables makes the definitions of all its variables
at once, where the tree has them one by one.
-/

namespace ScriptLens

open Node ScopeTree

/-- The name that a definition introduces, its kind and its offset. -/
def Definition.summary (d : Definition) : String × DefinitionKind × Nat :=
  (d.name, d.kind, d.offset)

/-- **A scope tree that registers the names and scopes of a tree**, and nothing else. -/
structure ScopeTree.Registers (t : ScopeTree) (root : Node) : Prop where
  /-- There is one definition for each declared name, in source order. -/
  definitions : t.definitions.map Definition.summary
    = root.declarations.filterMap (·.node.declares?)
  ascending : t.definitions.Pairwise (·.offset < ·.offset)
  /-- A definition is in one scope, that of the nearest construct around its
  declaration, at its offset. -/
  owner : ∀ (i : Nat) (d : Definition) (x : Site),
    t.definitions[i]? = some d → root.declarations[i]? = some x →
      ∀ scope offset, t.Holds scope offset (.definition i) ↔
        scope = root.scopeBelow x.above ∧ offset = d.offset
  /-- There is one scope for each construct that opens one, in source order, after that
  of the whole text. -/
  length_scopes : t.scopes.length = root.openings.length + 1
  file : ∃ s, t.scopes[ScopeTree.root]? = some s ∧ s.parent = none ∧ s.kind = .file
    ∧ s.span = ⟨0, root.span.stop⟩
  opened : ∀ (i : Nat) (x : Site), root.openings[i]? = some x →
    ∃ s kind start, t.scopes[i + 1]? = some s ∧ x.scope? = some (kind, start)
      ∧ s.parent = some (root.scopeBelow x.above) ∧ s.kind = kind
      ∧ s.span = ⟨start, x.node.span.stop⟩
  /-- A scope is in one other, that of the nearest construct around it, at its start. -/
  parent : ∀ (i : Nat) (s : Scope), t.scopes[i + 1]? = some s →
    ∀ scope offset, t.Holds scope offset (.child (i + 1)) ↔
      s.parent = some scope ∧ offset = s.span.start
  /-- Nothing else is in a scope. -/
  entries : ∀ scope offset entry, t.Holds scope offset entry →
    (∃ i < t.definitions.length, entry = .definition i)
      ∨ ∃ i < root.openings.length, entry = .child (i + 1)
  /-- Nothing is in a scope twice. -/
  sorted : ∀ s ∈ t.scopes, s.entries.Pairwise (·.1 < ·.1)

variable {tokens : List Token} {root n : Node} {x : Site} {above : List Node}

/-! ## The names that a tree declares -/

/-- The names of a node, one after the other. -/
theorem map_summary_named {define : String → Nat → Definition} {kind : DefinitionKind}
    (h : ∀ text offset, (define text offset).summary = (text, kind, offset)) (names : List Node) :
    (names.filterMap (named? define)).map Definition.summary = names.filterMap fun name =>
      name.identifierText?.map fun text => (text, kind, name.span.start) := by
  rw [List.map_filterMap]
  refine List.filterMap_congr fun name _ => ?_
  rw [named?, Option.map_map]
  exact congrArg (Option.map · _) (funext fun text => h text _)

/-- A node with one name defines it if it is there. -/
theorem Node.map_summary_of_names {name : Node} {kind : DefinitionKind} (hnames : n.names = [name])
    (hslot : n.nameSlot? = some (kind, name))
    (h : ∀ text offset, (n.definition text offset).summary = (text, kind, offset)) :
    n.definitions.map Definition.summary = n.declares?.toList := by
  rw [definitions, map_summary_named h, hnames, filterMap_cons_toList, declares?, hslot]
  cases htext : name.identifierText? <;> simp [htext]

/-- Nodes other than variables and their declarations define what they declare. -/
theorem Node.map_summary_definitions (hvariables : n.kind ≠ .variableDeclaration)
    (hvariable : n.kind ≠ .variableDeclarator) :
    n.definitions.map Definition.summary = n.declares?.toList := by
  obtain ⟨id, span, payload⟩ := n
  cases payload
  case variableDeclaration => exact absurd rfl hvariables
  case variableDeclarator => exact absurd rfl hvariable
  case functionDeclaration => exact map_summary_of_names rfl rfl fun _ _ => rfl
  case classDeclaration => exact map_summary_of_names rfl rfl fun _ _ => rfl
  case parameter => exact map_summary_of_names rfl rfl fun _ _ => rfl
  case binding => exact map_summary_of_names rfl rfl fun _ _ => rfl
  all_goals rfl

/-- A declaration of variables defines what the variables declare. -/
theorem Node.map_summary_of_variables {id : Nat} {span : Span} {modifiers declarators : List Node}
    {flags : List Modifier} {type : Node}
    (hkind : ∀ d ∈ declarators, d.kind = .variableDeclarator) :
    (definitions ⟨id, span, .variableDeclaration modifiers flags type declarators⟩).map
      Definition.summary = declarators.filterMap declares? := by
  rw [definitions, map_summary_named fun _ _ => rfl]
  show (declarators.filterMap declaratorName?).filterMap _ = _
  rw [List.filterMap_filterMap]
  refine List.filterMap_congr fun d hd => ?_
  obtain ⟨id, span, payload⟩ := d
  cases payload
  case variableDeclarator name value =>
    show name.identifierText?.map _ = _
    cases htext : name.identifierText? <;> simp [declares?, nameSlot?, htext]
  all_goals cases hkind _ hd

theorem Node.declares?_of_isSilent (h : n.kind.isSilent = true) : n.declares? = none := by
  obtain ⟨id, span, payload⟩ := n
  cases payload <;> first | rfl | cases h

theorem Node.definitions_of_isSilent (h : n.kind.isSilent = true) : n.definitions = [] := by
  obtain ⟨id, span, payload⟩ := n
  cases payload <;> first | rfl | cases h

/-- The definitions that a site makes, each with its scope. -/
def Site.defines (root : Node) (x : Site) : List (Nat × String × DefinitionKind × Nat) :=
  (x.node.definitions.map Definition.summary).map (root.scopeBelow x.above, ·)

/-- What a site declares, with its scope. -/
def Site.declares? (root : Node) (x : Site) : Option (Nat × String × DefinitionKind × Nat) :=
  x.node.declares?.map (root.scopeBelow x.above, ·)

theorem Node.Silent.defines_eq_nil (h : n.Silent) (root : Node) (above : List Node) :
    (n.sites above).flatMap (Site.defines root) = [] := by
  refine List.flatMap_eq_nil_iff.2 fun x hx => ?_
  rw [Site.defines, definitions_of_isSilent (h _ (mem_postorder_of_mem_sites hx))]
  rfl

theorem Node.Silent.declares_eq_nil (h : n.Silent) (root : Node) (above : List Node) :
    (n.sites above).filterMap (Site.declares? root) = [] := by
  refine List.filterMap_eq_nil_iff.2 fun x hx => ?_
  rw [Site.declares?, declares?_of_isSilent (h _ (mem_postorder_of_mem_sites hx))]
  rfl

theorem Node.Quiet.defines_eq_nil {ns : List Node} (h : Quiet ns) (root : Node)
    (above : List Node) : (ns.flatMap (sites above)).flatMap (Site.defines root) = [] := by
  rw [List.flatMap_assoc]
  exact List.flatMap_eq_nil_iff.2 fun n hn => (h n hn).defines_eq_nil root above

theorem Node.Quiet.declares_eq_nil {ns : List Node} (h : Quiet ns) (root : Node)
    (above : List Node) : (ns.flatMap (sites above)).filterMap (Site.declares? root) = [] := by
  rw [List.filterMap_flatMap]
  exact List.flatMap_eq_nil_iff.2 fun n hn => (h n hn).declares_eq_nil root above

/-- A variable declares its name and makes no definition. -/
theorem Node.sites_of_variable (hlaid : Laid tokens n) (hkind : n.kind = .variableDeclarator)
    (root : Node) (above : List Node) :
    (n.sites above).flatMap (Site.defines root) = []
      ∧ (n.sites above).filterMap (Site.declares? root)
        = (Site.declares? root ⟨n, above⟩).toList := by
  have hquiet : Quiet n.children := hlaid.quiet_parts (by rw [hkind]; rfl)
  rw [sites_eq, List.flatMap_cons, filterMap_cons_toList, hquiet.defines_eq_nil,
    hquiet.declares_eq_nil]
  refine ⟨?_, List.append_nil _⟩
  obtain ⟨id, span, payload⟩ := n
  cases payload <;> first | rfl | cases hkind

/-- A declaration of variables makes the definitions that its variables declare. -/
theorem Node.sites_of_variables {id : Nat} {span : Span} {modifiers declarators : List Node}
    {flags : List Modifier} {type : Node}
    (hself : Laid tokens ⟨id, span, .variableDeclaration modifiers flags type declarators⟩)
    (hparts : ∀ d ∈ declarators, Laid tokens d) (root : Node) (above : List Node) :
    (sites above ⟨id, span, .variableDeclaration modifiers flags type declarators⟩).flatMap
        (Site.defines root)
      = (sites above ⟨id, span, .variableDeclaration modifiers flags type declarators⟩).filterMap
        (Site.declares? root) := by
  obtain ⟨hmodifiers, htype, hkind⟩ := hself.declarators _ _ _ _ rfl
  have hquiet : Quiet (modifiers ++ [type]) := by simp [hmodifiers, htype]
  have hvariable := fun d hd => sites_of_variable (hparts d hd) (hkind d hd) root
  generalize hn : Node.mk id span (.variableDeclaration modifiers flags type declarators) = n
  have hchildren : n.children = (modifiers ++ [type]) ++ declarators := by
    rw [← hn, List.append_assoc]
    rfl
  have hscope : root.scopeBelow (n :: above) = root.scopeBelow above := by
    rw [← hn]
    exact scopeBelow_path_of_not_opens (x := ⟨_, above⟩) nofun
  have hdefines : Site.defines root ⟨n, above⟩
      = declarators.filterMap fun d => Site.declares? root ⟨d, n :: above⟩ := by
    have hsummary : n.definitions.map Definition.summary = declarators.filterMap declares? := by
      rw [← hn]
      exact map_summary_of_variables hkind
    rw [Site.defines, hsummary, List.map_filterMap]
    simp only [Site.declares?, hscope]
  have hdeclares : (Site.declares? root ⟨n, above⟩).toList = [] := by
    rw [← hn]
    rfl
  rw [sites_eq, List.flatMap_cons, filterMap_cons_toList, hdeclares, hdefines, hchildren,
    List.flatMap_append, List.flatMap_append, List.filterMap_append, hquiet.defines_eq_nil,
    hquiet.declares_eq_nil, List.flatMap_assoc, List.filterMap_flatMap,
    List.filterMap_eq_flatMap_toList]
  have hnone : (declarators.flatMap fun d => (d.sites (n :: above)).flatMap (Site.defines root))
      = [] := List.flatMap_eq_nil_iff.2 fun d hd => (hvariable d hd (n :: above)).1
  rw [hnone, List.append_nil, List.append_nil, List.nil_append, List.nil_append]
  exact List.flatMap_congr fun d hd => (hvariable d hd (n :: above)).2.symm

/-- **The definitions that a tree makes are those of the names that it declares.** By
induction on the tree; a declaration of variables is taken with its variables. -/
theorem flatMap_defines (hlaid : ∀ m ∈ n.postorder, Laid tokens m)
    (hkind : n.kind ≠ .variableDeclarator) (root : Node) (above : List Node) :
    (n.sites above).flatMap (Site.defines root)
      = (n.sites above).filterMap (Site.declares? root) := by
  induction n using childInduction generalizing above with
  | step n ih =>
    obtain ⟨hparts, hself⟩ := forall_mem_postorder.1 hlaid
    by_cases hvariables : n.kind = .variableDeclaration
    · obtain ⟨id, span, payload⟩ := n
      cases payload
      case variableDeclaration modifiers flags type declarators =>
        refine sites_of_variables hself (fun d hd => ?_) root above
        refine hparts d ?_ d d.mem_postorder_self
        exact List.mem_append_right _ (List.mem_cons_of_mem _ hd)
      all_goals cases hvariables
    · have hnode : Site.defines root ⟨n, above⟩ = (Site.declares? root ⟨n, above⟩).toList := by
        rw [Site.declares?, Site.defines, map_summary_definitions hvariables hkind,
          Option.toList_map]
      have hrest : ∀ c ∈ n.children, c.kind ≠ .variableDeclarator := fun c hc heq =>
        hvariables (hself.variable_parent c hc heq)
      rw [sites_eq, List.flatMap_cons, filterMap_cons_toList, hnode, List.flatMap_assoc,
        List.filterMap_flatMap]
      refine congrArg _ (List.flatMap_congr fun c hc => ?_)
      exact ih c hc (hparts c hc) (hrest c hc) (n :: above)

/-! ## The scopes of a text -/

theorem Node.filterMap_declares?_sites (root : Node) :
    (root.sites []).filterMap (Site.declares? root)
      = root.declarations.filterMap (Site.declares? root) := by
  rw [declarations, List.filterMap_filter]
  refine List.filterMap_congr fun x _ => ?_
  cases h : x.node.declares? <;> simp [Site.declares?, h]

theorem Node.filterMap_opened?_sites (root : Node) :
    (root.sites []).filterMap (Site.opened? root)
      = root.openings.filterMap (Site.opened? root) := by
  rw [openings, List.filterMap_filter]
  refine List.filterMap_congr fun x _ => ?_
  cases h : x.scope? <;> simp [Site.opened?, Site.opens, h]

namespace Orderly

/-- The definitions in the events of a tree are its declarations. -/
theorem map_definition?_events (hroot : Orderly tokens root) :
    (root.events.filterMap Event.definition?).map (fun p => (p.1, p.2.summary))
      = root.declarations.filterMap (Site.declares? root) := by
  have hkind : root.kind ≠ .variableDeclarator := ne_variableDeclarator_of_isFree hroot.isFree
  rw [← filterMap_declares?_sites, ← flatMap_defines hroot.laid hkind, Node.events,
    Site.filterMap_definition?_events, List.map_flatMap]
  refine List.flatMap_congr fun x _ => ?_
  rw [Site.defines, List.map_map, List.map_map]
  rfl

/-- The scopes in the events of a tree, one for each construct that opens one. -/
theorem scope?_events_getElem? (root : Node) (i : Nat) :
    (root.events.filterMap Event.scope?)[i]? = root.openings[i]?.bind (Site.opened? root) := by
  rw [Node.events, Site.filterMap_scope?_events, filterMap_opened?_sites]
  refine getElem?_filterMap_of_isSome (fun x hx => ?_) i
  rw [Site.isSome_opened?]
  exact (List.mem_filter.1 hx).2

/-- A definition in the events of a tree is in the scope of its declaration. -/
theorem definition?_events_getElem? (hroot : Orderly tokens root) {i owner : Nat} {d : Definition}
    (hd : (root.events.filterMap Event.definition?)[i]? = some (owner, d))
    (hx : root.declarations[i]? = some x) : owner = root.scopeBelow x.above := by
  have hplace := congrArg (·[i]?) hroot.map_definition?_events
  simp only [List.getElem?_map, hd, Option.map_some] at hplace
  rw [getElem?_filterMap_of_isSome, hx] at hplace
  · obtain ⟨s, -, heq⟩ := Option.map_eq_some_iff.1 hplace.symm
    exact (congrArg Prod.fst heq).symm
  · intro y hy
    rw [Site.declares?, Option.isSome_map]
    exact (List.mem_filter.1 hy).2

theorem map_summary_ofRoot (hroot : Orderly tokens root) :
    (ofRoot root).definitions.map Definition.summary
      = root.declarations.filterMap (·.node.declares?) := by
  have hsecond := congrArg (List.map Prod.snd) hroot.map_definition?_events
  rw [List.map_map] at hsecond
  rw [hroot.ofRoot_eq_replay, replay_definitions, List.map_map]
  refine hsecond.trans ?_
  rw [List.map_filterMap]
  refine List.filterMap_congr fun x _ => ?_
  rw [Site.declares?, Option.map_map]
  exact congrFun Option.map_id_fun _

/-- A definition is in the scope of its declaration and in no other. -/
theorem holds_definition (hroot : Orderly tokens root) {i : Nat} {d : Definition}
    (hd : (ofRoot root).definitions[i]? = some d) (hx : root.declarations[i]? = some x)
    (scope offset : Nat) :
    (ofRoot root).Holds scope offset (.definition i) ↔
      scope = root.scopeBelow x.above ∧ offset = d.offset := by
  rw [hroot.ofRoot_eq_replay, replay_definitions, List.getElem?_map] at hd
  obtain ⟨⟨owner, d'⟩, hevent, rfl⟩ := Option.map_eq_some_iff.1 hd
  rw [hroot.ofRoot_eq_replay, holds_replay hroot.lawful_events, definition_mem_registrations,
    ← hroot.definition?_events_getElem? hevent hx]
  constructor
  · rintro ⟨j, e, rfl, hevent', rfl⟩
    rw [Nat.zero_add, hevent'] at hevent
    cases hevent
    exact ⟨rfl, rfl⟩
  · rintro ⟨rfl, rfl⟩
    exact ⟨i, d', (Nat.zero_add i).symm, hevent, rfl⟩

/-- How the scope of a construct was opened. -/
theorem getElem?_ofRoot (hroot : Orderly tokens root) (i : Nat) :
    (ofRoot root).scopes[i + 1]? = (root.openings[i]?.bind (Site.opened? root)).map fun s =>
      { s with entries := entriesFor (i + 1) (registrations 1 0 root.events) } := by
  rw [hroot.ofRoot_eq_replay, replay_getElem? hroot.lawful_events, bareScopes,
    List.getElem?_cons_succ, scope?_events_getElem?]

/-- A scope is in its parent and in no other. -/
theorem holds_child (hroot : Orderly tokens root) {i : Nat} {s : Scope}
    (hs : (ofRoot root).scopes[i + 1]? = some s) (scope offset : Nat) :
    (ofRoot root).Holds scope offset (.child (i + 1)) ↔
      s.parent = some scope ∧ offset = s.span.start := by
  rw [hroot.getElem?_ofRoot] at hs
  obtain ⟨s', hs', rfl⟩ := Option.map_eq_some_iff.1 hs
  rw [← scope?_events_getElem?] at hs'
  rw [hroot.ofRoot_eq_replay, holds_replay hroot.lawful_events, child_mem_registrations]
  constructor
  · rintro ⟨j, s'', hij, hj, hparent, rfl⟩
    obtain rfl : i = j := by rw [Nat.add_comm] at hij; exact Nat.add_left_cancel hij
    rw [hj] at hs'
    cases hs'
    exact ⟨hparent, rfl⟩
  · rintro ⟨hparent, rfl⟩
    exact ⟨i, s', Nat.add_comm _ _, hs', hparent, rfl⟩

/-- **What an orderly tree registers.** -/
theorem registers (hroot : Orderly tokens root) : (ofRoot root).Registers root := by
  have hlawful := hroot.lawful_events
  have hreplay := hroot.ofRoot_eq_replay
  have hlength : (ofRoot root).scopes.length = root.openings.length + 1 := by
    rw [hreplay, replay, length_foldl_apply_scopes, Node.events,
      Site.length_filterMap_scope?_events, Nat.add_comm]
    rfl
  refine ⟨hroot.map_summary_ofRoot, ?_, fun i d x hd hx => hroot.holds_definition hd hx,
    hlength, ?_, fun i x hx => ?_, fun i s hs => hroot.holds_child hs, ?_, ?_⟩
  · rw [hreplay]
    exact pairwise_definitions_replay hlawful
  · rw [hreplay, replay_getElem? hlawful]
    exact ⟨_, rfl, rfl, rfl, rfl⟩
  · obtain ⟨⟨kind, start⟩, hscope⟩ :=
      Option.isSome_iff_exists.1 (List.mem_filter.1 (List.mem_of_getElem? hx)).2
    rw [hroot.getElem?_ofRoot, hx, Option.bind_some, Site.opened?, hscope]
    exact ⟨_, kind, start, rfl, rfl, rfl, rfl, rfl⟩
  · intro scope offset entry hentry
    rw [hreplay, holds_replay hlawful] at hentry
    cases entry with
    | definition i =>
      obtain ⟨j, d, rfl, hj, -⟩ := definition_mem_registrations.1 hentry
      refine .inl ⟨0 + j, ?_, rfl⟩
      rw [hreplay, replay_definitions, List.length_map, Nat.zero_add]
      exact (List.getElem?_eq_some_iff.1 hj).1
    | child i =>
      obtain ⟨j, s, rfl, hj, -, -⟩ := child_mem_registrations.1 hentry
      refine .inr ⟨j, ?_, congrArg _ (Nat.add_comm 1 j)⟩
      rw [scope?_events_getElem?] at hj
      obtain ⟨x, hx, -⟩ := Option.bind_eq_some_iff.1 hj
      exact (List.getElem?_eq_some_iff.1 hx).1
  · rw [hreplay]
    exact pairwise_entries_replay hlawful

end Orderly

/-- **Names are registered where they belong.** -/
theorem ofRoot_registers (fileName : String) (text : List Char) :
    (ofRoot (SourceTree.parse fileName text).root).Registers
      (SourceTree.parse fileName text).root :=
  (SourceTree.parse_orderly fileName text).registers

end ScriptLens
