import ScriptLens.Proofs.Silence

/-!
# How names and scopes are laid out

Every name and every scope is kept under an offset, its key: a name under the offset
at which it stands, a scope under the offset at which it starts. Two keys at one
offset would lose one of them. Offsets alone do not exclude this. The scope of a
class without braces starts and ends at the end of the class, and the next construct
may start right there; if that is a block, its scope starts at the same offset.

What excludes it is the layout of the constructs that have keys, and this is a
matter of each node and its parts (`Laid`): keys lie behind the start of a node, with
the exception of a block, whose key is its brace; and keys lie before the end of a
node, with the exception of a class without braces, which no brace follows. A tree
laid out like this has all its keys in strict order (`Laid.keysLaid`), in the order
in which its sites are listed.
-/

namespace ScriptLens

open Node

/-- Whether an opening brace stands at an offset. -/
def BraceAt (tokens : List Token) (offset : Nat) : Prop :=
  ∃ t ∈ tokens, t.kind = .punctuation .openBrace ∧ t.span.start = offset

/-- Whether nodes of a kind have no keys and are no variable of a declaration. -/
def NodeKind.isPlain : NodeKind → Bool
  | classDeclaration | functionDeclaration | variableDeclaration | variableDeclarator
  | parameter | binding | block => false
  | _ => true

/-- Whether nodes of a kind can be parts of any statement. Variables and bindings stand
in certain constructs only. -/
def NodeKind.isFree : NodeKind → Bool
  | variableDeclarator | binding => false
  | _ => true

theorem NodeKind.isPlain_of_isSilent {kind : NodeKind} (h : kind.isSilent = true) :
    kind.isPlain = true := by
  cases kind <;> first | rfl | cases h

theorem NodeKind.isFree_of_isPlain {kind : NodeKind} (h : kind.isPlain = true) :
    kind.isFree = true := by
  cases kind <;> first | rfl | cases h

namespace Node

/-! ## Keys -/

/-- The names that a node brings into its scope. The variables of a declaration come
with the declaration. -/
def names (n : Node) : List Node :=
  match n.payload with
  | .functionDeclaration _ _ _ name _ _ => [name]
  | .classDeclaration _ _ name _ => [name]
  | .variableDeclaration _ _ _ declarators => declarators.filterMap ScopeTree.declaratorName?
  | .parameter _ name _ => [name]
  | .binding _ name => [name]
  | _ => []

/-- The names that are there. -/
def identifiers (names : List Node) : List Node := names.filter (·.identifierText?.isSome)

/-- **The keys of a node**: the offsets of its names and the start of its scope. -/
def keys (n : Node) : List Nat :=
  (identifiers n.names).map (·.span.start) ++ (n.scope?.map Prod.snd).toList

/-- A tree without keys. -/
def Keyless (n : Node) : Prop := ∀ m ∈ n.postorder, m.keys = []

variable {n : Node}

theorem mem_identifiers {names : List Node} {name : Node} :
    name ∈ identifiers names ↔ name ∈ names ∧ name.identifierText?.isSome = true :=
  List.mem_filter

theorem keys_of_isPlain (h : n.kind.isPlain = true) : n.keys = [] := by
  obtain ⟨id, span, payload⟩ := n
  cases payload <;> first | rfl | cases h

theorem Silent.keyless (h : n.Silent) : n.Keyless :=
  fun m hm => keys_of_isPlain (NodeKind.isPlain_of_isSilent (h m hm))

theorem Silent.isPlain (h : n.Silent) : n.kind.isPlain = true :=
  NodeKind.isPlain_of_isSilent (silent_iff.1 h).1

theorem Silent.isFree (h : n.Silent) : n.kind.isFree = true :=
  NodeKind.isFree_of_isPlain h.isPlain

end Node

/-! ## Layout -/

/-- **Where the keys of a node are.** -/
structure KeysPlaced (tokens : List Token) (n : Node) : Prop where
  ascending : n.keys.Pairwise (· < ·)
  within : ∀ k ∈ n.keys, n.span.start ≤ k ∧ k ≤ n.span.stop ∧ n.span.start < n.span.stop
  /-- The key of a block is its brace, and a binding may start with its name. -/
  at_start : n.span.start ∈ n.keys → BraceAt tokens n.span.start ∨ n.kind = .binding
  /-- Only the scope of a class can be empty, and then no block follows at once. -/
  at_stop : n.span.stop ∈ n.keys → ¬BraceAt tokens n.span.stop ∧ n.kind = .classDeclaration
  parts_behind : ∀ c ∈ n.children, c.Keyless ∨ ∀ k ∈ n.keys, k < c.span.start

/-- **Where bindings are among the parts of a node**: behind its start, and behind what
comes before them unless that is another binding. -/
structure BindingsApart (n : Node) : Prop where
  binding_behind : ∀ c ∈ n.children, c.kind = .binding → n.span.start < c.span.start
  binding_apart : n.children.Pairwise fun b c =>
    c.kind = .binding → b.kind = .binding ∨ b.span.stop < c.span.start

/-- Whether all parts of nodes of a kind are silent: those of a type or a directive, those
of a variable, a parameter or a binding, and those of an expression with parts of its
own. -/
def NodeKind.hasQuietParts (kind : NodeKind) : Bool :=
  !ScopeTree.descends kind || kind == variableDeclarator || kind == parameter || kind == binding
    || kind == call || kind == cast || kind == binary

/-- The modifiers, the type and the name of a declaration, which stand before its other
parts. -/
def Node.heads (n : Node) : List Node :=
  match n.payload with
  | .functionDeclaration modifiers _ type name _ _ => modifiers ++ [type, name]
  | .classDeclaration modifiers _ name _ => modifiers ++ [name]
  | .variableDeclaration modifiers _ type _ => modifiers ++ [type]
  | _ => []

theorem Node.mem_children_of_mem_heads {n c : Node} (h : c ∈ n.heads) : c ∈ n.children := by
  obtain ⟨id, span, payload⟩ := n
  cases payload
  case functionDeclaration | classDeclaration | variableDeclaration =>
    simp only [heads, children, Payload.children, List.mem_append, List.mem_cons] at h ⊢
    grind
  all_goals cases h

theorem Node.heads_of_isPlain {n : Node} (h : n.kind.isPlain = true) : n.heads = [] := by
  obtain ⟨id, span, payload⟩ := n
  cases payload <;> first | rfl | cases h

/-- **What the parts of a node are**, as far as declarations go. -/
structure PartsKnown (n : Node) : Prop where
  quiet_parts : n.kind.hasQuietParts = true → Quiet n.children
  quiet_heads : Quiet n.heads
  /-- Only a declaration of variables has variables. -/
  variable_parent : ∀ c ∈ n.children, c.kind = .variableDeclarator →
    n.kind = .variableDeclaration
  declarators : ∀ modifiers flags type declarators,
    n.payload = .variableDeclaration modifiers flags type declarators →
      Quiet modifiers ∧ type.Silent ∧ ∀ d ∈ declarators, d.kind = .variableDeclarator
  /-- A function ends with its body. -/
  body_stop : ∀ body, n.body? = some body → body.span.stop = n.span.stop

/-- **The layout of a node**: where its keys are and what its parts are. -/
structure Laid (tokens : List Token) (n : Node) : Prop
    extends KeysPlaced tokens n, BindingsApart n, PartsKnown n

section Layout

variable {tokens : List Token} {n name : Node}

theorem KeysPlaced.of_nil (h : n.keys = []) : KeysPlaced tokens n := by
  refine ⟨?_, ?_, ?_, ?_, ?_⟩
  · rw [h]
    exact .nil
  all_goals simp [h]

/-- Keys that are at neither edge of their node. -/
theorem KeysPlaced.of_inside (hascending : n.keys.Pairwise (· < ·))
    (hinside : ∀ k ∈ n.keys, n.span.start < k ∧ k < n.span.stop)
    (hparts : ∀ c ∈ n.children, c.Keyless ∨ ∀ k ∈ n.keys, k < c.span.start) :
    KeysPlaced tokens n := by
  refine ⟨hascending, fun k hk => ?_, fun hk => ?_, fun hk => ?_, hparts⟩
  · obtain ⟨hstart, hstop⟩ := hinside k hk
    exact ⟨Nat.le_of_lt hstart, Nat.le_of_lt hstop, Nat.lt_trans hstart hstop⟩
  · exact absurd (hinside _ hk).1 (Nat.lt_irrefl _)
  · exact absurd (hinside _ hk).2 (Nat.lt_irrefl _)

theorem BindingsApart.of_free (h : ∀ c ∈ n.children, c.kind.isFree = true) :
    BindingsApart n := by
  have hbinding : ∀ c ∈ n.children, c.kind ≠ .binding := by
    intro c hc heq
    have hfree := h c hc
    rw [heq] at hfree
    cases hfree
  refine ⟨fun c hc heq => absurd heq (hbinding c hc), ?_⟩
  exact List.pairwise_of_forall_mem_list fun b _ c hc heq => absurd heq (hbinding c hc)

/-- Parts that can stand anywhere, of a node that declares neither variables nor a
function. -/
theorem PartsKnown.of_free (h : ∀ c ∈ n.children, c.kind ≠ .variableDeclarator)
    (hquiet : n.kind.hasQuietParts = true → Quiet n.children) (hheads : Quiet n.heads)
    (hvariables : n.kind ≠ .variableDeclaration) (hfunction : n.kind ≠ .functionDeclaration) :
    PartsKnown n := by
  refine ⟨hquiet, hheads, fun c hc heq => absurd heq (h c hc), fun _ _ _ _ heq => ?_,
    fun body hbody => ?_⟩
  · exact absurd (by rw [kind, heq]; rfl) hvariables
  · exact absurd (kind_of_body? hbody) hfunction

theorem ne_variableDeclarator_of_isFree {kind : NodeKind} (h : kind.isFree = true) :
    kind ≠ .variableDeclarator := by
  rintro rfl
  cases h

theorem BindingsApart.of_quiet (h : Quiet n.children) : BindingsApart n :=
  .of_free fun c hc => (h c hc).isFree

/-- Silent parts, of a node that declares neither variables nor a function. -/
theorem PartsKnown.of_quiet (h : Quiet n.children) (hvariables : n.kind ≠ .variableDeclaration)
    (hfunction : n.kind ≠ .functionDeclaration) : PartsKnown n :=
  .of_free (fun c hc => ne_variableDeclarator_of_isFree (h c hc).isFree) (fun _ => h)
    (fun c hc => h c (mem_children_of_mem_heads hc)) hvariables hfunction

/-- A node without keys, of parts that can stand anywhere. -/
theorem Laid.of_plain (h : n.kind.isPlain = true)
    (hfree : ∀ c ∈ n.children, c.kind.isFree = true)
    (hquiet : n.kind.hasQuietParts = true → Quiet n.children) : Laid tokens n := by
  refine ⟨.of_nil (keys_of_isPlain h), .of_free hfree, .of_free ?_ hquiet ?_ ?_ ?_⟩
  · exact fun c hc => ne_variableDeclarator_of_isFree (hfree c hc)
  · rw [heads_of_isPlain h]
    exact quiet_nil
  all_goals
    intro heq
    rw [heq] at h
    cases h

theorem Laid.of_silent (h : n.Silent) : ∀ m ∈ n.postorder, Laid tokens m := by
  induction n using childInduction with
  | step n ih =>
    have hquiet := (silent_iff.1 h).2
    refine forall_mem_postorder.2 ⟨fun c hc => ih c hc (hquiet c hc), ?_⟩
    exact .of_plain h.isPlain (fun c hc => (hquiet c hc).isFree) fun _ => hquiet

/-! Each construct with keys, from where its parts are. -/

/-- What is known of a name that is declared: if it is there, it is not empty. -/
def Wide (name : Node) : Prop :=
  name.identifierText?.isSome = true → name.span.start < name.span.stop

/-- The key of a single name. -/
def nameKeys (name : Node) : List Nat := (identifiers [name]).map (·.span.start)

theorem mem_nameKeys {k : Nat} :
    k ∈ nameKeys name ↔ name.identifierText?.isSome = true ∧ k = name.span.start := by
  unfold nameKeys identifiers
  by_cases h : name.identifierText?.isSome = true <;> simp [h]

theorem pairwise_nameKeys (name : Node) : (nameKeys name).Pairwise (· < ·) := by
  unfold nameKeys identifiers
  by_cases h : name.identifierText?.isSome = true <;> simp [h]

theorem Laid.of_block {id : Nat} {span : Span} {statements : List Node}
    (hbrace : BraceAt tokens span.start) (hlt : span.start < span.stop)
    (hbehind : ∀ c ∈ statements, span.start < c.span.start)
    (hfree : ∀ c ∈ statements, c.kind.isFree = true) :
    Laid tokens ⟨id, span, .block statements⟩ := by
  have hkeys : Node.keys ⟨id, span, .block statements⟩ = [span.start] := rfl
  refine ⟨⟨?_, ?_, fun _ => .inl hbrace, fun hk => ?_, fun c hc => .inr ?_⟩, .of_free hfree,
    .of_free (fun c hc => ne_variableDeclarator_of_isFree (hfree c hc)) nofun quiet_nil nofun
      nofun⟩
  · rw [hkeys]
    exact List.pairwise_singleton _ _
  · simpa [hkeys] using ⟨Nat.le_of_lt hlt, hlt⟩
  · rw [hkeys, List.mem_singleton] at hk
    exact absurd hk (Nat.ne_of_gt hlt)
  · simpa [hkeys] using hbehind c hc

theorem Laid.of_parameter {id : Nat} {span : Span} {type : Node} {variadic : Bool}
    (hquiet : Quiet [type, name]) (hwide : Wide name)
    (hbehind : name.identifierText?.isSome = true → span.start < name.span.start)
    (hstop : name.span.stop ≤ span.stop) :
    Laid tokens ⟨id, span, .parameter type name variadic⟩ := by
  have hkeys : Node.keys ⟨id, span, .parameter type name variadic⟩ = nameKeys name :=
    List.append_nil _
  refine ⟨.of_inside ?_ ?_ fun c hc => .inl (hquiet c hc).keyless, .of_quiet hquiet,
    .of_quiet hquiet nofun nofun⟩
  · rw [hkeys]
    exact pairwise_nameKeys name
  · intro k hk
    rw [hkeys, mem_nameKeys] at hk
    obtain ⟨hname, rfl⟩ := hk
    exact ⟨hbehind hname, Nat.lt_of_lt_of_le (hwide hname) hstop⟩

theorem Laid.of_binding {id : Nat} {span : Span} {type : Option Node}
    (hquiet : Quiet (type.toList ++ [name])) (hwide : Wide name)
    (hstart : span.start ≤ name.span.start) (hstop : name.span.stop ≤ span.stop) :
    Laid tokens ⟨id, span, .binding type name⟩ := by
  have hkeys : Node.keys ⟨id, span, .binding type name⟩ = nameKeys name := List.append_nil _
  refine ⟨⟨?_, fun k hk => ?_, fun _ => .inr rfl, fun hk => ?_, fun c hc => ?_⟩,
    .of_quiet hquiet, .of_quiet hquiet nofun nofun⟩
  · rw [hkeys]
    exact pairwise_nameKeys name
  · rw [hkeys, mem_nameKeys] at hk
    obtain ⟨hname, rfl⟩ := hk
    have hlt := Nat.lt_of_lt_of_le (hwide hname) hstop
    exact ⟨hstart, Nat.le_of_lt hlt, Nat.lt_of_le_of_lt hstart hlt⟩
  · rw [hkeys, mem_nameKeys] at hk
    exact absurd hk.2 (Nat.ne_of_gt (Nat.lt_of_lt_of_le (hwide hk.1) hstop))
  · exact .inl (hquiet c hc).keyless

theorem Laid.of_declarator {id : Nat} {span : Span} {value : Option Node}
    (hquiet : Quiet (name :: value.toList)) :
    Laid tokens ⟨id, span, .variableDeclarator name value⟩ :=
  ⟨.of_nil rfl, .of_quiet hquiet, .of_quiet hquiet nofun nofun⟩

theorem Laid.of_class {id : Nat} {span : Span} {modifiers members : List Node}
    {flags : List Modifier} (hquiet : Quiet (modifiers ++ [name])) (hwide : Wide name)
    (hstart : span.start < name.span.start) (hname : name.span.start ≤ name.span.stop)
    (hstop : name.span.stop ≤ span.stop)
    (hbrace : BraceAt tokens name.span.stop → name.span.stop < span.stop)
    (hbehind : ∀ c ∈ members, name.span.stop < c.span.start)
    (hfree : ∀ c ∈ members, c.kind.isFree = true) :
    Laid tokens ⟨id, span, .classDeclaration modifiers flags name members⟩ := by
  have hkeys : Node.keys ⟨id, span, .classDeclaration modifiers flags name members⟩
      = nameKeys name ++ [name.span.stop] := rfl
  have hmem : ∀ {k : Nat}, k ∈ nameKeys name ++ [name.span.stop] ↔
      (name.identifierText?.isSome = true ∧ k = name.span.start) ∨ k = name.span.stop := by
    intro k
    rw [List.mem_append, mem_nameKeys, List.mem_singleton]
  have hparts : ∀ c ∈ modifiers ++ name :: members, c ∈ modifiers ++ [name] ∨ c ∈ members := by
    intro c hc
    simpa [or_assoc] using hc
  have hfree' : ∀ c ∈ modifiers ++ name :: members, c.kind.isFree = true := fun c hc =>
    (hparts c hc).elim (fun hc => (hquiet c hc).isFree) (hfree c)
  refine ⟨⟨?_, fun k hk => ?_, fun hk => ?_, fun hk => ?_, fun c hc => ?_⟩, .of_free hfree',
    .of_free (fun c hc => ne_variableDeclarator_of_isFree (hfree' c hc)) nofun hquiet nofun
      nofun⟩
  · rw [hkeys, List.pairwise_append]
    refine ⟨pairwise_nameKeys name, List.pairwise_singleton _ _, fun k hk l hl => ?_⟩
    rw [mem_nameKeys] at hk
    rw [hk.2, List.mem_singleton.1 hl]
    exact hwide hk.1
  · rw [hkeys, hmem] at hk
    show span.start ≤ k ∧ k ≤ span.stop ∧ span.start < span.stop
    omega
  · rw [hkeys, hmem] at hk
    have hk' : span.start = name.span.start ∨ span.start = name.span.stop := hk.imp_left And.right
    omega
  · rw [hkeys, hmem] at hk
    refine ⟨fun hat => ?_, rfl⟩
    rcases hk with ⟨hident, heq⟩ | heq
    · exact absurd heq (Nat.ne_of_gt (Nat.lt_of_lt_of_le (hwide hident) hstop))
    · have hat' : BraceAt tokens span.stop := hat
      exact absurd (hbrace (heq ▸ hat')) (Nat.not_lt.2 (Nat.le_of_eq heq))
  · refine (hparts c hc).imp (fun hc => (hquiet c hc).keyless) fun hc k hk => ?_
    rw [hkeys, hmem] at hk
    have hlt := hbehind c hc
    omega

theorem Laid.of_function {id : Nat} {span : Span} {modifiers : List Node} {flags : List Modifier}
    {type : Node} {parameters : ArgumentList Node} {body : Option Node}
    (hquiet : Quiet (modifiers ++ [type, name])) (hwide : Wide name)
    (hname : name.identifierText?.isSome = true → span.start < name.span.start)
    (hopen : name.span.stop ≤ parameters.span.start)
    (hstart : span.start < parameters.span.start) (hstop : parameters.span.start < span.stop)
    (hbehind : ∀ c ∈ parameters.items ++ body.toList, parameters.span.start < c.span.start)
    (hfree : ∀ c ∈ parameters.items ++ body.toList, c.kind.isFree = true)
    (hbody : ∀ b ∈ body, b.span.stop = span.stop) :
    Laid tokens ⟨id, span, .functionDeclaration modifiers flags type name parameters body⟩ := by
  have hkeys : Node.keys
      ⟨id, span, .functionDeclaration modifiers flags type name parameters body⟩
      = nameKeys name ++ [parameters.span.start] := rfl
  have hmem : ∀ {k : Nat}, k ∈ nameKeys name ++ [parameters.span.start] ↔
      (name.identifierText?.isSome = true ∧ k = name.span.start)
        ∨ k = parameters.span.start := by
    intro k
    rw [List.mem_append, mem_nameKeys, List.mem_singleton]
  have hbefore : ∀ {k : Nat}, name.identifierText?.isSome = true ∧ k = name.span.start →
      span.start < k ∧ k < parameters.span.start := by
    rintro _ ⟨hident, rfl⟩
    exact ⟨hname hident, Nat.lt_of_lt_of_le (hwide hident) hopen⟩
  have hparts : ∀ c ∈ modifiers ++ type :: name :: parameters.items ++ body.toList,
      c ∈ modifiers ++ [type, name] ∨ c ∈ parameters.items ++ body.toList := by
    intro c hc
    simpa [or_assoc] using hc
  have hfree' : ∀ c ∈ modifiers ++ type :: name :: parameters.items ++ body.toList,
      c.kind.isFree = true := fun c hc =>
    (hparts c hc).elim (fun hc => (hquiet c hc).isFree) (hfree c)
  refine ⟨.of_inside ?_ (fun k hk => ?_) fun c hc => ?_, .of_free hfree',
    ⟨nofun, hquiet, fun c hc heq => ?_, nofun, fun b hb => hbody b hb⟩⟩
  · rw [hkeys, List.pairwise_append]
    refine ⟨pairwise_nameKeys name, List.pairwise_singleton _ _, fun k hk l hl => ?_⟩
    rw [List.mem_singleton.1 hl]
    exact (hbefore (mem_nameKeys.1 hk)).2
  · rw [hkeys, hmem] at hk
    rcases hk with hk | rfl
    · exact ⟨(hbefore hk).1, Nat.lt_trans (hbefore hk).2 hstop⟩
    · exact ⟨hstart, hstop⟩
  · refine (hparts c hc).imp (fun hc => (hquiet c hc).keyless) fun hc k hk => ?_
    rw [hkeys, hmem] at hk
    rcases hk with hk | rfl
    · exact Nat.lt_trans (hbefore hk).2 (hbehind c hc)
    · exact hbehind c hc
  · exact absurd heq (ne_variableDeclarator_of_isFree (hfree' c hc))

theorem mem_children_of_declaratorName? {d : Node} (h : ScopeTree.declaratorName? d = some name) :
    name ∈ d.children := by
  unfold ScopeTree.declaratorName? at h
  split at h
  · next heq =>
    rw [children, heq, ← Option.some.inj h]
    exact List.mem_cons_self
  · cases h

/-- The names of a declaration of variables ascend because the variables do not
overlap. -/
theorem Laid.of_variables {id : Nat} {span : Span} {modifiers declarators : List Node}
    {flags : List Modifier} {type : Node}
    (hn : WellNested ⟨id, span, .variableDeclaration modifiers flags type declarators⟩)
    (hquiet : Quiet (modifiers ++ [type]))
    (hkind : ∀ d ∈ declarators, d.kind = .variableDeclarator ∧ Quiet d.children)
    (hname : ∀ d ∈ declarators, ∀ name, ScopeTree.declaratorName? d = some name →
      Wide name ∧ (name.identifierText?.isSome = true → span.start < name.span.start)) :
    Laid tokens ⟨id, span, .variableDeclaration modifiers flags type declarators⟩ := by
  have hkeys : Node.keys ⟨id, span, .variableDeclaration modifiers flags type declarators⟩
      = (identifiers (declarators.filterMap ScopeTree.declaratorName?)).map (·.span.start) :=
    List.append_nil _
  obtain ⟨hchildren, hself⟩ := forall_mem_postorder.1 hn
  have hmem : ∀ d ∈ declarators,
      d ∈ Node.children ⟨id, span, .variableDeclaration modifiers flags type declarators⟩ :=
    fun d hd => List.mem_append_right _ (List.mem_cons_of_mem _ hd)
  -- a name lies inside its variable
  have hinside : ∀ d ∈ declarators, ∀ name, ScopeTree.declaratorName? d = some name →
      d.span.start ≤ name.span.start ∧ name.span.stop ≤ d.span.stop := fun d hd name h =>
    (hchildren d (hmem d hd) d d.mem_postorder_self).covers name
      (mem_children_of_declaratorName? h)
  have hquiet' : ∀ c ∈ modifiers ++ type :: declarators, c.Silent ∨ c ∈ declarators := by
    intro c hc
    have hc' : c ∈ modifiers ++ [type] ∨ c ∈ declarators := by simpa [or_assoc] using hc
    exact hc'.imp_left (hquiet c)
  have hbinding : ∀ c ∈ modifiers ++ type :: declarators, c.kind ≠ .binding := by
    intro c hc heq
    rcases hquiet' c hc with hsilent | hd
    · have hfree := hsilent.isFree
      rw [heq] at hfree
      cases hfree
    · rw [(hkind c hd).1] at heq
      cases heq
  refine ⟨.of_inside ?_ (fun k hk => ?_) fun c hc => .inl ?_,
    ⟨fun c hc heq => absurd heq (hbinding c hc), ?_⟩, ⟨nofun, hquiet, fun _ _ _ => rfl, ?_, nofun⟩⟩
  · rw [hkeys, identifiers, List.pairwise_map, List.pairwise_filter, List.pairwise_filterMap]
    have hpairwise : declarators.Pairwise fun d d' => d.span.stop ≤ d'.span.start :=
      (List.pairwise_cons.1 (List.pairwise_append.1 hn.pairwise_children).2.1).2
    refine hpairwise.imp_of_mem fun hd hd' hle name h name' h' hident _ => ?_
    have hwide := (hname _ hd name h).1 hident
    have hfirst := (hinside _ hd name h).2
    have hsecond := (hinside _ hd' name' h').1
    exact Nat.lt_of_lt_of_le hwide (Nat.le_trans hfirst (Nat.le_trans hle hsecond))
  · rw [hkeys] at hk
    obtain ⟨name, hname', rfl⟩ := List.mem_map.1 hk
    obtain ⟨hfilter, hident⟩ := mem_identifiers.1 hname'
    obtain ⟨d, hd, h⟩ := List.mem_filterMap.1 hfilter
    obtain ⟨hwide, hbehind⟩ := hname d hd name h
    refine ⟨hbehind hident, Nat.lt_of_lt_of_le (hwide hident) ?_⟩
    exact Nat.le_trans (hinside d hd name h).2 (hself.covers d (hmem d hd)).2
  · rcases hquiet' c hc with hsilent | hd
    · exact hsilent.keyless
    · -- a variable has no key of its own, and its parts are silent
      obtain ⟨hkind', hparts⟩ := hkind c hd
      refine forall_mem_postorder.2 ⟨fun e he => (hparts e he).keyless, ?_⟩
      obtain ⟨id, span, payload⟩ := c
      cases payload <;> first | rfl | cases hkind'
  · exact List.pairwise_of_forall_mem_list fun b _ c hc heq => absurd heq (hbinding c hc)
  · intro modifiers' flags' type' declarators' heq
    cases heq
    obtain ⟨hmodifiers, htype⟩ := quiet_append.1 hquiet
    exact ⟨hmodifiers, (quiet_cons.1 htype).1, fun d hd => (hkind d hd).1⟩

end Layout

/-- **A sound tree**: all its nodes are laid out, and no way down comes by more than
`limit` blocks. -/
structure Sound (tokens : List Token) (limit : Nat) (n : Node) : Prop where
  laid : ∀ m ∈ n.postorder, Laid tokens m
  blocks : n.Within .block limit

/-- A sound tree that can be a part of any statement. -/
structure Formed (tokens : List Token) (limit : Nat) (n : Node) : Prop
    extends Sound tokens limit n where
  isFree : n.kind.isFree = true

/-- Nodes each of which can be a part of any statement. -/
def Forms (tokens : List Token) (limit : Nat) (ns : List Node) : Prop :=
  ∀ n ∈ ns, Formed tokens limit n

section Forms

variable {tokens : List Token} {limit limit' : Nat} {n : Node} {ns ms : List Node}
  {o : Option Node}

@[simp] theorem forms_nil : Forms tokens limit [] := by simp [Forms]

@[simp] theorem forms_cons :
    Forms tokens limit (n :: ns) ↔ Formed tokens limit n ∧ Forms tokens limit ns :=
  List.forall_mem_cons

@[simp] theorem forms_append :
    Forms tokens limit (ns ++ ms) ↔ Forms tokens limit ns ∧ Forms tokens limit ms :=
  List.forall_mem_append

@[simp] theorem forms_toList :
    Forms tokens limit o.toList ↔ ∀ n ∈ o, Formed tokens limit n := by
  simp [Forms]

theorem Sound.mono (h : Sound tokens limit n) (hle : limit ≤ limit') : Sound tokens limit' n :=
  ⟨h.laid, h.blocks.mono hle⟩

theorem Formed.mono (h : Formed tokens limit n) (hle : limit ≤ limit') :
    Formed tokens limit' n :=
  ⟨h.toSound.mono hle, h.isFree⟩

theorem Forms.mono (h : Forms tokens limit ns) (hle : limit ≤ limit') : Forms tokens limit' ns :=
  fun n hn => (h n hn).mono hle

/-- A node that is laid out around sound parts is sound. Only a block adds to the
number of blocks. -/
theorem Sound.of_children (h : Laid tokens n) (hc : ∀ c ∈ n.children, Sound tokens limit c)
    (hkind : n.kind ≠ .block) : Sound tokens limit n := by
  refine ⟨forall_mem_postorder.2 ⟨fun c hmem => (hc c hmem).laid, h⟩, ?_⟩
  have hblocks := Within.of_children .block fun c hmem => (hc c hmem).blocks
  rwa [if_neg (by simpa using hkind)] at hblocks

theorem Sound.of_block (h : Laid tokens n) (hc : ∀ c ∈ n.children, Sound tokens limit c) :
    Sound tokens (limit + 1) n := by
  refine ⟨forall_mem_postorder.2 ⟨fun c hmem => (hc c hmem).laid, h⟩, ?_⟩
  refine (Within.of_children .block fun c hmem => (hc c hmem).blocks).mono ?_
  split
  · exact Nat.le_refl _
  · exact Nat.le_succ _

theorem Formed.of_silent (h : n.Silent) : Formed tokens limit n := by
  refine ⟨⟨Laid.of_silent h, ?_⟩, h.isFree⟩
  induction n using childInduction with
  | step n ih =>
    obtain ⟨hkind, hquiet⟩ := silent_iff.1 h
    have hblocks := Within.of_children .block fun c hc => ih c hc (hquiet c hc)
    rwa [if_neg] at hblocks
    intro heq
    rw [beq_iff_eq.1 heq] at hkind
    cases hkind

theorem Forms.of_quiet (h : Quiet ns) : Forms tokens limit ns :=
  fun n hn => .of_silent (h n hn)

theorem Sound.of_quiet (h : Laid tokens n) (hquiet : Quiet n.children) (hkind : n.kind ≠ .block) :
    Sound tokens limit n :=
  .of_children h (fun c hc => (Formed.of_silent (hquiet c hc)).toSound) hkind

/-- Parts some of which are silent. -/
theorem Sound.of_parts (h : Laid tokens n) (hparts : ∀ c ∈ n.children, c ∈ ns ∨ c ∈ ms)
    (hquiet : Quiet ns) (hsound : ∀ c ∈ ms, Sound tokens limit c) (hkind : n.kind ≠ .block) :
    Sound tokens limit n :=
  .of_children h (fun c hc => (hparts c hc).elim
    (fun hc => (Formed.of_silent (hquiet c hc)).toSound) (hsound c)) hkind

/-- A construct without keys of its own is formed of parts that are. -/
theorem Formed.of_plain (h : n.kind.isPlain = true) (hc : Forms tokens limit n.children)
    (hquiet : n.kind.hasQuietParts = true → Quiet n.children) : Formed tokens limit n := by
  have hlaid : Laid tokens n := .of_plain h (fun c hmem => (hc c hmem).isFree) hquiet
  refine ⟨.of_children hlaid (fun c hmem => (hc c hmem).toSound) fun heq => ?_,
    NodeKind.isFree_of_isPlain h⟩
  rw [heq] at h
  cases h

theorem ne_binding_of_isFree {kind : NodeKind} (h : kind.isFree = true) : kind ≠ .binding := by
  rintro rfl
  cases h

/-- A construct some of whose parts are bindings, behind its start. -/
theorem Formed.of_bindings (h : n.kind.isPlain = true) (hquiet : n.kind.hasQuietParts = false)
    (hparts : ∀ c ∈ n.children, (Sound tokens limit c ∧ c.kind = .binding
      ∧ n.span.start < c.span.start) ∨ Formed tokens limit c)
    (hapart : n.children.Pairwise fun b c =>
      c.kind = .binding → b.kind = .binding ∨ b.span.stop < c.span.start) :
    Formed tokens limit n := by
  have hother : ∀ {kind : NodeKind}, kind.isPlain = false → n.kind ≠ kind := by
    intro kind hkind heq
    rw [heq, hkind] at h
    cases h
  have hbehind : ∀ c ∈ n.children, c.kind = .binding → n.span.start < c.span.start :=
    fun c hc heq => (hparts c hc).elim (·.2.2) fun hformed =>
      absurd heq (ne_binding_of_isFree hformed.isFree)
  have hvariable : ∀ c ∈ n.children, c.kind ≠ .variableDeclarator := by
    intro c hc
    rcases hparts c hc with ⟨-, hbinding, -⟩ | hformed
    · rw [hbinding]
      nofun
    · exact ne_variableDeclarator_of_isFree hformed.isFree
  have hlaid : Laid tokens n := by
    refine ⟨.of_nil (keys_of_isPlain h), ⟨hbehind, hapart⟩, .of_free hvariable (fun hq => ?_)
      ?_ (hother rfl) (hother rfl)⟩
    · rw [hquiet] at hq
      cases hq
    · rw [heads_of_isPlain h]
      exact quiet_nil
  refine ⟨.of_children hlaid (fun c hc => ?_) (hother rfl), NodeKind.isFree_of_isPlain h⟩
  exact (hparts c hc).elim And.left Formed.toSound

end Forms

/-! ## The order of keys -/

/-- The keys of a tree, in the order of its sites. -/
def Node.allKeys (n : Node) : List Nat := (n.sites []).flatMap (·.node.keys)

theorem Node.allKeys_eq (n : Node) : n.allKeys = n.keys ++ n.children.flatMap allKeys := by
  rw [allKeys, sites_eq, List.flatMap_cons, List.flatMap_assoc]
  refine congrArg _ (List.flatMap_congr fun c _ => ?_)
  rw [sites_child, List.flatMap_map]
  rfl

theorem Node.Keyless.allKeys_eq_nil {n : Node} (h : n.Keyless) : n.allKeys = [] :=
  List.flatMap_eq_nil_iff.2 fun x hx => h x.node (mem_postorder_of_mem_sites hx)

/-- **The keys of a tree**: they lie within it, and where one is at the edge, this is
known of the edge. -/
structure KeysLaid (tokens : List Token) (n : Node) : Prop where
  ascending : n.allKeys.Pairwise (· < ·)
  within : ∀ k ∈ n.allKeys, n.span.start ≤ k ∧ k ≤ n.span.stop
  at_start : n.span.start ∈ n.allKeys → BraceAt tokens n.span.start ∨ n.kind = .binding
  at_stop : n.span.stop ∈ n.allKeys → ¬BraceAt tokens n.span.stop ∧ n.kind ≠ .binding

section Order

variable {tokens : List Token} {n : Node}

/-- The keys of parts that follow one another do. -/
theorem KeysLaid.lt_of_apart {b c : Node} (hb : KeysLaid tokens b) (hc : KeysLaid tokens c)
    (hle : b.span.stop ≤ c.span.start)
    (hapart : c.kind = .binding → b.kind = .binding ∨ b.span.stop < c.span.start)
    {k l : Nat} (hk : k ∈ b.allKeys) (hl : l ∈ c.allKeys) : k < l := by
  have hk' := (hb.within k hk).2
  have hl' := (hc.within l hl).1
  refine Nat.lt_of_le_of_ne (Nat.le_trans hk' (Nat.le_trans hle hl')) fun heq => ?_
  -- otherwise both keys are at the edge between the parts, where a brace is and is not
  obtain rfl : k = b.span.stop := by omega
  have hedge : b.span.stop = c.span.start := by omega
  obtain ⟨hbrace, hbinding⟩ := hb.at_stop hk
  rw [heq.trans (by omega : l = c.span.start)] at hbrace
  rcases hc.at_start (by rwa [← hedge, heq]) with h | h
  · exact hbrace h
  · exact (hapart h).elim hbinding (Nat.ne_of_lt · hedge)

/-- **The keys of a sound tree are in strict order.** -/
theorem Laid.keysLaid (h : ∀ m ∈ n.postorder, Laid tokens m) (hn : n.WellNested) :
    KeysLaid tokens n := by
  induction n using childInduction with
  | step n ih =>
    obtain ⟨hlaid, hself⟩ := forall_mem_postorder.1 h
    obtain ⟨hnested, hordered⟩ := forall_mem_postorder.1 hn
    have hparts : ∀ c ∈ n.children, KeysLaid tokens c :=
      fun c hc => ih c hc (hlaid c hc) (hnested c hc)
    have hmem : ∀ {k : Nat}, k ∈ n.allKeys ↔ k ∈ n.keys ∨ ∃ c ∈ n.children, k ∈ c.allKeys := by
      intro k
      rw [allKeys_eq, List.mem_append, List.mem_flatMap]
    refine ⟨?_, fun k hk => ?_, fun hk => ?_, fun hk => ?_⟩
    · rw [allKeys_eq, List.pairwise_append, List.pairwise_flatMap]
      refine ⟨hself.ascending, ⟨fun c hc => (hparts c hc).ascending, ?_⟩, fun k hk l hl => ?_⟩
      · refine (hn.pairwise_children.and hself.binding_apart).imp_of_mem ?_
        intro b c hb hc hbc k hk l hl
        exact (hparts b hb).lt_of_apart (hparts c hc) hbc.1 hbc.2 hk hl
      · obtain ⟨c, hc, hl⟩ := List.mem_flatMap.1 hl
        rcases hself.parts_behind c hc with hkeyless | hbehind
        · rw [hkeyless.allKeys_eq_nil] at hl
          cases hl
        · exact Nat.lt_of_lt_of_le (hbehind k hk) ((hparts c hc).within l hl).1
    · rcases hmem.1 hk with hk | ⟨c, hc, hk⟩
      · exact ⟨(hself.within k hk).1, (hself.within k hk).2.1⟩
      · have hcovers := hordered.covers c hc
        have hwithin := (hparts c hc).within k hk
        omega
    · rcases hmem.1 hk with hk | ⟨c, hc, hk⟩
      · exact hself.at_start hk
      · -- the part starts where its node does, so it is no binding
        have hcovers := hordered.covers c hc
        have hwithin := (hparts c hc).within _ hk
        have hstart : c.span.start = n.span.start := by omega
        rw [← hstart] at hk ⊢
        refine ((hparts c hc).at_start hk).imp_right fun hbinding => ?_
        exact absurd (hself.binding_behind c hc hbinding) (Nat.not_lt.2 (Nat.le_of_eq hstart))
    · rcases hmem.1 hk with hk | ⟨c, hc, hk⟩
      · obtain ⟨hbrace, hclass⟩ := hself.at_stop hk
        exact ⟨hbrace, fun hbinding => nomatch hclass.symm.trans hbinding⟩
      · have hcovers := hordered.covers c hc
        have hwithin := (hparts c hc).within _ hk
        have hstop : c.span.stop = n.span.stop := by omega
        refine ⟨?_, fun hbinding => ?_⟩
        · rw [← hstop] at hk ⊢
          exact ((hparts c hc).at_stop hk).1
        · have hquiet := hself.quiet_parts (by rw [hbinding]; rfl) c hc
          rw [hquiet.keyless.allKeys_eq_nil] at hk
          cases hk

end Order

end ScriptLens
