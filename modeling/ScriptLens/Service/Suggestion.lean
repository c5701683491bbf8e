import ScriptLens.Tree.Node

/-!
# What belongs at a cursor

A cursor in a source text calls for certain families of suggestions: a place for
a type calls for types, a place for a fresh name calls for none of the known
ones. `Node.suggestionAt` goes from the root towards the cursor and stops at the
first node that has a rule for the part the cursor is in. Parts are closed at
both ends, so a cursor that touches a part is in it.
-/

namespace ScriptLens

/-- The families of suggestions that belong at a cursor. -/
inductive SuggestionType
  | literal | any | literalOrIdentifier | identifier | type | modifier | typeOrModifier
deriving DecidableEq, Repr

namespace SuggestionType

/-- The name of a suggestion type in listings. -/
def name : SuggestionType → String
  | literal => "Literal"
  | any => "Any"
  | literalOrIdentifier => "LiteralOrIdentifier"
  | identifier => "Identifier"
  | type => "Type"
  | modifier => "Modifier"
  | typeOrModifier => "TypeOrModifier"

/-- What belongs in the place of a placeholder. -/
def ofExpected : Option Expected → SuggestionType
  | some .literal => literal
  | some .type => type
  | some .identifier => identifier
  | none => any

end SuggestionType

namespace Node

/-- Whether a cursor touches a node. -/
def touches (n : Node) (offset : Nat) : Bool := n.span.touches offset

/-- Whether a node stands in for a construct that is absent or wrong. -/
def isPlaceholder (n : Node) : Bool := n.kind.isSentinel

/-- What a node decides about a cursor: what belongs there, or that one of its
children decides. -/
inductive Decision (n : Node)
  | settled (result : SuggestionType)
  | delegated (child : Node) (isChild : child ∈ n.children)

namespace Decision

/-- The first child that a cursor touches decides; without one, anything belongs
there. -/
def firstTouched (n : Node) (offset : Nat) : Decision n :=
  match n.children.attach.find? (·.1.touches offset) with
  | some child => .delegated child.1 child.2
  | none => .settled .any

/-- A cursor on the modifiers or the type of a declaration. A placeholder in the
place of the type decides for itself; anywhere else is left to `otherwise`. -/
def ofTypeSlot {n : Node} (modifiers : List Node) (type : Node) (isChild : type ∈ n.children)
    (offset : Nat) (otherwise : Decision n) : Decision n :=
  if type.touches offset && type.isPlaceholder then .delegated type isChild
  else if modifiers.any (·.touches offset) || type.touches offset then .settled .typeOrModifier
  else otherwise

/-- A cursor on a declared name; anywhere else is left to `otherwise`. -/
def ofNameSlot {n : Node} (name : Node) (offset : Nat) (otherwise : Decision n) : Decision n :=
  if name.touches offset then .settled .literal else otherwise

/-- A cursor among the arguments of a call. An argument without parts is a name
being typed. -/
def ofArguments {n : Node} (arguments : List Node) (areChildren : ∀ c ∈ arguments, c ∈ n.children)
    (offset : Nat) : Decision n :=
  match arguments.attach.find? (·.1.touches offset) with
  | some argument =>
    if argument.1.children.isEmpty then .settled .identifier
    else .delegated argument.1 (areChildren argument.1 argument.2)
  | none => .settled .literalOrIdentifier

end Decision

/-- **The rules of the nodes.** -/
def decisionAt (n : Node) (offset : Nat) : Decision n :=
  match h : n.payload with
  | .functionDeclaration modifiers _ returnType name _ _ =>
    .ofTypeSlot modifiers returnType (by simp [children, h, Payload.children]) offset
      (.ofNameSlot name offset (.firstTouched n offset))
  | .variableDeclaration modifiers _ type _ =>
    .ofTypeSlot modifiers type (by simp [children, h, Payload.children]) offset
      (.firstTouched n offset)
  | .variableDeclarator name _ => .ofNameSlot name offset (.firstTouched n offset)
  | .classDeclaration modifiers _ name _ =>
    if modifiers.any (·.touches offset) then .settled .modifier
    else .ofNameSlot name offset (.firstTouched n offset)
  | .parameter type name _ =>
    if type.touches offset then .settled .type
    else .ofNameSlot name offset (.firstTouched n offset)
  | .includeDirective _ _ => .settled .literal
  | .inherit _ => .settled .literal
  | .call callee arguments =>
    if callee.touches offset then .settled .identifier
    else
      .ofArguments arguments.items
        (fun c hc => by simp [children, h, Payload.children, hc]) offset
  | .cast type operand =>
    if type.touches offset then .settled .type
    else if operand.touches offset && !operand.children.isEmpty then
      .delegated operand (by simp [children, h, Payload.children])
    else .settled .literalOrIdentifier
  | .binary left _ right =>
    if offset ≤ left.span.stop then .delegated left (by simp [children, h, Payload.children])
    else .delegated right (by simp [children, h, Payload.children])
  | .missing _ expected => .settled (.ofExpected expected)
  | .wrong _ expected => .settled (.ofExpected expected)
  | _ => .firstTouched n offset

/-- **What belongs at a cursor** in the text of a node. -/
def suggestionAt (n : Node) (offset : Nat) : SuggestionType :=
  match n.decisionAt offset with
  | .settled result => result
  | .delegated child _ => child.suggestionAt offset
termination_by n
decreasing_by exact sizeOf_lt_of_mem_children ‹_›

end Node

end ScriptLens
