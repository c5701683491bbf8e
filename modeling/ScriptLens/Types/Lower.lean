import ScriptLens.Parser.SourceFile
import ScriptLens.Types.Assignable

/-!
# The types that nodes denote

A type node denotes the type it spells, and a declaration the type it declares,
which for a function is the type of its result. A placeholder denotes a type
that is not known. All other nodes denote no type, and asking for it is an
error, not an incompatibility.

Some expressions show their type by their form; `Node.inferredType` reads it
off.
-/

namespace ScriptLens

/-- Why a node denotes no type. -/
inductive RelationError
  /-- The node is of a kind that denotes none. -/
  | notAType (kind : NodeKind)
  /-- There is no such node. -/
  | unknownNode (id : Option Nat)
deriving DecidableEq, Repr

/-- The number that messages give for an absent node. -/
def absentNodeNumber : Nat := 0xffffffff

/-- The message of an error. -/
def RelationError.message : RelationError → String
  | notAType kind => kind.name ++ " node does not denote a type"
  | unknownNode id =>
    "node NodeIndex(" ++ Nat.repr (id.getD absentNodeNumber) ++ ") is not in the arena"

namespace Node

/-- **The type that a node denotes.** -/
def loweredType : Node → Except RelationError TypeShape
  | ⟨_, _, .typeName head depth⟩ => .ok (.arrayOf (.ofHead head) depth)
  | ⟨_, _, .functionType returnType parameters variadic depth⟩ => do
    let result ← loweredType returnType
    let typed := parameters.attach.filter (·.1.kind != .ellipsis)
    let parameterTypes ← typed.mapM fun p => loweredType p.1
    return ⟨.function, depth, some ⟨result, parameterTypes, variadic⟩⟩
  | ⟨_, _, .missing _ _⟩ => .ok .unknown
  | ⟨_, _, .wrong _ _⟩ => .ok .unknown
  | ⟨_, _, .parameter type _ _⟩ => loweredType type
  | ⟨_, _, .variableDeclaration _ _ type _⟩ => loweredType type
  | ⟨_, _, .binding (some type) _⟩ => loweredType type
  | ⟨_, _, .binding none _⟩ => .ok .unknown
  | ⟨_, _, .functionDeclaration _ _ returnType _ _ _⟩ => loweredType returnType
  | n => .error (.notAType n.kind)
termination_by n => n
decreasing_by
  all_goals try have smaller := List.sizeOf_lt_of_mem p.2
  all_goals simp
  all_goals omega

/-- The type that a node denotes; unknown where it denotes none. -/
def loweredTypeD (n : Node) : TypeShape := n.loweredType.toOption.getD .unknown

/-- The tag of a literal's type. -/
def literalTag : LiteralValue → TypeTag
  | .int _ | .char _ => .int
  | .string _ => .string
  | .symbol _ => .symbol
  | .bool _ => .bool
  | .nil => .nil
  | .this => .object

/-- The type that an expression shows by its form; unknown where it shows
none. -/
def inferredType : Node → TypeShape
  | ⟨_, _, .literal value⟩ => .ofTag (literalTag value)
  | ⟨_, _, .stringConcat _⟩ => .ofTag .string
  | ⟨_, _, .arrayLiteral _⟩ => .arrayOf .any 1
  | ⟨_, _, .mappingLiteral _⟩ => .ofTag .mapping
  | ⟨_, _, .newObject target _⟩ =>
    if target.stringValue?.isSome then .ofTag .object else target.loweredTypeD
  | ⟨_, _, .cast type _⟩ => type.loweredTypeD
  | ⟨_, _, .parenthesized inner⟩ => inferredType inner
  | _ => .unknown
termination_by n => n

end Node

namespace SourceTree

/-- The node with a number, or an error where there is none. -/
def requireNode (t : SourceTree) (id : Option Nat) : Except RelationError Node :=
  match id.bind t.node? with
  | some n => .ok n
  | none => .error (.unknownNode id)

/-- The type that the node with a number denotes. -/
def loweredType (t : SourceTree) (id : Option Nat) : Except RelationError TypeShape := do
  (← t.requireNode id).loweredType

/-- Whether the type of one node is assignable to the type of another. -/
def assignable (t : SourceTree) (target source : Option Nat) : Except RelationError Bool := do
  let target ← t.loweredType target
  let source ← t.loweredType source
  return target.assignable source

end SourceTree

end ScriptLens
