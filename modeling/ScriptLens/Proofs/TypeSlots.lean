import ScriptLens.Proofs.Operators

/-!
# Where types are asked for

Declarations and function types have parts that are to be types. What stands there is a
type, or a placeholder where the parser found none: never a name, an expression or another
declaration. Among the parameters of a function type `...` may stand as well, and then the
function type says that it is variadic.

`Payload.TypesFit` says this of one construct and its parts. Together with what operators
ask of their operands it is what every construct is finished with (`Payload.PartsFit`).
-/

namespace ScriptLens

/-- Whether nodes of a kind can stand where a type is asked for. -/
def NodeKind.fillsType (kind : NodeKind) : Bool := kind.isType || kind.isSentinel

/-- Whether nodes of a kind have parts that are to be types. -/
def NodeKind.asksForTypes : NodeKind → Bool
  | functionDeclaration | variableDeclaration | parameter | binding | functionType => true
  | _ => false

namespace Payload

/-- **Types stand where types are asked for**, and a function type with `...` among its
parameters says so. -/
def TypesFit : Payload Node → Prop
  | .functionDeclaration _ _ returnType _ _ _ => returnType.kind.fillsType = true
  | .variableDeclaration _ _ type _ => type.kind.fillsType = true
  | .parameter type _ _ => type.kind.fillsType = true
  | .binding type _ => ∀ t ∈ type, t.kind.fillsType = true
  | .functionType returnType parameters variadic _ => returnType.kind.fillsType = true
    ∧ (∀ p ∈ parameters, p.kind = .ellipsis ∨ p.kind.fillsType = true)
    ∧ variadic = parameters.any (·.kind == .ellipsis)
  | _ => True

theorem TypesFit.of_asksForTypes {payload : Payload Node}
    (h : payload.kind.asksForTypes = false) : payload.TypesFit := by
  cases payload <;> trivial

/-- **The parts of a construct fit it**: operands their operator, and types their place. -/
structure PartsFit (payload : Payload Node) : Prop where
  operands : payload.OperandsFit
  types : payload.TypesFit

end Payload

end ScriptLens
