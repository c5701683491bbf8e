import ScriptLens.Types.Shape

/-!
# Assignability

Whether a value of one type may be stored where another is declared. The
relation is neither symmetric nor transitive. The type of the target decides
which rule applies.
-/

namespace ScriptLens.TypeShape

/-- Whether a value of a type may be kept as an object: everything may but plain
values, functions and what may be one of these. -/
def fitsObject : TypeTag → Bool
  | .any | .bool | .int | .function => false
  | _ => true

/-- **Whether a value of the type `source` may be stored where `target` is
declared.**

What is not known fits everything. `any` accepts every value and `object` every
value that is an object, whatever the array dimensions are; all other types ask
for the same dimensions. Integers and booleans stand for each other, and `nil`
is a string and a symbol. Two function types that both say what they take have
to take equally many parameters, each of them assignable, and to give results
that are assignable in both directions. -/
def assignable (target source : TypeShape) : Bool :=
  if target.isUnknown || source.isUnknown then true
  else
    let sameDepth := target.arrayDepth == source.arrayDepth
    match target.tag with
    | .any => true
    | .object => fitsObject source.tag
    | .int | .bool => (source.tag == .int || source.tag == .bool) && sameDepth
    | .string => (source.tag == .string || source.tag == .nil) && sameDepth
    | .symbol => (source.tag == .symbol || source.tag == .nil) && sameDepth
    | .function =>
      source.tag == .function && sameDepth &&
        match _ : target.signature, _ : source.signature with
        | some t, some s =>
          assignable t.returnType s.returnType && assignable s.returnType t.returnType
            && t.parameters.length == s.parameters.length
            && (t.parameters.zip s.parameters).attach.all fun p => assignable p.1.1 p.1.2
        | _, _ => true
    | tag => tag == source.tag && sameDepth
termination_by sizeOf target + sizeOf source
decreasing_by
  all_goals rename_i ht hs
  · have := sizeOf_returnType_lt ht
    have := sizeOf_returnType_lt hs
    omega
  · have := sizeOf_returnType_lt ht
    have := sizeOf_returnType_lt hs
    omega
  · obtain ⟨⟨p, q⟩, hpq⟩ := p
    have := sizeOf_parameter_lt ht (List.of_mem_zip hpq).1
    have := sizeOf_parameter_lt hs (List.of_mem_zip hpq).2
    dsimp only
    omega

end ScriptLens.TypeShape
