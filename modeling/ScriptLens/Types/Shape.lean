import ScriptLens.Tree.Node

/-!
# Shapes of types

A shape is what a type amounts to once its spelling is read: a tag, a number of
array dimensions and, for function types that say so, the types of the result
and of the parameters. Shapes are compared, and they are spelled again.

What is not known has the tag `unknown`; it fits everything.
-/

namespace ScriptLens

/-- A type without its array dimensions. -/
inductive TypeTag
  /-- Absent or not understood. -/
  | unknown
  | void | any | bool | int | string | symbol | object | mapping | function | nil
  /-- A class. -/
  | named (name : String)
deriving DecidableEq, Repr

namespace TypeTag

/-- The tag of a built-in type. -/
def ofBasic : BasicType → TypeTag
  | .void => void
  | .int => int
  | .bool => bool
  | .string => string
  | .symbol => symbol
  | .object => object
  | .mapping => mapping
  | .any => any
  | .function => function

/-- The tag of the word that a type is written with. -/
def ofHead : TypeHead → TypeTag
  | .basic t => ofBasic t
  | .nil => nil
  | .named name => named name

/-- The spelling of a tag. -/
def name : TypeTag → String
  | unknown => "unknown"
  | void => "void"
  | any => "any"
  | bool => "bool"
  | int => "int"
  | string => "string"
  | symbol => "symbol"
  | object => "object"
  | mapping => "mapping"
  | function => "function"
  | nil => "nil"
  | named name => name

end TypeTag

/-- The types that a function takes and gives. -/
structure Signature (α : Type) where
  /-- The type of the result. -/
  returnType : α
  /-- The types of the parameters. -/
  parameters : List α
  /-- Whether the function takes further arguments. -/
  variadic : Bool
deriving DecidableEq, Repr

/-- A type. -/
structure TypeShape where
  /-- The type without its array dimensions. -/
  tag : TypeTag
  /-- The number of array dimensions. -/
  arrayDepth : Nat
  /-- What a function type says about parameters and result. -/
  signature : Option (Signature TypeShape)
deriving Repr

namespace TypeShape

/-- A type that its tag says all about. -/
def ofTag (tag : TypeTag) : TypeShape := ⟨tag, 0, none⟩

/-- The type that nothing is known about. -/
def unknown : TypeShape := ofTag .unknown

/-- An array type. -/
def arrayOf (tag : TypeTag) (depth : Nat) : TypeShape := ⟨tag, depth, none⟩

/-- Whether nothing is known about a type. -/
def isUnknown (s : TypeShape) : Bool := s.tag == .unknown

/-- Whether a type is an array type. -/
def isArray (s : TypeShape) : Bool := 0 < s.arrayDepth

mutual

/-- Decides whether two types are the same. -/
def decEqShape : (s t : TypeShape) → Decidable (s = t)
  | ⟨tag₁, depth₁, none⟩, ⟨tag₂, depth₂, none⟩ =>
    decidable_of_iff (tag₁ = tag₂ ∧ depth₁ = depth₂) (by simp)
  | ⟨tag₁, depth₁, some ⟨return₁, parameters₁, variadic₁⟩⟩,
    ⟨tag₂, depth₂, some ⟨return₂, parameters₂, variadic₂⟩⟩ =>
    have := decEqShape return₁ return₂
    have := decEqShapes parameters₁ parameters₂
    decidable_of_iff (tag₁ = tag₂ ∧ depth₁ = depth₂ ∧ return₁ = return₂
      ∧ parameters₁ = parameters₂ ∧ variadic₁ = variadic₂) (by simp)
  | ⟨_, _, none⟩, ⟨_, _, some _⟩ => isFalse (by simp)
  | ⟨_, _, some _⟩, ⟨_, _, none⟩ => isFalse (by simp)

/-- Decides whether two lists of types are the same. -/
def decEqShapes : (xs ys : List TypeShape) → Decidable (xs = ys)
  | [], [] => isTrue rfl
  | x :: xs, y :: ys =>
    have := decEqShape x y
    have := decEqShapes xs ys
    decidable_of_iff (x = y ∧ xs = ys) (by simp)
  | [], _ :: _ => isFalse (by simp)
  | _ :: _, [] => isFalse (by simp)

end

instance : DecidableEq TypeShape := decEqShape

/-! ## The parts of a type are smaller -/

theorem sizeOf_returnType_lt {s : TypeShape} {f : Signature TypeShape}
    (h : s.signature = some f) : sizeOf f.returnType < sizeOf s := by
  obtain ⟨tag, depth, signature⟩ := s
  obtain ⟨returnType, parameters, variadic⟩ := f
  subst h
  simp
  omega

theorem sizeOf_parameter_lt {s p : TypeShape} {f : Signature TypeShape}
    (h : s.signature = some f) (hp : p ∈ f.parameters) : sizeOf p < sizeOf s := by
  obtain ⟨tag, depth, signature⟩ := s
  obtain ⟨returnType, parameters, variadic⟩ := f
  subst h
  have : sizeOf p < sizeOf parameters := List.sizeOf_lt_of_mem hp
  simp
  omega

/-! ## Spelling -/

/-- A type as the source spells it, with a text for what is not known. Only a
function type shows its signature. -/
def spell (unknownText : String) (s : TypeShape) : String :=
  let head :=
    match s.tag, _ : s.signature with
    | .unknown, _ => unknownText
    | .function, some f =>
      let parameters := f.parameters.attach.map fun p => spell unknownText p.1
      "function<" ++ spell unknownText f.returnType ++ "("
        ++ ", ".intercalate (parameters ++ if f.variadic then ["..."] else []) ++ ")>"
    | tag, _ => tag.name
  head ++ Node.arraySuffix s.arrayDepth
termination_by s
decreasing_by
  · exact sizeOf_parameter_lt ‹_› p.2
  · exact sizeOf_returnType_lt ‹_›

/-- A type in text; what is not known is a question mark. -/
def text (s : TypeShape) : String := s.spell "?"

end TypeShape

end ScriptLens
