import ScriptLens.Tree.Node

/-!
# Definitions

A definition is a name that a declaration introduces, with what a reader of the
name wants to know: what kind of thing it is, its type, and the parameters of a
function. Types are kept as the nodes that spell them.
-/

namespace ScriptLens

/-- The kinds of things that can be defined. -/
inductive DefinitionKind
  | variableDef | functionDef | classDef | parameterDef
deriving DecidableEq, Repr

/-- The name of a kind in listings. -/
def DefinitionKind.name : DefinitionKind → String
  | variableDef => "Variable"
  | functionDef => "Function"
  | classDef => "Class"
  | parameterDef => "Parameter"

/-- A parameter of a function. -/
structure ParameterInfo where
  /-- Its name, which is empty where it has none. -/
  name : String
  /-- Its type. -/
  type : Node
  /-- Whether it takes all further arguments. -/
  variadic : Bool

/-- What is known of a function beside its type. -/
structure FunctionInfo where
  /-- Its parameters. -/
  parameters : List ParameterInfo
  /-- Whether it takes further arguments. -/
  variadic : Bool
  /-- Whether it has a body. -/
  hasBody : Bool

/-- A name that a declaration introduces. -/
structure Definition where
  /-- The name. -/
  name : String
  /-- What it names. -/
  kind : DefinitionKind
  /-- The offset of the name. -/
  offset : Nat
  /-- The number of the declaring node. -/
  declaration : Nat
  /-- The declared type, or the type of what a function returns. -/
  type : Option Node
  /-- The modifiers of the declaration. -/
  modifiers : List Modifier
  /-- What is known of a function. -/
  function : Option FunctionInfo

namespace ParameterInfo

/-- A parameter as a signature shows it. -/
def signature (p : ParameterInfo) : String :=
  p.type.typeText ++ " " ++ p.name ++ if p.variadic then "..." else ""

end ParameterInfo

namespace FunctionInfo

/-- The parameters as a signature shows them. A function that takes further
arguments without saying so in a parameter ends in `...`. -/
def parameterTexts (f : FunctionInfo) : List String :=
  f.parameters.map (·.signature)
    ++ if f.variadic && !f.parameters.any (·.variadic) then ["..."] else []

/-- Whether a call can have arguments. -/
def takesArguments (f : FunctionInfo) : Bool := !f.parameters.isEmpty || f.variadic

end FunctionInfo

namespace Definition

/-- The declared type in text. A class is its own type. -/
def typeText (d : Definition) : String :=
  match d.kind with
  | .classDef => d.name
  | _ => (d.type.map Node.typeText).getD ""

/-- Whether the definition is a function. -/
def isFunction (d : Definition) : Bool := d.kind == .functionDef

/-- The parameters of a function, and none for all else. -/
def parameters (d : Definition) : List ParameterInfo :=
  (d.function.map FunctionInfo.parameters).getD []

/-- **A definition in one line**: its type, its name, and its parameters. -/
def signature (d : Definition) : String :=
  match d.function with
  | some f => d.typeText ++ " " ++ d.name ++ "(" ++ ", ".intercalate f.parameterTexts ++ ")"
  | none => if d.typeText = "" then d.name else d.typeText ++ " " ++ d.name

end Definition

end ScriptLens
