import ScriptLens.Parser.SourceFile
import ScriptLens.Scope.Tree

/-!
# Building the scopes of a text

The nodes of a tree are taken in pre-order. A node opens the scope of its
construct, adds the definitions of its names to the innermost open scope, or
names another text. Nothing tells when a construct is left; instead every open
scope remembers where it ends, and is left before the first node that starts at
or after that.

The body of a function shares the scope that the function opened at its
parameters.
-/

namespace ScriptLens

namespace ScopeTree

/-- The state of the pass over a tree. -/
structure Builder where
  /-- The scopes so far. -/
  tree : ScopeTree
  /-- The open scopes with their ends, innermost first. -/
  openScopes : List (Nat × Nat)
  /-- The numbers of the blocks that are bodies of functions. -/
  bodies : List Nat

namespace Builder

/-- The innermost open scope. -/
def current (b : Builder) : Nat := (b.openScopes.head?.map Prod.fst).getD root

/-- Leaves the scopes that end at or before an offset, innermost first. -/
def leaveBefore (b : Builder) (offset : Nat) : Builder :=
  { b with openScopes := b.openScopes.dropWhile (·.2 ≤ offset) }

/-- Opens a scope inside the innermost one. -/
def enter (b : Builder) (kind : ScopeKind) (start stop : Nat) : Builder :=
  let id := b.tree.scopes.length
  { b with
    tree := b.tree.openScope b.current kind ⟨start, max stop start⟩
    openScopes := (id, stop) :: b.openScopes }

/-- Adds a definition to the innermost scope. -/
def declare (b : Builder) (definition : Definition) : Builder :=
  { b with tree := b.tree.define b.current definition }

/-- Adds a definition if its name is there. -/
def declareName (b : Builder) (name : Node) (define : String → Nat → Definition) : Builder :=
  match name.identifierText? with
  | some text => b.declare (define text name.span.start)
  | none => b

/-- Adds another text if its name is there. -/
def depend (b : Builder) (kind : DependencyKind) (path : Node) : Builder :=
  match path.stringValue? with
  | some value => { b with tree := b.tree.addDependency ⟨kind, value, path.span.start⟩ }
  | none => b

end Builder

/-- A parameter, where a node is one. -/
def parameterInfo? (n : Node) : Option ParameterInfo :=
  match n.payload with
  | .parameter type name variadic => some ⟨name.identifierText?.getD "", type, variadic⟩
  | _ => none

/-- Whether a node in a list of parameters lets a function take further
arguments. -/
def isVariadicItem (n : Node) : Bool :=
  match n.payload with
  | .parameter _ _ variadic => variadic
  | .ellipsis => true
  | _ => false

/-- What is known of a function with the given parameters. -/
def functionInfo (parameters : List Node) (flags : List Modifier) (hasBody : Bool) :
    FunctionInfo :=
  ⟨parameters.filterMap parameterInfo?,
    flags.contains .varargsMod || parameters.any isVariadicItem, hasBody⟩

/-- The name of a variable, where a node declares one. -/
def declaratorName? (n : Node) : Option Node :=
  match n.payload with
  | .variableDeclarator name _ => some name
  | _ => none

/-- Takes a node, after the scopes that end before it are left. -/
def Builder.bind (b : Builder) (n : Node) : Builder :=
  match n.payload with
  | .functionDeclaration _ flags returnType name parameters body =>
    let info := functionInfo parameters.items flags body.isSome
    let b := b.declareName name fun text offset =>
      ⟨text, .functionDef, offset, n.id, some returnType, flags, some info⟩
    let b := b.enter .function parameters.span.start n.span.stop
    { b with bodies := (body.map Node.id).toList ++ b.bodies }
  | .parameter type name _ =>
    b.declareName name fun text offset =>
      ⟨text, .parameterDef, offset, n.id, some type, [], none⟩
  | .variableDeclaration _ flags type declarators =>
    (declarators.filterMap declaratorName?).foldl
      (fun b name => b.declareName name fun text offset =>
        ⟨text, .variableDef, offset, n.id, some type, flags, none⟩) b
  | .binding type name =>
    b.declareName name fun text offset => ⟨text, .variableDef, offset, n.id, type, [], none⟩
  | .classDeclaration _ flags name _ =>
    let b := b.declareName name fun text offset =>
      ⟨text, .classDef, offset, n.id, none, flags, none⟩
    b.enter .classBody name.span.stop n.span.stop
  | .block _ => if b.bodies.contains n.id then b else b.enter .block n.span.start n.span.stop
  | .includeDirective path system =>
    b.depend (if system then .systemInclude else .quotedInclude) path
  | .inherit path => b.depend .inherit path
  | _ => b

/-- Takes the next node. -/
def Builder.step (b : Builder) (n : Node) : Builder := (b.leaveBefore n.span.start).bind n

/-- Whether the parts of a node can declare anything. Types and directives
cannot. -/
def descends (kind : NodeKind) : Bool :=
  !kind.isType && kind != .includeDirective && kind != .inherit

/-- **The scopes of a tree.** -/
def ofRoot (n : Node) : ScopeTree :=
  ((n.walk descends).foldl Builder.step ⟨ofLength n.span.stop, [], []⟩).tree

end ScopeTree

end ScriptLens
