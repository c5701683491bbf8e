import ScriptLens.Text.Quoted
import ScriptLens.Tree.Node

/-!
# Listing a tree

A tree is listed with one line for every node, parents before children: two
blanks for every level of depth, the kind, the span, and what the node says
where that is a matter of one line.
-/

namespace ScriptLens

open Text

/-- A literal's value in a listing. -/
def LiteralValue.render : LiteralValue → String
  | int value => "Int(" ++ Nat.repr value ++ ")"
  | string text => "String(" ++ quoteString text ++ ")"
  | char c => "Char(" ++ String.ofList (quotedChar c) ++ ")"
  | symbol name => "Symbol(" ++ quoteString name ++ ")"
  | bool value => if value then "Bool(true)" else "Bool(false)"
  | nil => "Nil"
  | this => "This"

namespace Node

/-- What a node's line says after its span. -/
def detail (n : Node) : Option String :=
  match n.payload with
  | .identifier name => some name
  | .literal value => some value.render
  | .typeName _ _ | .functionType _ _ _ _ => some n.typeText
  | .binary _ operator _ | .prefixUnary operator _ | .postfixUnary _ operator =>
    some operator.name
  | .missing message _ | .wrong message _ => some (quoteString message)
  | _ => none

/-- The line of a node at a depth. -/
def line (depth : Nat) (n : Node) : String :=
  String.ofList (List.replicate (2 * depth) ' ') ++ n.kind.name
    ++ " [" ++ Nat.repr n.span.start ++ ", " ++ Nat.repr n.span.stop ++ ")"
    ++ (n.detail.map (" " ++ ·)).getD "" ++ "\n"

/-- **The listing of a tree.** -/
def listing (n : Node) : String :=
  String.join ((visit (fun _ => true) [(0, n)]).map fun (depth, n) => n.line depth)

end Node

end ScriptLens
