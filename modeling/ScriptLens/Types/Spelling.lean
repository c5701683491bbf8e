import ScriptLens.Types.Lower

/-!
# Reading the spelling of a type

A spelling is read in the place of a parameter's type, which is where every type
can stand.
-/

namespace ScriptLens.TypeShape

/-- The source text in which a spelling is read. -/
def spellingSource (spelling : List Char) : List Char :=
  "void f(".toList ++ spelling ++ " x);".toList

/-- The type that a spelling denotes; none where no parameter comes of it. -/
def ofSpelling? (spelling : List Char) : Option TypeShape := do
  let tree := SourceTree.parse "type.c" (spellingSource spelling)
  let parameter ← tree.nodes.find? (·.kind == .parameter)
  parameter.loweredType.toOption

end ScriptLens.TypeShape
