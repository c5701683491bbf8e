import ScriptLens.Scope.Build
import ScriptLens.Text.LineMap

/-!
# Analysis of a source text

Everything that the services ask of a text: its tree, its scopes and its lines.
-/

namespace ScriptLens

/-- A source text that was parsed, with its scopes and its lines. -/
structure Analysis where
  /-- The tree. -/
  tree : SourceTree
  /-- The scopes. -/
  scopes : ScopeTree
  /-- The lines. -/
  lineMap : LineMap

namespace Analysis

/-- **Analyses a source text.** -/
def ofText (fileName : String) (text : List Char) : Analysis :=
  let tree := SourceTree.parse fileName text
  ⟨tree, ScopeTree.ofRoot tree.root, LineMap.ofText text⟩

/-- The name of the text. -/
def fileName (a : Analysis) : String := a.tree.fileName

/-- The text. -/
def text (a : Analysis) : List Char := a.tree.text

/-- Whether the text has problems. -/
def hasErrors (a : Analysis) : Bool := !a.tree.diagnostics.isEmpty

/-- The names of the texts that the text names, in order. -/
def dependencyPaths (a : Analysis) : List String := a.scopes.dependencies.map (·.path)

end Analysis

end ScriptLens
