import ScriptLens.Parser.Statements
import ScriptLens.Text.Blank

/-!
# Source texts

A source text is a sequence of directives and statements. `SourceTree.parse`
reads the whole of it: the tree covers the text from its first to its last
byte, whatever the text is.
-/

namespace ScriptLens

namespace Parser

/-! ## Directives -/

/-- Where the line ends that the offset `offset` lies on. -/
def lineEnd (setting : Setting) (offset : Nat) : Nat :=
  match Text.dropBytes offset setting.text with
  | none => setting.length
  | some rest => offset + Text.byteLength (rest.takeWhile (· ≠ '\n'))

/-- Consumes the tokens of an include path up to `>` or the end of the line. -/
def skipIncludePath (inner : Inner) (lineEnd : Nat) : Parse Unit :=
  inner.iterate () fun _ => do
    if (← seesMark .greater) || (← seesEnd) || lineEnd ≤ (← position) then
      return ((), false)
    else
      let _ ← advance
      return ((), true)

/-- Consumes the `>` that ends an include path that starts at an offset, and tells
where the path ends. -/
def includePathEnd (pathStart : Nat) : Parse Nat := do
  let closing ← position
  if ← acceptMark .greater then
    return closing
  else
    reportHere "'>' expected."
    return max (← get).previousEnd pathStart

/-- An include path between angle brackets, with the cursor on `<`. The path is
the source text itself, without the white space at its ends. -/
def systemIncludePath (inner : Inner) : Parse Node := do
  let opening ← advance
  let setting ← read
  let pathStart := opening.span.stop
  skipIncludePath inner (lineEnd setting pathStart)
  let pathEnd ← includePathEnd pathStart
  let path := Text.trim (Text.slice pathStart pathEnd setting.text)
  finish opening.span.start (.literal (.string (String.ofList path)))

/-- `#include`, with the cursor on it. -/
def includeDirective (inner : Inner) : Parse Node := do
  let start ← position
  let _ ← advance
  match ← currentKind with
  | .string =>
    let path ← stringLiterals inner
    finish start (.includeDirective path false)
  | .punctuation .less =>
    let path ← systemIncludePath inner
    finish start (.includeDirective path true)
  | _ =>
    let path ← missingOrWrong "File name expected." .literal
    finish start (.includeDirective path false)

/-- The path of an `inherit`. -/
def inheritPath (inner : Inner) : Parse Node := do
  if ← sees .string then stringLiterals inner
  else missingOrWrong "Inherited file name expected." .literal

/-- `inherit`, with the cursor on it. -/
def inheritDirective (inner : Inner) : Parse Node := do
  let start ← position
  let _ ← advance
  let path ← inheritPath inner
  let _ ← requireMark .semicolon
  finish start (.inherit path)

/-! ## The whole text -/

/-- A directive or a statement. -/
def topLevelElement (inner : Inner) : Parse Node := do
  match ← currentKind with
  | .keyword .includeKw => includeDirective inner
  | .keyword .inheritKw => inheritDirective inner
  | _ => statement inner

/-- All directives and statements of the text. -/
def topLevelElements (inner : Inner) : Parse (List Node) :=
  inner.collect do
    if ← seesEnd then
      return ([], false)
    else
      let before ← position
      let element ← topLevelElement inner
      if (← position) == before && !(← seesEnd) then
        return ([element, ← inner.safeguard.standstill "Declaration or statement expected."],
          true)
      else
        return ([element], true)

/-- Parses a construct with what parses the constructs inside it. -/
def Inner.step (inner : Inner) : Goal → Parse Node
  | .expression => expression inner
  | .binary level => binary inner level
  | .unary => unary inner
  | .type => type inner
  | .statement => statement inner
  | .declaration => declaration inner

/-- Parses a construct when fewer than `bound` tokens are left. Every construct
inside it starts at a later token. -/
def parseGoal (safeguard : Safeguard) : Nat → Goal → Parse Node
  | 0, goal => safeguard.construct goal
  | bound + 1, goal => Inner.step ⟨bound, safeguard, parseGoal safeguard bound⟩ goal

/-- What parses the constructs of a text when at most `bound` tokens are left. -/
def Inner.ofBound (safeguard : Safeguard) (bound : Nat) : Inner :=
  ⟨bound, safeguard, parseGoal safeguard bound⟩

/-- The whole text as one node. -/
def sourceFile (inner : Inner) (fileName : String) : Parse Node := do
  let statements ← topLevelElements inner
  complete ⟨0, (← read).length⟩ (.sourceFile fileName statements)

/-- What stays the same while a text is parsed. -/
def Setting.ofText (text : List Char) : Setting := ⟨text, Text.byteLength text⟩

/-- The tokens of a text that the parser reads: comments and the end of the text
are none of them. -/
def tokensOf (text : List Char) : List Token := (Token.scan text false).filter (!·.isEnd)

/-- Parses a whole text under a safeguard: its tree, and the state at the end. -/
def run (safeguard : Safeguard) (fileName : String) (text : List Char) : Node × State :=
  let tokens := tokensOf text
  (sourceFile (.ofBound safeguard tokens.length) fileName).run (.ofText text)
    |>.run (.ofTokens tokens)

end Parser

/-- A source text with its tree and its problems. -/
structure SourceTree where
  /-- The name of the text. -/
  fileName : String
  /-- The text. -/
  text : List Char
  /-- The root of the tree. -/
  root : Node
  /-- The problems, in the order in which they were found. -/
  diagnostics : List ParseDiagnostic

namespace SourceTree

/-- Parses a source text under a safeguard. -/
def parseWith (safeguard : Parser.Safeguard) (fileName : String) (text : List Char) :
    SourceTree :=
  let (root, state) := Parser.run safeguard fileName text
  ⟨fileName, text, root, state.diagnostics.toList⟩

/-- **Parses a source text.** -/
def parse (fileName : String) (text : List Char) : SourceTree :=
  parseWith .standard fileName text

/-- The nodes of the tree in the order of their numbers. -/
def nodes (t : SourceTree) : List Node := t.root.postorder

/-- The node with a number. -/
def node? (t : SourceTree) (id : Nat) : Option Node := t.nodes[id]?

end SourceTree

end ScriptLens
