import ScriptLens.Parser.Basic

/-!
# Types, names and parameters

A type is a word or a function type, followed by any number of empty bracket
pairs. Names and parameters are here too, because parameters are little more
than a type and a name.
-/

namespace ScriptLens.Parser

/-- The word of a type, where a token is one. -/
def typeHead? : Lexeme → Option TypeHead
  | .keyword (.basicType t) => some (.basic t)
  | .keyword .nilKw => some .nil
  | .identifier name => some (.named name)
  | _ => none

/-- Counts the empty bracket pairs that follow. A bracket that another token
follows is left alone. -/
def arrayDepth (inner : Inner) : Parse Nat :=
  inner.iterate 0 fun depth => do
    if (← seesMark .openBracket) && (← nextKind) == .punctuation .closeBracket then
      let _ ← advance
      let _ ← advance
      return (depth + 1, true)
    else
      return (depth, false)

/-- One parameter of a function type: a type, or `...`. -/
def functionTypeParameter (inner : Inner) : Parse Node := do
  let start ← position
  if ← acceptMark .ellipsis then finish start .ellipsis else inner.parse .type

/-- The parameters of a function type, which may be none. -/
def functionTypeParameters (inner : Inner) : Parse (List Node) := do
  if ← seesMark .closeParen then
    return []
  else
    inner.collect do
      let parameter ← functionTypeParameter inner
      return ([parameter], ← acceptMark .comma)

/-- The parameters of a function type in parentheses. -/
def functionTypeParameterList (inner : Inner) : Parse (List Node) := do
  if ← requireMark .openParen then
    let parameters ← functionTypeParameters inner
    let _ ← requireMark .closeParen
    return parameters
  else
    return []

/-- `function<type(type, ...)>`, with the cursor on `function`. -/
def functionType (inner : Inner) : Parse Node := do
  let start ← position
  let _ ← advance
  let _ ← advance
  let returnType ← inner.parse .type
  let parameters ← functionTypeParameterList inner
  let _ ← requireMark .greater
  let depth ← arrayDepth inner
  let variadic := parameters.any (·.kind == .ellipsis)
  finish start (.functionType returnType parameters variadic depth)

/-- A type, at the present depth. -/
def typeBody (inner : Inner) : Parse Node := do
  let token ← current
  if token.lexeme == .keyword (.basicType .function)
      && (← nextKind) == .punctuation .less then
    functionType inner
  else
    match typeHead? token.lexeme with
    | none => missingOrWrong "Type expected." .type
    | some head =>
      let _ ← advance
      let depth ← arrayDepth inner
      finish token.span.start (.typeName head depth)

/-- **A type.** -/
def type (inner : Inner) : Parse Node := nested (typeBody inner)

/-- The modifiers that stand before a declaration. -/
def modifiers (inner : Inner) : Parse (List Node) :=
  inner.collect do
    let token ← current
    match token.lexeme with
    | .keyword (.modifier word) =>
      let _ ← advance
      return ([← finish token.span.start (.modifier word)], true)
    | _ => return ([], false)

/-- The modifier that a node is. -/
def modifierWord? (n : Node) : Option Modifier :=
  match n.payload with
  | .modifier word => some word
  | _ => none

/-- An identifier, on which the cursor is. -/
def identifier : Parse Node := do
  let token ← advance
  finish token.span.start (.identifier token.lexeme.text)

/-- A name that is being declared. It is a fresh word, so a placeholder in its
place stands for a literal text and not for a known name. -/
def declaredName : Parse Node := do
  match (← current).lexeme with
  | .identifier _ => identifier
  | _ => missingOrWrong "Identifier expected." .literal

/-- Consumes modifiers that say nothing. -/
def skipModifiers (inner : Inner) : Parse Unit :=
  inner.iterate () fun _ => do
    if (← currentKind).isModifier then
      let _ ← advance
      return ((), true)
    else
      return ((), false)

/-- One parameter of a function: a type and a name, or `...`. -/
def parameter (inner : Inner) : Parse Node := do
  let start ← position
  if ← acceptMark .ellipsis then
    finish start .ellipsis
  else
    skipModifiers inner
    let type ← type inner
    let name ← declaredName
    let variadic ← acceptMark .ellipsis
    finish start (.parameter type name variadic)

/-- Whether a list of parameters cannot go on with a token. -/
def endsParameters : TokenKind → Bool
  | .endOfFile | .punctuation .closeParen | .punctuation .openBrace
  | .punctuation .semicolon => true
  | _ => false

/-- The parameters of a function, after which a comma may stand. A parameter that
consumed nothing is followed by the token it stopped at, as a wrong node. -/
def parameters (inner : Inner) : Parse (List Node) :=
  inner.collect do
    if endsParameters (← currentKind) then
      return ([], false)
    else
      let before ← position
      let item ← parameter inner
      if ← acceptMark .comma then
        return ([item], true)
      else if (← position) == before then
        return ([item, ← wrong "Parameter expected." (some .type)], false)
      else
        return ([item], false)

/-- The parameters of a function in parentheses, with the cursor on `(`. -/
def parameterList (inner : Inner) : Parse (ArgumentList Node) := do
  let start ← position
  let _ ← advance
  let items ← parameters inner
  let _ ← requireMark .closeParen
  return ⟨⟨start, (← get).previousEnd⟩, items⟩

/-- Whether a binding starts with a type: a built-in type does, and a word does
if a word or a bracket follows it. -/
def startsTypedBinding : Parse Bool := do
  let kind ← currentKind
  if kind.isBasicType then return true
  else if kind == .identifier then
    let following ← nextKind
    return following == .identifier || following == .punctuation .openBracket
  else return false

/-- The variable of a `foreach` or a `catch`: a name that a type may precede. -/
def binding (inner : Inner) : Parse Node := do
  let start ← position
  let type ← optionally startsTypedBinding (type inner)
  let name ← declaredName
  finish start (.binding type name)

end ScriptLens.Parser
