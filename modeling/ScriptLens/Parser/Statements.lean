import ScriptLens.Parser.Expressions

/-!
# Declarations and statements

Declarations and statements share their places: a statement is a declaration if
it starts like one, and an expression otherwise.
-/

namespace ScriptLens.Parser

/-! ## Declarations -/

/-- Whether a list of tokens starts a declaration: with a modifier, a built-in
type or `class`, or with a word that another word or an empty bracket pair
follows. -/
def declares : List Token → Bool
  | [] => false
  | first :: rest =>
    first.kind.isModifier || first.kind == .keyword .classKw || first.kind.isBasicType ||
      first.kind == .identifier &&
        match rest with
        | [] => false
        | second :: rest =>
          second.kind == .identifier ||
            second.kind == .punctuation .openBracket &&
              rest.head?.any (·.kind == .punctuation .closeBracket)

/-- Whether a declaration starts at the current token. -/
def startsDeclaration : Parse Bool := return declares (← get).upcoming

/-- The statements up to a token that ends them, which is not consumed. -/
def statementsUntil (inner : Inner) (ends : TokenKind → Bool) : Parse (List Node) :=
  inner.collect do
    let kind ← currentKind
    if kind == .endOfFile || ends kind then
      return ([], false)
    else
      let before ← position
      let statement ← inner.parse .statement
      let kind ← currentKind
      if (← position) == before && !(kind == .endOfFile || ends kind) then
        return ([statement, ← inner.safeguard.standstill "Declaration or statement expected."],
          true)
      else
        return ([statement], true)

/-- A block, with the cursor on its opening brace. A block that is still open at
the end of the text reaches up to there, so that what is being typed lies
inside it. -/
def block (inner : Inner) : Parse Node := do
  let start ← position
  let _ ← requireMark .openBrace
  let statements ← statementsUntil inner (· == .punctuation .closeBrace)
  let closed ← requireMark .closeBrace
  let span := spanOver start (← get).previousEnd statements
  let length := (← read).length
  if !closed && (← seesEnd) then
    complete ⟨span.start, max span.stop length⟩ (.block statements)
  else
    complete span (.block statements)

/-- A block that has to be there. Without an opening brace nothing is
consumed. -/
def requiredBlock (inner : Inner) : Parse Node := do
  if ← seesMark .openBrace then block inner else missing "'\x7b' expected." none

/-- A variable with the value it may start with, after its name. -/
def declarator (inner : Inner) (name : Node) : Parse Node := do
  let value ← optionally (acceptMark .assign) (inner.parse .expression)
  finish name.span.start (.variableDeclarator name value)

/-- The variables after the first one of a declaration. -/
def moreDeclarators (inner : Inner) : Parse (List Node) :=
  inner.collect do
    if ← acceptMark .comma then
      let name ← declaredName
      return ([← declarator inner name], true)
    else
      return ([], false)

/-- The members of a class up to its closing brace. Semicolons between them say
nothing. -/
def classMembers (inner : Inner) : Parse (List Node) :=
  inner.collect do
    if (← seesMark .closeBrace) || (← seesEnd) then
      return ([], false)
    else if ← startsDeclaration then
      return ([← inner.parse .declaration], true)
    else if ← acceptMark .semicolon then
      return ([], true)
    else
      return ([← wrong "Member declaration expected." none], true)

/-- A class whose modifiers are read, with the cursor on `class`. -/
def classDeclaration (inner : Inner) (start : Nat) (modifiers : List Node) : Parse Node := do
  let _ ← advance
  let name ← declaredName
  let members ← braced (classMembers inner)
  let _ ← acceptMark .semicolon
  finish start
    (.classDeclaration modifiers (modifiers.filterMap modifierWord?) name members)

/-- The body of a function, or the semicolon that stands for it. -/
def functionBody (inner : Inner) : Parse (Option Node) := do
  if ← seesMark .openBrace then
    return some (← block inner)
  else
    let _ ← requireMark .semicolon
    return none

/-- A function whose modifiers, type and name are read, with the cursor on `(`. -/
def functionDeclaration (inner : Inner) (start : Nat) (modifiers : List Node)
    (returnType name : Node) : Parse Node := do
  let parameters ← parameterList inner
  let body ← functionBody inner
  finish start
    (.functionDeclaration modifiers (modifiers.filterMap modifierWord?) returnType name
      parameters body)

/-- Variables whose modifiers, type and first name are read. -/
def variableDeclaration (inner : Inner) (start : Nat) (modifiers : List Node)
    (type name : Node) : Parse Node := do
  let first ← declarator inner name
  let more ← moreDeclarators inner
  let _ ← requireMark .semicolon
  finish start
    (.variableDeclaration modifiers (modifiers.filterMap modifierWord?) type (first :: more))

/-- **A declaration** of a class, a function or variables. -/
def declaration (inner : Inner) : Parse Node := do
  let start ← position
  let modifiers ← modifiers inner
  if ← sees (.keyword .classKw) then
    classDeclaration inner start modifiers
  else
    let type ← type inner
    let name ← declaredName
    if ← seesMark .openParen then
      functionDeclaration inner start modifiers type name
    else
      variableDeclaration inner start modifiers type name

/-! ## Statements -/

/-- A condition in parentheses. -/
def condition (inner : Inner) : Parse Node := do
  let _ ← requireMark .openParen
  let expression ← inner.parse .expression
  let _ ← requireMark .closeParen
  return expression

/-- `if`, with the cursor on it. -/
def ifStatement (inner : Inner) : Parse Node := do
  let start ← position
  let _ ← advance
  let condition ← condition inner
  let thenBranch ← inner.parse .statement
  let elseBranch ← optionally (acceptWord .elseKw) (inner.parse .statement)
  finish start (.ifStatement condition thenBranch elseBranch)

/-- `while`, with the cursor on it. -/
def whileStatement (inner : Inner) : Parse Node := do
  let start ← position
  let _ ← advance
  let condition ← condition inner
  let body ← inner.parse .statement
  finish start (.whileStatement condition body)

/-- `do`, with the cursor on it. -/
def doStatement (inner : Inner) : Parse Node := do
  let start ← position
  let _ ← advance
  let body ← inner.parse .statement
  let condition ← optionally (require (.keyword .whileKw)) (condition inner)
  let _ ← requireMark .semicolon
  finish start (.doStatement body condition)

/-- The first part of a `for`, with the semicolon that ends it. A declaration
consumes its own. -/
def forStart (inner : Inner) : Parse (Option Node) := do
  if ← acceptMark .semicolon then
    return none
  else if ← startsDeclaration then
    return some (← inner.parse .declaration)
  else
    let expression ← inner.parse .expression
    let _ ← requireMark .semicolon
    return some expression

/-- `for`, with the cursor on it. -/
def forStatement (inner : Inner) : Parse Node := do
  let start ← position
  let _ ← advance
  let _ ← requireMark .openParen
  let first ← forStart inner
  let condition ← unlessAt (· == .punctuation .semicolon) (inner.parse .expression)
  let _ ← requireMark .semicolon
  let step ← unlessAt (· == .punctuation .closeParen) (inner.parse .expression)
  let _ ← requireMark .closeParen
  let body ← inner.parse .statement
  finish start (.forStatement first condition step body)

/-- The variables of a `foreach`. -/
def bindings (inner : Inner) : Parse (List Node) :=
  inner.collect do
    let item ← binding inner
    return ([item], ← acceptMark .comma)

/-- `foreach`, with the cursor on it. -/
def foreachStatement (inner : Inner) : Parse Node := do
  let start ← position
  let _ ← advance
  let _ ← requireMark .openParen
  let bindings ← bindings inner
  let iterable ← optionally (require (.keyword .inKw)) (inner.parse .expression)
  let _ ← requireMark .closeParen
  let body ← inner.parse .statement
  finish start (.foreachStatement bindings iterable body)

/-- Whether a token starts a clause of a `switch`. -/
def startsClause : TokenKind → Bool
  | .keyword .caseKw | .keyword .defaultKw => true
  | _ => false

/-- Whether a token ends the statements of a clause of a `switch`. -/
def endsClause (kind : TokenKind) : Bool :=
  startsClause kind || kind == .punctuation .closeBrace

/-- A label of a `switch` and the end of the range that it may start. -/
def caseLabel (inner : Inner) : Parse (Option Node × Option Node) := do
  let label ← inner.parse .expression
  let rangeEnd ← optionally (acceptMark .dotDot) (inner.parse .expression)
  return (some label, rangeEnd)

/-- What a clause of a `switch` says up to its colon: `case` with a label, or
`default`. -/
def clauseHead (inner : Inner) : Parse (Option Node × Option Node) := do
  if (← advance).kind == .keyword .defaultKw then return (none, none) else caseLabel inner

/-- A clause of a `switch`, with the cursor on `case` or `default`. -/
def caseClause (inner : Inner) : Parse Node := do
  let start ← position
  let (label, rangeEnd) ← clauseHead inner
  let _ ← requireMark .colon
  let statements ← statementsUntil inner endsClause
  finish start (.caseClause label rangeEnd statements)

/-- The clauses of a `switch` up to its closing brace. A statement before the
first clause is reported and stays in the tree. -/
def clauses (inner : Inner) : Parse (List Node) :=
  inner.collect do
    let kind ← currentKind
    if kind == .endOfFile || kind == .punctuation .closeBrace then
      return ([], false)
    else if startsClause kind then
      return ([← caseClause inner], true)
    else
      reportHere "'case' or 'default' expected."
      let before ← position
      let statement ← inner.parse .statement
      if (← position) == before then
        return ([statement, ← inner.safeguard.standstill "Statement expected."], true)
      else
        return ([statement], true)

/-- `switch`, with the cursor on it. -/
def switchStatement (inner : Inner) : Parse Node := do
  let start ← position
  let _ ← advance
  let subject ← condition inner
  let items ← braced (clauses inner)
  finish start (.switchStatement subject items)

/-- The variable of a `catch` in parentheses, which may be empty or absent. -/
def catchBinding (inner : Inner) : Parse (Option Node) := do
  if ← acceptMark .openParen then
    let bound? ← unlessAt (· == .punctuation .closeParen) (binding inner)
    let _ ← requireMark .closeParen
    return bound?
  else
    return none

/-- `try`, with the cursor on it. -/
def tryStatement (inner : Inner) : Parse Node := do
  let start ← position
  let _ ← advance
  let tryBlock ← requiredBlock inner
  if ← acceptWord .catchKw then
    let binding ← catchBinding inner
    let catchBlock ← requiredBlock inner
    finish start (.tryStatement tryBlock binding (some catchBlock))
  else
    finish start (.tryStatement tryBlock none none)

/-- `return`, with the cursor on it. -/
def returnStatement (inner : Inner) : Parse Node := do
  let start ← position
  let _ ← advance
  let value ←
    unlessAt (fun kind => kind == .punctuation .semicolon || kind == .punctuation .closeBrace)
      (inner.parse .expression)
  let _ ← requireMark .semicolon
  finish start (.returnStatement value)

/-- A statement of one word and a semicolon, with the cursor on the word. -/
def wordStatement (payload : Payload Node) : Parse Node := do
  let start ← position
  let _ ← advance
  let _ ← requireMark .semicolon
  finish start payload

/-- An empty statement, with the cursor on its semicolon. -/
def emptyStatement : Parse Node := do
  let start ← position
  let _ ← advance
  finish start .emptyStatement

/-- A statement that no keyword starts: a declaration or an expression. -/
def plainStatement (inner : Inner) : Parse Node := do
  let token ← current
  if token.lexeme.isStray then
    wrong "Invalid character." none
  else if ← startsDeclaration then
    declaration inner
  else if !startsExpression token.kind then
    wrong "Declaration or statement expected." none
  else
    let expression ← expression inner
    let _ ← requireMark .semicolon
    finish token.span.start (.expressionStatement expression)

/-- A statement, at the present depth. -/
def statementBody (inner : Inner) : Parse Node := do
  match ← currentKind with
  | .punctuation .openBrace => block inner
  | .punctuation .semicolon => emptyStatement
  | .keyword .ifKw => ifStatement inner
  | .keyword .whileKw => whileStatement inner
  | .keyword .doKw => doStatement inner
  | .keyword .forKw => forStatement inner
  | .keyword .foreachKw => foreachStatement inner
  | .keyword .switchKw => switchStatement inner
  | .keyword .tryKw => tryStatement inner
  | .keyword .returnKw => returnStatement inner
  | .keyword .breakKw => wordStatement .breakStatement
  | .keyword .continueKw => wordStatement .continueStatement
  | _ => plainStatement inner

/-- **A statement.** -/
def statement (inner : Inner) : Parse Node := nested (statementBody inner)

end ScriptLens.Parser
