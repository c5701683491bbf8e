import ScriptLens.Parser.Types

/-!
# Expressions

Binary operators have ten levels; an operator of a higher level binds more
tightly and all associate to the left. Above them stand the conditional and,
outermost, assignment, which both associate to the right. Below them stand the
unary operators and casts, then calls, subscripts and member accesses, and the
primary expressions.
-/

namespace ScriptLens.Parser

/-- The level of a binary operator; zero for what is none. -/
def binaryLevel : TokenKind → Nat
  | .punctuation mark =>
    match mark with
    | .orOr => 1
    | .andAnd => 2
    | .bar => 3
    | .caret => 4
    | .ampersand => 5
    | .equal | .notEqual => 6
    | .less | .lessEqual | .greater | .greaterEqual => 7
    | .shiftLeft | .shiftRight => 8
    | .plus | .minus => 9
    | .star | .slash | .percent => 10
    | _ => 0
  | _ => 0

/-- Whether a token starts an operand beyond doubt, so that a word in
parentheses before it is a cast. -/
def startsOperand : TokenKind → Bool
  | .identifier | .integer | .string | .character | .symbol => true
  | .keyword word =>
    match word with
    | .trueKw | .falseKw | .nilKw | .thisKw | .newKw => true
    | _ => false
  | .punctuation mark =>
    match mark with
    | .openParen | .openArray | .openMapping | .bang | .tilde | .doubleColon => true
    | _ => false
  | _ => false

/-- Whether a token starts an expression. -/
def startsExpression (kind : TokenKind) : Bool :=
  startsOperand kind ||
    match kind with
    | .punctuation .minus | .punctuation .plus | .punctuation .increment
    | .punctuation .decrement => true
    | _ => false

/-- Whether punctuation is an operator before its operand. -/
def isPrefixOperator : Punctuation → Bool
  | .bang | .tilde | .minus | .plus | .increment | .decrement => true
  | _ => false

/-! ## Casts -/

/-- What follows the empty bracket pairs that start a list of tokens. -/
def skipBracketPairs : List Token → List Token
  | opening :: closing :: rest =>
    if opening.kind == .punctuation .openBracket && closing.kind == .punctuation .closeBracket
    then skipBracketPairs rest
    else opening :: closing :: rest
  | tokens => tokens

/-- Whether the tokens after an opening parenthesis make it the start of a cast:
a built-in type does, and a word in parentheses does if an operand follows. -/
def continuesCast : List Token → Bool
  | [] => false
  | first :: rest =>
    first.kind.isBasicType ||
      first.kind == .identifier &&
        match skipBracketPairs rest with
        | closing :: operand :: _ =>
          closing.kind == .punctuation .closeParen && startsOperand operand.kind
        | _ => false

/-- Whether a cast starts at the current token. -/
def startsCast : Parse Bool := do
  match (← get).upcoming with
  | opening :: rest => return opening.kind == .punctuation .openParen && continuesCast rest
  | [] => return false

/-! ## Primary expressions -/

/-- A literal that consists of the current token. -/
def literal (value : LiteralValue) : Parse Node := do
  let token ← advance
  finish token.span.start (.literal value)

/-- The text of a string, where a token is one. -/
def stringText? : Lexeme → Option String
  | .string text _ | .docString text _ => some text
  | _ => none

/-- Adjacent strings, each as a literal of its own. -/
def stringParts (inner : Inner) : Parse (List Node) :=
  inner.collect do
    match stringText? (← current).lexeme with
    | some text => return ([← literal (.string text)], true)
    | none => return ([], false)

/-- One or more adjacent strings. A single one stands for itself. -/
def stringLiterals (inner : Inner) : Parse Node := do
  let start ← position
  let parts ← stringParts inner
  match parts with
  | [single] => return single
  | _ => finish start (.stringConcat parts)

/-- `::name`, which means the inherited definition, with the cursor on `::`. -/
def inheritedName : Parse Node := do
  let start ← position
  let _ ← advance
  if ← sees .identifier then
    let token ← advance
    finish start (.identifier ("::" ++ token.lexeme.text))
  else
    reportHere "Identifier expected."
    finish start (.identifier "::")

/-- One argument of a call, which `...` may spread. -/
def argument (inner : Inner) : Parse Node := do
  let start ← position
  let value ← inner.parse .expression
  if ← acceptMark .ellipsis then finish start (.spread value) else return value

/-- The arguments of a call, which may be none. -/
def arguments (inner : Inner) : Parse (List Node) := do
  if ← seesMark .closeParen then
    return []
  else
    inner.collect do
      let item ← argument inner
      return ([item], ← acceptMark .comma)

/-- The arguments of a call in parentheses, with the cursor on `(`. -/
def argumentList (inner : Inner) : Parse (ArgumentList Node) := do
  let start ← position
  let _ ← advance
  let items ← arguments inner
  let _ ← requireMark .closeParen
  let previousEnd := (← get).previousEnd
  let stop := (items.getLast?.map fun last => max last.span.stop previousEnd).getD previousEnd
  return ⟨⟨start, stop⟩, items⟩

/-- What `new` makes an object of: a path or a type. -/
def newTarget (inner : Inner) : Parse Node := do
  if ← sees .string then stringLiterals inner else type inner

/-- `new` with a type or a path, with the cursor on `new`. -/
def newObject (inner : Inner) : Parse Node := do
  let start ← position
  let _ ← advance
  let target ← newTarget inner
  let arguments ← optionally (seesMark .openParen) (argumentList inner)
  finish start (.newObject target arguments)

/-- The elements of a literal up to a closing mark. An element that consumed
nothing is followed by the token it stopped at, as a wrong node. -/
def elements (inner : Inner) (closing : Punctuation) (element : Parse Node) :
    Parse (List Node) :=
  inner.collect do
    if (← seesMark closing) || (← seesEnd) then
      return ([], false)
    else
      let before ← position
      let item ← element
      if ← acceptMark .comma then
        return ([item], true)
      else if (← position) == before && !(← seesMark closing) then
        return ([item, ← wrong "',' expected." none], true)
      else
        return ([item], false)

/-- An array literal, with the cursor on its opening mark. -/
def arrayLiteral (inner : Inner) : Parse Node := do
  let start ← position
  let _ ← advance
  let items ← elements inner .closeBrace (inner.parse .expression)
  let _ ← requireMark .closeBrace
  let _ ← requireMark .closeParen
  finish start (.arrayLiteral items)

/-- One entry of a mapping literal: a key, a colon and a value. -/
def mappingEntry (inner : Inner) : Parse Node := do
  let start ← position
  let key ← inner.parse .expression
  let value ← optionally (requireMark .colon) (inner.parse .expression)
  finish start (.mappingEntry key value)

/-- A mapping literal, with the cursor on its opening mark. -/
def mappingLiteral (inner : Inner) : Parse Node := do
  let start ← position
  let _ ← advance
  let entries ← elements inner .closeBracket (mappingEntry inner)
  let _ ← requireMark .closeBracket
  let _ ← requireMark .closeParen
  finish start (.mappingLiteral entries)

/-- An expression in parentheses, with the cursor on `(`. -/
def parenthesized (inner : Inner) : Parse Node := do
  let start ← position
  let _ ← advance
  let expression ← inner.parse .expression
  let _ ← requireMark .closeParen
  finish start (.parenthesized expression)

/-- An expression without operators. -/
def primary (inner : Inner) : Parse Node := do
  match (← current).lexeme with
  | .stray _ => wrong "Invalid character." (some .identifier)
  | .identifier _ => identifier
  | .integer value => literal (.int value)
  | .character c _ => literal (.char c)
  | .symbol name _ => literal (.symbol name)
  | .string _ _ | .docString _ _ => stringLiterals inner
  | .keyword .trueKw => literal (.bool true)
  | .keyword .falseKw => literal (.bool false)
  | .keyword .nilKw => literal .nil
  | .keyword .thisKw => literal .this
  | .keyword .newKw => newObject inner
  | .punctuation .doubleColon => inheritedName
  | .punctuation .openParen => parenthesized inner
  | .punctuation .openArray => arrayLiteral inner
  | .punctuation .openMapping => mappingLiteral inner
  | _ => missingOrWrong "Expression expected." .identifier

/-! ## Operators -/

/-- The upper bound of a range, which may be absent. Without a range there is
none. -/
def rangeBound (inner : Inner) (isRange : Bool) : Parse (Option Node) :=
  if isRange then unlessAt (· == .punctuation .closeBracket) (inner.parse .expression)
  else return none

/-- A subscript of an object, with the cursor on `[`. -/
def subscript (inner : Inner) (object : Node) : Parse Node := do
  let _ ← advance
  let index ← unlessAt (· == .punctuation .dotDot) (inner.parse .expression)
  let isRange ← acceptMark .dotDot
  let rangeEnd ← rangeBound inner isRange
  let _ ← requireMark .closeBracket
  finish object.span.start (.subscript object index rangeEnd isRange)

/-- The name of a member. -/
def memberName : Parse Node := do
  if ← sees .identifier then identifier
  else missingOrWrong "Member name expected." .identifier

/-- A member of an object, with the cursor on `->` or `.`. -/
def memberAccess (object : Node) : Parse Node := do
  let arrow := (← advance).kind == .punctuation .arrow
  let name ← memberName
  finish object.span.start (.memberAccess object name arrow)

/-- A call, with the cursor on `(`. -/
def call (inner : Inner) (callee : Node) : Parse Node := do
  let arguments ← argumentList inner
  finish callee.span.start (.call callee arguments)

/-- An operator after its operand, with the cursor on the operator. -/
def postfixUnary (operator : Punctuation) (operand : Node) : Parse Node := do
  let _ ← advance
  finish operand.span.start (.postfixUnary operand operator)

/-- Applies to an expression what follows it: a call, a subscript, a member
access or an operator after its operand. Tells whether there was any. -/
def applyPostfix (inner : Inner) (expression : Node) : Parse (Node × Bool) := do
  match ← currentKind with
  | .punctuation .openParen => return (← call inner expression, true)
  | .punctuation .openBracket => return (← subscript inner expression, true)
  | .punctuation .arrow | .punctuation .dot => return (← memberAccess expression, true)
  | .punctuation .increment => return (← postfixUnary .increment expression, true)
  | .punctuation .decrement => return (← postfixUnary .decrement expression, true)
  | _ => return (expression, false)

/-- A primary expression and all that follows it. -/
def postfixExpression (inner : Inner) : Parse Node := do
  inner.iterate (← primary inner) (applyPostfix inner)

/-- A cast, with the cursor on `(`. -/
def cast (inner : Inner) : Parse Node := do
  let start ← position
  let _ ← advance
  let type ← type inner
  let _ ← requireMark .closeParen
  let operand ← inner.parse .unary
  finish start (.cast type operand)

/-- An operator before its operand, with the cursor on the operator. -/
def prefixExpression (inner : Inner) (operator : Punctuation) : Parse Node := do
  let start ← position
  let _ ← advance
  let operand ← inner.parse .unary
  finish start (.prefixUnary operator operand)

/-- An operand with the unary operators before it, at the present depth. -/
def unaryBody (inner : Inner) : Parse Node := do
  if ← startsCast then
    cast inner
  else
    match ← currentKind with
    | .punctuation mark =>
      if isPrefixOperator mark then prefixExpression inner mark else postfixExpression inner
    | _ => postfixExpression inner

/-- **An operand** with the unary operators before it. -/
def unary (inner : Inner) : Parse Node := nested (unaryBody inner)

/-- Applies to a left operand the binary operator that follows it, if that binds
more tightly than a level. Tells whether there was one. -/
def applyBinary (inner : Inner) (level : Nat) (left : Node) : Parse (Node × Bool) := do
  let token ← current
  match token.kind with
  | .punctuation operator =>
    let operatorLevel := binaryLevel (.punctuation operator)
    if operatorLevel ≤ level then
      return (left, false)
    else
      let _ ← advance
      let right ← inner.parse (.binary operatorLevel)
      return (← finish token.span.start (.binary left operator right), true)
  | _ => return (left, false)

/-- **An expression of binary operators** that bind more tightly than a level. -/
def binary (inner : Inner) (level : Nat) : Parse Node := do
  inner.iterate (← unary inner) (applyBinary inner level)

/-- An expression that may be a conditional. -/
def conditional (inner : Inner) : Parse Node := do
  let condition ← binary inner 0
  let start ← position
  if ← acceptMark .question then
    let whenTrue ← nested (inner.parse .expression)
    let whenFalse ← optionally (requireMark .colon) (nested (inner.parse .expression))
    finish start (.conditional condition whenTrue whenFalse)
  else
    return condition

/-- **An expression**, which may be an assignment. -/
def expression (inner : Inner) : Parse Node := do
  let left ← conditional inner
  let token ← current
  match token.kind with
  | .punctuation operator =>
    if operator.isAssignment then
      let _ ← advance
      let right ← nested (inner.parse .expression)
      finish token.span.start (.binary left operator right)
    else
      return left
  | _ => return left

end ScriptLens.Parser
