import ScriptLens.Tree.Node

/-!
# The grammar of source texts

The grammar is written without the parser: as a relation between a phrase, a
tree and the kinds of tokens that the phrase consists of. `Derives phrase n kinds`
says that `kinds` is a sentence of the phrase whose derivation tree is `n`. Every
rule puts the parts of a construct and the tokens between them in order, so a
derivation accounts for each token exactly once. There is no rule for a
placeholder.

The rules are those of the language with what is tolerated on top of them: a run
of strings wherever a path is one string, any tokens but `>` in an include path
between angle brackets, semicolons among the members of a class and one after
it, modifiers before the type of a parameter, a comma after the last parameter,
a function type without parameters, `::` before a name, and a range without a
lower bound.

## Levels of binary operators

`operators` lists the binary operators by level, the loosest first. A sentence of
`binary level` has only operators of that level or of tighter ones outside
parentheses: its last operator of the loosest level splits it, so that operators
of one level associate to the left.
-/

namespace ScriptLens.Grammar

/-- The constructs that the grammar has rules for. -/
inductive Phrase
  | source
  /-- What stands at the top level of a text. -/
  | element
  /-- A path between angle brackets. -/
  | includePath
  | modifier
  /-- A word that is declared or names a member. -/
  | name
  | type
  /-- A parameter of a function type. -/
  | typeParameter
  | parameter
  | declarator
  | declaration
  | block
  | statement
  | clause
  | binding
  /-- One string. -/
  | string
  /-- One or more strings. -/
  | strings
  /-- What an object is made of. -/
  | target
  | argument
  | mappingEntry
  | primary
  | postfixed
  | unary
  | binary (level : Nat)
  | conditional
  | expression

/-! ## Repetition and choice

A rule of a part relates a tree to the kinds it consists of. The combinations
below relate several trees, or one that may be absent, to the kinds of all of
them and of what separates them. -/

section Combinations

variable (rule : Node → List TokenKind → Prop)

/-- Any number of parts. -/
inductive Many : List Node → List TokenKind → Prop
  | nil : Many [] []
  | cons {n : Node} {ns : List Node} {ks ms : List TokenKind} :
    rule n ks → Many ns ms → Many (n :: ns) (ks ++ ms)

/-- One or more parts with commas between them. -/
inductive Series : List Node → List TokenKind → Prop
  | single {n : Node} {ks : List TokenKind} : rule n ks → Series [n] ks
  | cons {n : Node} {ns : List Node} {ks ms : List TokenKind} :
    rule n ks → Series ns ms → Series (n :: ns) (ks ++ .punctuation .comma :: ms)

/-- Any number of parts with commas between them; a comma may follow the last
one. -/
inductive LooseSeries : List Node → List TokenKind → Prop
  | nil : LooseSeries [] []
  | single {n : Node} {ks : List TokenKind} : rule n ks → LooseSeries [n] ks
  | cons {n : Node} {ns : List Node} {ks ms : List TokenKind} :
    rule n ks → LooseSeries ns ms → LooseSeries (n :: ns) (ks ++ .punctuation .comma :: ms)

/-- Any number of parts, with semicolons anywhere among them. -/
inductive Members : List Node → List TokenKind → Prop
  | nil : Members [] []
  | semicolon {ns : List Node} {ms : List TokenKind} :
    Members ns ms → Members ns (.punctuation .semicolon :: ms)
  | cons {n : Node} {ns : List Node} {ks ms : List TokenKind} :
    rule n ks → Members ns ms → Members (n :: ns) (ks ++ ms)

/-- A part after the tokens that announce it, or neither. -/
inductive Optional (lead : List TokenKind) : Option Node → List TokenKind → Prop
  | none : Optional lead none []
  | some {n : Node} {ks : List TokenKind} : rule n ks → Optional lead (some n) (lead ++ ks)

/-- The variable of a `catch`: a part in parentheses, where the part or all of
it may be absent. -/
inductive Caught : Option Node → List TokenKind → Prop
  | none : Caught none []
  | parenthesized {o : Option Node} {ks : List TokenKind} :
    Optional rule [] o ks →
      Caught o (.punctuation .openParen :: (ks ++ [.punctuation .closeParen]))

end Combinations

/-- The parts of a rule for several trees, or none of them. -/
inductive OrNone (rule : List Node → List TokenKind → Prop) : List Node → List TokenKind → Prop
  | none : OrNone rule [] []
  | some {ns : List Node} {ks : List TokenKind} : rule ns ks → OrNone rule ns ks

/-- The first part of a `for` with the semicolon that ends it: nothing, a
declaration, which ends with one, or an expression. -/
inductive ForStart (declaration expression : Node → List TokenKind → Prop) :
    Option Node → List TokenKind → Prop
  | none : ForStart declaration expression none [.punctuation .semicolon]
  | declaration {n : Node} {ks : List TokenKind} :
    declaration n ks → ForStart declaration expression (some n) ks
  | expression {n : Node} {ks : List TokenKind} :
    expression n ks →
      ForStart declaration expression (some n) (ks ++ [.punctuation .semicolon])

/-! ## Tokens -/

/-- The binary operators by level, the loosest first. -/
def operators : List (List Punctuation) :=
  [[.orOr], [.andAnd], [.bar], [.caret], [.ampersand], [.equal, .notEqual],
    [.less, .lessEqual, .greater, .greaterEqual], [.shiftLeft, .shiftRight],
    [.plus, .minus], [.star, .slash, .percent]]

/-- The operators of a level. -/
def operatorsAt (level : Nat) : List Punctuation := operators.getD level []

/-- The operators before their operand. -/
def prefixOperators : List Punctuation :=
  [.bang, .tilde, .minus, .plus, .increment, .decrement]

/-- The kind of token that a literal other than a string is. -/
def literalKind : LiteralValue → TokenKind
  | .int _ => .integer
  | .string _ => .string
  | .char _ => .character
  | .symbol _ => .symbol
  | .bool true => .keyword .trueKw
  | .bool false => .keyword .falseKw
  | .nil => .keyword .nilKw
  | .this => .keyword .thisKw

/-- As many empty pairs of brackets as a type has dimensions. -/
def brackets : Nat → List TokenKind
  | 0 => []
  | depth + 1 => .punctuation .openBracket :: .punctuation .closeBracket :: brackets depth

/-- A mark that may be absent. -/
def markIf (mark : Punctuation) : Bool → List TokenKind
  | true => [.punctuation mark]
  | false => []

/-- The modifiers of a declaration, one after another. -/
def modifierKinds (words : List Modifier) : List TokenKind :=
  words.map fun word => .keyword (.modifier word)

/-! ## The rules -/

/-- **The sentences of the grammar with their trees.** -/
inductive Derives : Phrase → Node → List TokenKind → Prop
  -- texts
  | source {id span name ns ks} :
    Many (Derives .element) ns ks → Derives .source ⟨id, span, .sourceFile name ns⟩ ks
  | includeQuoted {id span path ks} :
    Derives .strings path ks →
      Derives .element ⟨id, span, .includeDirective path false⟩ (.keyword .includeKw :: ks)
  | includeAngled {id span path ks} :
    Derives .includePath path ks →
      Derives .element ⟨id, span, .includeDirective path true⟩ (.keyword .includeKw :: ks)
  | includePath {id span text raw} :
    (∀ k ∈ raw, k ≠ .punctuation .greater) →
      Derives .includePath ⟨id, span, .literal (.string text)⟩
        (.punctuation .less :: (raw ++ [.punctuation .greater]))
  | inherit {id span path ks} :
    Derives .strings path ks →
      Derives .element ⟨id, span, .inherit path⟩
        (.keyword .inheritKw :: (ks ++ [.punctuation .semicolon]))
  | element {n ks} : Derives .statement n ks → Derives .element n ks
  -- types and names
  | name {id span text} : Derives .name ⟨id, span, .identifier text⟩ [.identifier]
  | modifier {id span word} :
    Derives .modifier ⟨id, span, .modifier word⟩ [.keyword (.modifier word)]
  | typeName {id span depth} (head : TypeHead) :
    Derives .type ⟨id, span, .typeName head depth⟩ (head.kind :: brackets depth)
  | functionType {id span returnType parameters depth ks ps} :
    Derives .type returnType ks → OrNone (Series (Derives .typeParameter)) parameters ps →
      Derives .type
        ⟨id, span, .functionType returnType parameters (parameters.any (·.kind == .ellipsis)) depth⟩
        (.keyword (.basicType .function) :: .punctuation .less ::
          (ks ++ .punctuation .openParen ::
            (ps ++ .punctuation .closeParen :: .punctuation .greater :: brackets depth)))
  | typeParameter {n ks} : Derives .type n ks → Derives .typeParameter n ks
  | typeEllipsis {id span} :
    Derives .typeParameter ⟨id, span, .ellipsis⟩ [.punctuation .ellipsis]
  | parameterEllipsis {id span} :
    Derives .parameter ⟨id, span, .ellipsis⟩ [.punctuation .ellipsis]
  | parameter {id span type name variadic modifiers ks ns} :
    (∀ k ∈ modifiers, k.isModifier) → Derives .type type ks → Derives .name name ns →
      Derives .parameter ⟨id, span, .parameter type name variadic⟩
        (modifiers ++ (ks ++ (ns ++ markIf .ellipsis variadic)))
  | binding {id span type name ks ns} :
    Optional (Derives .type) [] type ks → Derives .name name ns →
      Derives .binding ⟨id, span, .binding type name⟩ (ks ++ ns)
  -- declarations
  | declarator {id span name value ks vs} :
    Derives .name name ks →
    Optional (Derives .expression) [.punctuation .assign] value vs →
      Derives .declarator ⟨id, span, .variableDeclarator name value⟩ (ks ++ vs)
  | variableDeclaration {id span modifiers flags type declarators ks ds} :
    Many (Derives .modifier) modifiers (modifierKinds flags) → Derives .type type ks →
    Series (Derives .declarator) declarators ds →
      Derives .declaration ⟨id, span, .variableDeclaration modifiers flags type declarators⟩
        (modifierKinds flags ++ (ks ++ (ds ++ [.punctuation .semicolon])))
  | functionPrototype {id span modifiers flags type name listSpan items ks ns ps} :
    Many (Derives .modifier) modifiers (modifierKinds flags) → Derives .type type ks →
    Derives .name name ns → LooseSeries (Derives .parameter) items ps →
      Derives .declaration
        ⟨id, span, .functionDeclaration modifiers flags type name ⟨listSpan, items⟩ none⟩
        (modifierKinds flags ++ (ks ++ (ns ++ .punctuation .openParen ::
          (ps ++ [.punctuation .closeParen, .punctuation .semicolon]))))
  | functionDefinition {id span modifiers flags type name listSpan items body ks ns ps bs} :
    Many (Derives .modifier) modifiers (modifierKinds flags) → Derives .type type ks →
    Derives .name name ns → LooseSeries (Derives .parameter) items ps → Derives .block body bs →
      Derives .declaration
        ⟨id, span, .functionDeclaration modifiers flags type name ⟨listSpan, items⟩ (some body)⟩
        (modifierKinds flags ++ (ks ++ (ns ++ .punctuation .openParen ::
          (ps ++ .punctuation .closeParen :: bs))))
  | classDeclaration {id span modifiers flags name members ns ks} (semicolon : Bool) :
    Many (Derives .modifier) modifiers (modifierKinds flags) → Derives .name name ns →
    Members (Derives .declaration) members ks →
      Derives .declaration ⟨id, span, .classDeclaration modifiers flags name members⟩
        (modifierKinds flags ++ .keyword .classKw :: (ns ++ .punctuation .openBrace ::
          (ks ++ .punctuation .closeBrace :: markIf .semicolon semicolon)))
  -- statements
  | declaration {n ks} : Derives .declaration n ks → Derives .statement n ks
  | ofBlock {n ks} : Derives .block n ks → Derives .statement n ks
  | block {id span ns ks} :
    Many (Derives .statement) ns ks →
      Derives .block ⟨id, span, .block ns⟩
        (.punctuation .openBrace :: (ks ++ [.punctuation .closeBrace]))
  | empty {id span} :
    Derives .statement ⟨id, span, .emptyStatement⟩ [.punctuation .semicolon]
  | expressionStatement {id span e ks} :
    Derives .expression e ks →
      Derives .statement ⟨id, span, .expressionStatement e⟩ (ks ++ [.punctuation .semicolon])
  | ifStatement {id span condition thenBranch elseBranch cs ts es} :
    Derives .expression condition cs → Derives .statement thenBranch ts →
    Optional (Derives .statement) [.keyword .elseKw] elseBranch es →
      Derives .statement ⟨id, span, .ifStatement condition thenBranch elseBranch⟩
        (.keyword .ifKw :: .punctuation .openParen ::
          (cs ++ .punctuation .closeParen :: (ts ++ es)))
  | whileStatement {id span condition body cs bs} :
    Derives .expression condition cs → Derives .statement body bs →
      Derives .statement ⟨id, span, .whileStatement condition body⟩
        (.keyword .whileKw :: .punctuation .openParen ::
          (cs ++ .punctuation .closeParen :: bs))
  | doStatement {id span body condition bs cs} :
    Derives .statement body bs → Derives .expression condition cs →
      Derives .statement ⟨id, span, .doStatement body (some condition)⟩
        (.keyword .doKw :: (bs ++ .keyword .whileKw :: .punctuation .openParen ::
          (cs ++ [.punctuation .closeParen, .punctuation .semicolon])))
  | forStatement {id span start condition step body ss cs ts bs} :
    ForStart (Derives .declaration) (Derives .expression) start ss →
    Optional (Derives .expression) [] condition cs →
    Optional (Derives .expression) [] step ts → Derives .statement body bs →
      Derives .statement ⟨id, span, .forStatement start condition step body⟩
        (.keyword .forKw :: .punctuation .openParen ::
          (ss ++ (cs ++ .punctuation .semicolon :: (ts ++ .punctuation .closeParen :: bs))))
  | foreachStatement {id span bindings iterable body vs cs bs} :
    Series (Derives .binding) bindings vs → Derives .expression iterable cs →
    Derives .statement body bs →
      Derives .statement ⟨id, span, .foreachStatement bindings (some iterable) body⟩
        (.keyword .foreachKw :: .punctuation .openParen ::
          (vs ++ .keyword .inKw :: (cs ++ .punctuation .closeParen :: bs)))
  | switchStatement {id span subject clauses cs ks} :
    Derives .expression subject cs → Many (Derives .clause) clauses ks →
      Derives .statement ⟨id, span, .switchStatement subject clauses⟩
        (.keyword .switchKw :: .punctuation .openParen ::
          (cs ++ .punctuation .closeParen :: .punctuation .openBrace ::
            (ks ++ [.punctuation .closeBrace])))
  | caseClause {id span label rangeEnd statements ls rs ks} :
    Derives .expression label ls →
    Optional (Derives .expression) [.punctuation .dotDot] rangeEnd rs →
    Many (Derives .statement) statements ks →
      Derives .clause ⟨id, span, .caseClause (some label) rangeEnd statements⟩
        (.keyword .caseKw :: (ls ++ (rs ++ .punctuation .colon :: ks)))
  | defaultClause {id span statements ks} :
    Many (Derives .statement) statements ks →
      Derives .clause ⟨id, span, .caseClause none none statements⟩
        (.keyword .defaultKw :: .punctuation .colon :: ks)
  | tryStatement {id span tryBlock ts} :
    Derives .block tryBlock ts →
      Derives .statement ⟨id, span, .tryStatement tryBlock none none⟩ (.keyword .tryKw :: ts)
  | tryCatch {id span tryBlock binding catchBlock ts bs cs} :
    Derives .block tryBlock ts → Caught (Derives .binding) binding bs →
    Derives .block catchBlock cs →
      Derives .statement ⟨id, span, .tryStatement tryBlock binding (some catchBlock)⟩
        (.keyword .tryKw :: (ts ++ .keyword .catchKw :: (bs ++ cs)))
  | returnStatement {id span value ks} :
    Optional (Derives .expression) [] value ks →
      Derives .statement ⟨id, span, .returnStatement value⟩
        (.keyword .returnKw :: (ks ++ [.punctuation .semicolon]))
  | breakStatement {id span} :
    Derives .statement ⟨id, span, .breakStatement⟩ [.keyword .breakKw, .punctuation .semicolon]
  | continueStatement {id span} :
    Derives .statement ⟨id, span, .continueStatement⟩
      [.keyword .continueKw, .punctuation .semicolon]
  -- expressions without operators
  | string {id span text} : Derives .string ⟨id, span, .literal (.string text)⟩ [.string]
  | strings {n ks} : Derives .string n ks → Derives .strings n ks
  | stringConcat {id span ns ks} :
    2 ≤ ns.length → Many (Derives .string) ns ks →
      Derives .strings ⟨id, span, .stringConcat ns⟩ ks
  | ofStrings {n ks} : Derives .strings n ks → Derives .primary n ks
  | ofName {n ks} : Derives .name n ks → Derives .primary n ks
  | inheritedName {id span text} :
    Derives .primary ⟨id, span, .identifier text⟩ [.punctuation .doubleColon, .identifier]
  | literal {id span value} :
    Derives .primary ⟨id, span, .literal value⟩ [literalKind value]
  | typeTarget {n ks} : Derives .type n ks → Derives .target n ks
  | pathTarget {n ks} : Derives .strings n ks → Derives .target n ks
  | newObject {id span target ks} :
    Derives .target target ks →
      Derives .primary ⟨id, span, .newObject target none⟩ (.keyword .newKw :: ks)
  | newObjectWith {id span target listSpan items ks as} :
    Derives .target target ks →
    OrNone (Series (Derives .argument)) items as →
      Derives .primary ⟨id, span, .newObject target (some ⟨listSpan, items⟩)⟩
        (.keyword .newKw :: (ks ++ .punctuation .openParen ::
          (as ++ [.punctuation .closeParen])))
  | parenthesized {id span e ks} :
    Derives .expression e ks →
      Derives .primary ⟨id, span, .parenthesized e⟩
        (.punctuation .openParen :: (ks ++ [.punctuation .closeParen]))
  | arrayLiteral {id span ns ks} :
    LooseSeries (Derives .expression) ns ks →
      Derives .primary ⟨id, span, .arrayLiteral ns⟩
        (.punctuation .openArray ::
          (ks ++ [.punctuation .closeBrace, .punctuation .closeParen]))
  | mappingLiteral {id span ns ks} :
    LooseSeries (Derives .mappingEntry) ns ks →
      Derives .primary ⟨id, span, .mappingLiteral ns⟩
        (.punctuation .openMapping ::
          (ks ++ [.punctuation .closeBracket, .punctuation .closeParen]))
  | mappingEntry {id span key value ks vs} :
    Derives .expression key ks → Derives .expression value vs →
      Derives .mappingEntry ⟨id, span, .mappingEntry key (some value)⟩
        (ks ++ .punctuation .colon :: vs)
  | argument {n ks} : Derives .expression n ks → Derives .argument n ks
  | spread {id span e ks} :
    Derives .expression e ks →
      Derives .argument ⟨id, span, .spread e⟩ (ks ++ [.punctuation .ellipsis])
  -- operators
  | primary {n ks} : Derives .primary n ks → Derives .postfixed n ks
  | call {id span callee listSpan items ks as} :
    Derives .postfixed callee ks → OrNone (Series (Derives .argument)) items as →
      Derives .postfixed ⟨id, span, .call callee ⟨listSpan, items⟩⟩
        (ks ++ .punctuation .openParen :: (as ++ [.punctuation .closeParen]))
  | subscript {id span object index ks is} :
    Derives .postfixed object ks → Derives .expression index is →
      Derives .postfixed ⟨id, span, .subscript object (some index) none false⟩
        (ks ++ .punctuation .openBracket :: (is ++ [.punctuation .closeBracket]))
  | range {id span object lower upper ks ls us} :
    Derives .postfixed object ks → Optional (Derives .expression) [] lower ls →
    Optional (Derives .expression) [] upper us →
      Derives .postfixed ⟨id, span, .subscript object lower upper true⟩
        (ks ++ .punctuation .openBracket ::
          (ls ++ .punctuation .dotDot :: (us ++ [.punctuation .closeBracket])))
  | arrowAccess {id span object name ks ns} :
    Derives .postfixed object ks → Derives .name name ns →
      Derives .postfixed ⟨id, span, .memberAccess object name true⟩
        (ks ++ .punctuation .arrow :: ns)
  | dotAccess {id span object name ks ns} :
    Derives .postfixed object ks → Derives .name name ns →
      Derives .postfixed ⟨id, span, .memberAccess object name false⟩
        (ks ++ .punctuation .dot :: ns)
  | postfixUnary {id span operand operator ks} :
    operator ∈ [Punctuation.increment, .decrement] → Derives .postfixed operand ks →
      Derives .postfixed ⟨id, span, .postfixUnary operand operator⟩
        (ks ++ [.punctuation operator])
  | postfixed {n ks} : Derives .postfixed n ks → Derives .unary n ks
  | prefixUnary {id span operator operand ks} :
    operator ∈ prefixOperators → Derives .unary operand ks →
      Derives .unary ⟨id, span, .prefixUnary operator operand⟩ (.punctuation operator :: ks)
  | cast {id span type operand ts ks} :
    Derives .type type ts → Derives .unary operand ks →
      Derives .unary ⟨id, span, .cast type operand⟩
        (.punctuation .openParen :: (ts ++ .punctuation .closeParen :: ks))
  | unary {level n ks} : Derives .unary n ks → Derives (.binary level) n ks
  | binary {id span level tighter operator left right ls rs} :
    level ≤ tighter → operator ∈ operatorsAt tighter →
    Derives (.binary tighter) left ls → Derives (.binary (tighter + 1)) right rs →
      Derives (.binary level) ⟨id, span, .binary left operator right⟩
        (ls ++ .punctuation operator :: rs)
  | ofBinary {n ks} : Derives (.binary 0) n ks → Derives .conditional n ks
  | conditional {id span condition whenTrue whenFalse cs ts fs} :
    Derives (.binary 0) condition cs → Derives .expression whenTrue ts →
    Derives .expression whenFalse fs →
      Derives .conditional ⟨id, span, .conditional condition whenTrue (some whenFalse)⟩
        (cs ++ .punctuation .question :: (ts ++ .punctuation .colon :: fs))
  | ofConditional {n ks} : Derives .conditional n ks → Derives .expression n ks
  | assignment {id span operator left right ls rs} :
    operator.isAssignment → Derives .conditional left ls → Derives .expression right rs →
      Derives .expression ⟨id, span, .binary left operator right⟩
        (ls ++ .punctuation operator :: rs)

/-- An expression of tight operators is one of looser operators. -/
theorem Derives.loosen {level tighter : Nat} {n : Node} {ks : List TokenKind}
    (hle : level ≤ tighter) (h : Derives (.binary tighter) n ks) :
    Derives (.binary level) n ks := by
  cases h with
  | unary h => exact .unary h
  | binary hle' hop hl hr => exact .binary (Nat.le_trans hle hle') hop hl hr

end ScriptLens.Grammar
