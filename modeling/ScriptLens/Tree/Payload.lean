import ScriptLens.Text.Span
import ScriptLens.Token.Kind

/-!
# What a node of the tree holds

A payload says which construct a node is and holds its parts. The parts that are
nodes themselves are of a type `α`, so the same payload describes a node of the
tree, whose parts are trees, and a row of a listing, whose parts are numbers.
A part that may be absent is an `Option`.

`Payload.children` lists the parts that are present, in source order. Functions
on trees are written over this list, so that they need one case for every
construct they treat and not one for every construct there is.
-/

namespace ScriptLens

/-- What a placeholder stands in for. -/
inductive Expected
  | literal | type | identifier
deriving DecidableEq, Repr

/-- The value of a literal expression. -/
inductive LiteralValue
  | int (value : Nat)
  | string (text : String)
  | char (char : Char)
  | symbol (name : String)
  | bool (value : Bool)
  | nil
  | this
deriving DecidableEq, Repr

/-- The word that a type without its array dimensions is written with. -/
inductive TypeHead
  | basic (type : BasicType)
  | nil
  | named (name : String)
deriving DecidableEq, Repr

/-- The word itself. -/
def TypeHead.text : TypeHead → String
  | basic t => t.spelling
  | nil => Keyword.nilKw.spelling
  | named name => name

/-- The kind of token that the word is. -/
def TypeHead.kind : TypeHead → TokenKind
  | basic t => .keyword (.basicType t)
  | nil => .keyword .nilKw
  | named _ => .identifier

/-- A list of arguments or parameters between parentheses. -/
structure ArgumentList (α : Type) where
  /-- Where the list stands, the parentheses included. -/
  span : Span
  /-- The arguments. -/
  items : List α
deriving DecidableEq, Repr

/-- The constructs of the language, with their parts. -/
inductive Payload (α : Type)
  /-- A whole source text. -/
  | sourceFile (fileName : String) (statements : List α)
  /-- `#include`, with a quoted path or a path between angle brackets. -/
  | includeDirective (path : α) (system : Bool)
  /-- `inherit`. -/
  | inherit (path : α)
  | classDeclaration (modifiers : List α) (flags : List Modifier) (name : α) (members : List α)
  | functionDeclaration (modifiers : List α) (flags : List Modifier) (returnType name : α)
      (parameters : ArgumentList α) (body : Option α)
  | variableDeclaration (modifiers : List α) (flags : List Modifier) (type : α)
      (declarators : List α)
  | variableDeclarator (name : α) (initializer : Option α)
  | modifier (word : Modifier)
  | parameter (type name : α) (variadic : Bool)
  /-- The variable of a `foreach` or a `catch`. -/
  | binding (type : Option α) (name : α)
  /-- A bare `...` in a list of parameters. -/
  | ellipsis
  | typeName (head : TypeHead) (arrayDepth : Nat)
  | functionType (returnType : α) (parameters : List α) (variadic : Bool) (arrayDepth : Nat)
  | block (statements : List α)
  | ifStatement (condition thenBranch : α) (elseBranch : Option α)
  | whileStatement (condition body : α)
  | doStatement (body : α) (condition : Option α)
  | forStatement (start condition step : Option α) (body : α)
  | foreachStatement (bindings : List α) (iterable : Option α) (body : α)
  | switchStatement (subject : α) (clauses : List α)
  /-- `case` with a label or a range of labels, or `default` without. -/
  | caseClause (label rangeEnd : Option α) (statements : List α)
  | tryStatement (tryBlock : α) (catchBinding catchBlock : Option α)
  | returnStatement (value : Option α)
  | breakStatement
  | continueStatement
  | expressionStatement (expression : α)
  | emptyStatement
  | identifier (name : String)
  | literal (value : LiteralValue)
  /-- Adjacent string literals. -/
  | stringConcat (parts : List α)
  | binary (left : α) (operator : Punctuation) (right : α)
  | prefixUnary (operator : Punctuation) (operand : α)
  | postfixUnary (operand : α) (operator : Punctuation)
  | conditional (condition whenTrue : α) (whenFalse : Option α)
  | call (callee : α) (arguments : ArgumentList α)
  | memberAccess (object name : α) (arrow : Bool)
  | newObject (target : α) (arguments : Option (ArgumentList α))
  | cast (type operand : α)
  /-- `a[i]`, or `a[i..j]` where both bounds may be absent. -/
  | subscript (object : α) (index rangeEnd : Option α) (isRange : Bool)
  | arrayLiteral (elements : List α)
  | mappingLiteral (entries : List α)
  | mappingEntry (key : α) (value : Option α)
  | parenthesized (inner : α)
  /-- An argument that `...` spreads. -/
  | spread (inner : α)
  /-- The place of a construct that is absent. -/
  | missing (message : String) (expected : Option Expected)
  /-- A token that cannot stand where it stands. -/
  | wrong (message : String) (expected : Option Expected)
deriving DecidableEq, Repr

/-- The construct of a payload without its parts. -/
inductive NodeKind
  | sourceFile | includeDirective | inherit | classDeclaration | functionDeclaration
  | variableDeclaration | variableDeclarator | modifier | parameter | binding | ellipsis
  | typeName | functionType
  | block | ifStatement | whileStatement | doStatement | forStatement | foreachStatement
  | switchStatement | caseClause | tryStatement | returnStatement | breakStatement
  | continueStatement | expressionStatement | emptyStatement
  | identifier | literal | stringConcat | binary | prefixUnary | postfixUnary | conditional
  | call | memberAccess | newObject | cast | subscript | arrayLiteral | mappingLiteral
  | mappingEntry | parenthesized | spread | missing | wrong
deriving DecidableEq, Repr

namespace NodeKind

/-- All kinds of nodes. -/
def all : List NodeKind := [
  sourceFile, includeDirective, inherit, classDeclaration, functionDeclaration,
  variableDeclaration, variableDeclarator, modifier, parameter, binding, ellipsis,
  typeName, functionType, block, ifStatement, whileStatement, doStatement, forStatement,
  foreachStatement, switchStatement, caseClause, tryStatement, returnStatement, breakStatement,
  continueStatement, expressionStatement, emptyStatement, identifier, literal, stringConcat,
  binary, prefixUnary, postfixUnary, conditional, call, memberAccess, newObject, cast, subscript,
  arrayLiteral, mappingLiteral, mappingEntry, parenthesized, spread, missing, wrong]

/-- The name of a kind in listings. -/
def name : NodeKind → String
  | sourceFile => "SourceFile"
  | includeDirective => "IncludeDirective"
  | inherit => "Inherit"
  | classDeclaration => "ClassDeclaration"
  | functionDeclaration => "FunctionDeclaration"
  | variableDeclaration => "VariableDeclaration"
  | variableDeclarator => "VariableDeclarator"
  | modifier => "Modifier"
  | parameter => "Parameter"
  | binding => "Binding"
  | ellipsis => "Ellipsis"
  | typeName => "TypeName"
  | functionType => "FunctionType"
  | block => "Block"
  | ifStatement => "If"
  | whileStatement => "While"
  | doStatement => "Do"
  | forStatement => "For"
  | foreachStatement => "Foreach"
  | switchStatement => "Switch"
  | caseClause => "CaseClause"
  | tryStatement => "Try"
  | returnStatement => "Return"
  | breakStatement => "Break"
  | continueStatement => "Continue"
  | expressionStatement => "ExpressionStatement"
  | emptyStatement => "EmptyStatement"
  | identifier => "Identifier"
  | literal => "Literal"
  | stringConcat => "StringConcat"
  | binary => "Binary"
  | prefixUnary => "PrefixUnary"
  | postfixUnary => "PostfixUnary"
  | conditional => "Conditional"
  | call => "Call"
  | memberAccess => "MemberAccess"
  | newObject => "New"
  | cast => "Cast"
  | subscript => "Index"
  | arrayLiteral => "ArrayLiteral"
  | mappingLiteral => "MappingLiteral"
  | mappingEntry => "MappingEntry"
  | parenthesized => "Parenthesized"
  | spread => "Spread"
  | missing => "Missing"
  | wrong => "Wrong"

/-- The kind that a listing's name stands for. -/
def ofName? (name : String) : Option NodeKind := all.find? (·.name = name)

/-- Whether nodes of the kind are placeholders. -/
def isSentinel : NodeKind → Bool
  | missing | wrong => true
  | _ => false

/-- Whether nodes of the kind are types. -/
def isType : NodeKind → Bool
  | typeName | functionType => true
  | _ => false

/-- Whether nodes of the kind are declarations. -/
def isDeclaration : NodeKind → Bool
  | classDeclaration | functionDeclaration | variableDeclaration => true
  | _ => false

end NodeKind

namespace Payload

variable {α β : Type}

/-- The kind of a payload. -/
def kind : Payload α → NodeKind
  | sourceFile .. => .sourceFile
  | includeDirective .. => .includeDirective
  | inherit .. => .inherit
  | classDeclaration .. => .classDeclaration
  | functionDeclaration .. => .functionDeclaration
  | variableDeclaration .. => .variableDeclaration
  | variableDeclarator .. => .variableDeclarator
  | modifier .. => .modifier
  | parameter .. => .parameter
  | binding .. => .binding
  | ellipsis => .ellipsis
  | typeName .. => .typeName
  | functionType .. => .functionType
  | block .. => .block
  | ifStatement .. => .ifStatement
  | whileStatement .. => .whileStatement
  | doStatement .. => .doStatement
  | forStatement .. => .forStatement
  | foreachStatement .. => .foreachStatement
  | switchStatement .. => .switchStatement
  | caseClause .. => .caseClause
  | tryStatement .. => .tryStatement
  | returnStatement .. => .returnStatement
  | breakStatement => .breakStatement
  | continueStatement => .continueStatement
  | expressionStatement .. => .expressionStatement
  | emptyStatement => .emptyStatement
  | identifier .. => .identifier
  | literal .. => .literal
  | stringConcat .. => .stringConcat
  | binary .. => .binary
  | prefixUnary .. => .prefixUnary
  | postfixUnary .. => .postfixUnary
  | conditional .. => .conditional
  | call .. => .call
  | memberAccess .. => .memberAccess
  | newObject .. => .newObject
  | cast .. => .cast
  | subscript .. => .subscript
  | arrayLiteral .. => .arrayLiteral
  | mappingLiteral .. => .mappingLiteral
  | mappingEntry .. => .mappingEntry
  | parenthesized .. => .parenthesized
  | spread .. => .spread
  | missing .. => .missing
  | wrong .. => .wrong

/-- **The parts that are present**, in source order. -/
def children : Payload α → List α
  | sourceFile _ statements => statements
  | includeDirective path _ => [path]
  | inherit path => [path]
  | classDeclaration modifiers _ name members => modifiers ++ name :: members
  | functionDeclaration modifiers _ returnType name parameters body =>
    modifiers ++ returnType :: name :: parameters.items ++ body.toList
  | variableDeclaration modifiers _ type declarators => modifiers ++ type :: declarators
  | variableDeclarator name initializer => name :: initializer.toList
  | modifier _ => []
  | parameter type name _ => [type, name]
  | binding type name => type.toList ++ [name]
  | ellipsis => []
  | typeName _ _ => []
  | functionType returnType parameters _ _ => returnType :: parameters
  | block statements => statements
  | ifStatement condition thenBranch elseBranch =>
    condition :: thenBranch :: elseBranch.toList
  | whileStatement condition body => [condition, body]
  | doStatement body condition => body :: condition.toList
  | forStatement start condition step body =>
    start.toList ++ condition.toList ++ step.toList ++ [body]
  | foreachStatement bindings iterable body => bindings ++ iterable.toList ++ [body]
  | switchStatement subject clauses => subject :: clauses
  | caseClause label rangeEnd statements => label.toList ++ rangeEnd.toList ++ statements
  | tryStatement tryBlock catchBinding catchBlock =>
    tryBlock :: catchBinding.toList ++ catchBlock.toList
  | returnStatement value => value.toList
  | breakStatement => []
  | continueStatement => []
  | expressionStatement expression => [expression]
  | emptyStatement => []
  | identifier _ => []
  | literal _ => []
  | stringConcat parts => parts
  | binary left _ right => [left, right]
  | prefixUnary _ operand => [operand]
  | postfixUnary operand _ => [operand]
  | conditional condition whenTrue whenFalse => condition :: whenTrue :: whenFalse.toList
  | call callee arguments => callee :: arguments.items
  | memberAccess object name _ => [object, name]
  | newObject target arguments =>
    target :: (arguments.map ArgumentList.items).getD []
  | cast type operand => [type, operand]
  | subscript object index rangeEnd _ => object :: index.toList ++ rangeEnd.toList
  | arrayLiteral elements => elements
  | mappingLiteral entries => entries
  | mappingEntry key value => key :: value.toList
  | parenthesized inner => [inner]
  | spread inner => [inner]
  | missing _ _ => []
  | wrong _ _ => []

/-- Applies a function to the items of a list of arguments. -/
def mapArguments (f : α → β) (list : ArgumentList α) : ArgumentList β :=
  ⟨list.span, list.items.map f⟩

/-- Applies a function to every part. -/
def map (f : α → β) : Payload α → Payload β
  | sourceFile fileName statements => sourceFile fileName (statements.map f)
  | includeDirective path system => includeDirective (f path) system
  | inherit path => inherit (f path)
  | classDeclaration modifiers flags name members =>
    classDeclaration (modifiers.map f) flags (f name) (members.map f)
  | functionDeclaration modifiers flags returnType name parameters body =>
    functionDeclaration (modifiers.map f) flags (f returnType) (f name)
      (mapArguments f parameters) (body.map f)
  | variableDeclaration modifiers flags type declarators =>
    variableDeclaration (modifiers.map f) flags (f type) (declarators.map f)
  | variableDeclarator name initializer => variableDeclarator (f name) (initializer.map f)
  | modifier word => modifier word
  | parameter type name variadic => parameter (f type) (f name) variadic
  | binding type name => binding (type.map f) (f name)
  | ellipsis => ellipsis
  | typeName head arrayDepth => typeName head arrayDepth
  | functionType returnType parameters variadic arrayDepth =>
    functionType (f returnType) (parameters.map f) variadic arrayDepth
  | block statements => block (statements.map f)
  | ifStatement condition thenBranch elseBranch =>
    ifStatement (f condition) (f thenBranch) (elseBranch.map f)
  | whileStatement condition body => whileStatement (f condition) (f body)
  | doStatement body condition => doStatement (f body) (condition.map f)
  | forStatement start condition step body =>
    forStatement (start.map f) (condition.map f) (step.map f) (f body)
  | foreachStatement bindings iterable body =>
    foreachStatement (bindings.map f) (iterable.map f) (f body)
  | switchStatement subject clauses => switchStatement (f subject) (clauses.map f)
  | caseClause label rangeEnd statements =>
    caseClause (label.map f) (rangeEnd.map f) (statements.map f)
  | tryStatement tryBlock catchBinding catchBlock =>
    tryStatement (f tryBlock) (catchBinding.map f) (catchBlock.map f)
  | returnStatement value => returnStatement (value.map f)
  | breakStatement => breakStatement
  | continueStatement => continueStatement
  | expressionStatement expression => expressionStatement (f expression)
  | emptyStatement => emptyStatement
  | identifier name => identifier name
  | literal value => literal value
  | stringConcat parts => stringConcat (parts.map f)
  | binary left operator right => binary (f left) operator (f right)
  | prefixUnary operator operand => prefixUnary operator (f operand)
  | postfixUnary operand operator => postfixUnary (f operand) operator
  | conditional condition whenTrue whenFalse =>
    conditional (f condition) (f whenTrue) (whenFalse.map f)
  | call callee arguments => call (f callee) (mapArguments f arguments)
  | memberAccess object name arrow => memberAccess (f object) (f name) arrow
  | newObject target arguments => newObject (f target) (arguments.map (mapArguments f))
  | cast type operand => cast (f type) (f operand)
  | subscript object index rangeEnd isRange =>
    subscript (f object) (index.map f) (rangeEnd.map f) isRange
  | arrayLiteral elements => arrayLiteral (elements.map f)
  | mappingLiteral entries => mappingLiteral (entries.map f)
  | mappingEntry key value => mappingEntry (f key) (value.map f)
  | parenthesized inner => parenthesized (f inner)
  | spread inner => spread (f inner)
  | missing message expected => missing message expected
  | wrong message expected => wrong message expected

@[simp] theorem kind_map (f : α → β) (p : Payload α) : (p.map f).kind = p.kind := by
  cases p <;> rfl

/-- The parts of a mapped payload are the mapped parts. -/
@[simp] theorem children_map (f : α → β) (p : Payload α) :
    (p.map f).children = p.children.map f := by
  cases p <;> simp [map, children, mapArguments, Option.toList_map]
  case newObject _ arguments => cases arguments <;> simp [mapArguments]

end Payload

end ScriptLens
