import ScriptLens.Text.Template
import ScriptLens.Token.Scanner
import ScriptLens.Tree.Node

/-!
# The parser's state and its steps

The parser reads a list of tokens and never fails. Where a construct is absent
it puts a `missing` node, and where a token cannot stand it wraps that token in
a `wrong` node; either leaves a diagnostic. This module holds the state and the
few steps that everything else is made of: look at the current token, consume
it, report, complete a node.

Repetition and recursion are bounded. A construct that contains constructs of
its own kind asks for them through `Inner`, and only after it consumed a token;
a repetition goes on only after it consumed a token. So the number of tokens
that are left bounds both, and the bounds are never met: what the `Safeguard`
does then is of no consequence.
-/

namespace ScriptLens

/-- A problem that the parser found. -/
structure ParseDiagnostic where
  /-- The offset at which it stands. -/
  start : Nat
  /-- The number of bytes it covers; zero for something absent. -/
  length : Nat
  /-- What is wrong. -/
  message : String
deriving DecidableEq, Repr

namespace Parser

/-- What stays the same while a text is parsed. -/
structure Setting where
  /-- The source text. -/
  text : List Char
  /-- Its number of bytes. -/
  length : Nat

/-- What changes while a construct is parsed. -/
structure State where
  /-- The tokens that are not consumed yet, without the end of the text. -/
  upcoming : List Token
  /-- The end of the token that was consumed last. -/
  previousEnd : Nat
  /-- The problems found so far. -/
  diagnostics : Array ParseDiagnostic
  /-- The number of nodes completed so far. -/
  nodeCount : Nat
  /-- How many constructs are open around the present one. -/
  depth : Nat

namespace State

/-- The state at the start of a text with the given tokens. -/
def ofTokens (tokens : List Token) : State := ⟨tokens, 0, #[], 0, 0⟩

/-- The current token, which is the end of the text when all are consumed. -/
def current (setting : Setting) (s : State) : Token :=
  match s.upcoming with
  | [] => .endOfFile setting.length
  | token :: _ => token

/-- The kind of the current token. -/
def kind (s : State) : TokenKind :=
  match s.upcoming with
  | [] => .endOfFile
  | token :: _ => token.kind

/-- The offset of the current token. -/
def position (setting : Setting) (s : State) : Nat :=
  match s.upcoming with
  | [] => setting.length
  | token :: _ => token.span.start

/-- The state behind the current token. All tokens consumed, it stays. -/
def take (s : State) : State :=
  match s.upcoming with
  | [] => s
  | token :: upcoming => { s with upcoming, previousEnd := token.span.stop }

/-- The state with one more problem. -/
def note (s : State) (diagnostic : ParseDiagnostic) : State :=
  { s with diagnostics := s.diagnostics.push diagnostic }

/-- The state with one more node completed. -/
def count (s : State) : State := { s with nodeCount := s.nodeCount + 1 }

/-- The state one construct further in. -/
def enter (s : State) : State := { s with depth := s.depth + 1 }

/-- The state one construct further out. -/
def leave (s : State) : State := { s with depth := s.depth - 1 }

end State

/-- A step of the parser. -/
abbrev Parse := ReaderT Setting (StateM State)

/-- How deeply constructs may be nested. -/
def nestingLimit : Nat := 256

/-! ## Tokens -/

/-- The current token. -/
def current : Parse Token := return (← get).current (← read)

/-- The kind of the current token. -/
def currentKind : Parse TokenKind := return (← get).kind

/-- The offset of the current token. -/
def position : Parse Nat := return (← get).position (← read)

/-- The kind of the token after the current one. -/
def nextKind : Parse TokenKind := return (← get).take.kind

/-- Whether the current token is of a kind. -/
def sees (kind : TokenKind) : Parse Bool := return (← currentKind) == kind

/-- Whether the current token is the given punctuation. -/
def seesMark (mark : Punctuation) : Parse Bool := sees (.punctuation mark)

/-- Whether all tokens are consumed. -/
def seesEnd : Parse Bool := sees .endOfFile

/-- Consumes the current token, unless it is the end of the text. -/
def advance : Parse Token := do
  let token ← current
  modify State.take
  return token

/-- Consumes the current token if it is of a kind, and tells whether it is. -/
def accept (kind : TokenKind) : Parse Bool := do
  if ← sees kind then
    let _ ← advance
    return true
  else
    return false

/-- Consumes the current token if it is the given punctuation. -/
def acceptMark (mark : Punctuation) : Parse Bool := accept (.punctuation mark)

/-- Consumes the current token if it is the given keyword. -/
def acceptWord (word : Keyword) : Parse Bool := accept (.keyword word)

/-! ## Problems -/

/-- Records a problem. -/
def report (start length : Nat) (message : String) : Parse Unit :=
  modify (·.note ⟨start, length, message⟩)

/-- Records that something is absent before the current token. -/
def reportHere (message : String) : Parse Unit := do
  report (← position) 0 message

/-- The message that a token of a kind is absent. -/
def expectedMessage (kind : TokenKind) : String :=
  Template.format "'\x7b0\x7d' expected." [kind.text?.getD ""]

/-- Consumes a token that has to be there, or records that it is absent; tells
which. -/
def require (kind : TokenKind) : Parse Bool := do
  if ← accept kind then
    return true
  else
    reportHere (expectedMessage kind)
    return false

/-- Consumes punctuation that has to be there, or records that it is absent. -/
def requireMark (mark : Punctuation) : Parse Bool := require (.punctuation mark)

/-! ## Nodes -/

/-- The span of a node that began at `start` when the last consumed token ended
at `previousEnd`: it reaches up to that token and covers every part. -/
def spanOver (start previousEnd : Nat) (parts : List Node) : Span :=
  parts.foldl (fun span part => span.join part.span) ⟨start, max previousEnd start⟩

/-- Completes a node on a given span. -/
def complete (span : Span) (payload : Payload Node) : Parse Node := do
  let id := (← get).nodeCount
  modify State.count
  return ⟨id, span, payload⟩

/-- Completes a node that began at `start`. -/
def finish (start : Nat) (payload : Payload Node) : Parse Node := do
  complete (spanOver start (← get).previousEnd payload.children) payload

/-- Records an absent construct and puts an empty node in its place. -/
def missing (message : String) (expected : Option Expected) : Parse Node := do
  let start ← position
  report start 0 message
  complete (.emptyAt start) (.missing message expected)

/-- Records that the current token cannot stand here, and consumes it into a
node. At the end of the text there is none, so something is missing there. -/
def wrong (message : String) (expected : Option Expected) : Parse Node := do
  if ← seesEnd then
    missing message expected
  else
    let token ← advance
    report token.span.start token.span.length message
    complete token.span (.wrong message expected)

/-- Whether a token can follow a construct that is absent, so that the construct
is missing before it and the token itself is not wrong. -/
def isClosing : TokenKind → Bool
  | .endOfFile => true
  | .punctuation mark =>
    match mark with
    | .semicolon | .comma | .colon | .closeParen | .openBrace | .closeBrace | .closeBracket
    | .ellipsis | .dotDot | .assign | .greater => true
    | _ => false
  | .keyword .inKw => true
  | _ => false

/-- A placeholder for a construct that does not start here: it is missing if the
current token can follow it, and otherwise the current token is wrong. -/
def missingOrWrong (message : String) (expected : Expected) : Parse Node := do
  if isClosing (← currentKind) then missing message (some expected)
  else wrong message (some expected)

/-! ## Depth, recursion and repetition -/

/-- Parses one level further in, or refuses to where that is too deep. -/
def nested (inside : Parse Node) : Parse Node := do
  if nestingLimit ≤ (← get).depth then
    wrong "Construct is nested too deeply." none
  else
    modify State.enter
    let node ← inside
    modify State.leave
    return node

/-- The constructs that contain each other. -/
inductive Goal
  | expression
  /-- An expression of binary operators that bind more tightly than a level. -/
  | binary (level : Nat)
  | unary
  | type
  | statement
  | declaration

/-- **What the parser would do if it did not move on.** A construct asks for
those inside it, and a repetition goes on, only after a token was consumed, and
a statement consumes one at least. So nothing of this is ever done, and it is
given from outside so that this can be said. -/
structure Safeguard where
  /-- Stands for a construct once its bound is met. -/
  construct : Goal → Parse Node
  /-- Ends a repetition once its bound is met. -/
  repetition : Parse Unit
  /-- Follows a statement that consumed nothing, with what is to be said about
  the token it stopped at. -/
  standstill : String → Parse Node

/-- The safeguard that the parser comes with: the token at which it stands still
is wrong. -/
def Safeguard.standard : Safeguard where
  construct _ := missing "Construct expected." none
  repetition := return ()
  standstill message := wrong message none

/-- What a construct is given to parse the constructs inside it. -/
structure Inner where
  /-- A bound on the number of tokens that are left. -/
  bound : Nat
  /-- What is done instead of standing still. -/
  safeguard : Safeguard
  /-- Parses a construct. -/
  parse : Goal → Parse Node

/-- Repeats a step that changes a value until it says that it is done. -/
def iterate {σ : Type} (atBound : Parse Unit) (step : σ → Parse (σ × Bool)) :
    Nat → σ → Parse σ
  | 0, value => do
    atBound
    return value
  | bound + 1, value => do
    let (value, again) ← step value
    if again then iterate atBound step bound value else return value

/-- Repeats a step that reads nodes until it says that it is done, and lists
the nodes in order. -/
def collect (atBound : Parse Unit) (step : Parse (List Node × Bool)) :
    Nat → Parse (List Node)
  | 0 => do
    atBound
    return []
  | bound + 1 => do
    let (nodes, again) ← step
    if again then return nodes ++ (← collect atBound step bound) else return nodes

/-- Repeats as often as tokens are left, and once more. -/
def Inner.iterate {σ : Type} (inner : Inner) (value : σ) (step : σ → Parse (σ × Bool)) :
    Parse σ :=
  Parser.iterate inner.safeguard.repetition step (inner.bound + 1) value

/-- Repeats as often as tokens are left, and once more. -/
def Inner.collect (inner : Inner) (step : Parse (List Node × Bool)) : Parse (List Node) :=
  Parser.collect inner.safeguard.repetition step (inner.bound + 1)

/-! ## Parts that may be absent -/

/-- A part that is there if a test succeeds. -/
def optionally {α : Type} (test : Parse Bool) (part : Parse α) : Parse (Option α) := do
  if ← test then return some (← part) else return none

/-- A part that is absent where the current token is one of those that end
it. -/
def unlessAt (ends : TokenKind → Bool) (part : Parse Node) : Parse (Option Node) := do
  if ends (← currentKind) then return none else return some (← part)

/-- Parts between braces, or none without an opening brace. -/
def braced (parts : Parse (List Node)) : Parse (List Node) := do
  if ← requireMark .openBrace then
    let nodes ← parts
    let _ ← requireMark .closeBrace
    return nodes
  else
    return []

end Parser

end ScriptLens
