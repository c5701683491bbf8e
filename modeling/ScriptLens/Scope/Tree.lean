import ScriptLens.Scope.Definition

/-!
# Scopes and what they make visible

A source text is divided into nested scopes: the whole text, functions, classes
and blocks. A scope knows its span, its parent and, ordered by offset, the
definitions and the scopes that it owns. Scopes are numbered in the order in
which they open; the whole text is number zero.

`ScopeTree.visibleAt` answers what an offset can see: the definitions of the
scopes around it that stand before it.
-/

namespace ScriptLens

/-- The constructs that open a scope. -/
inductive ScopeKind
  | file | function | block | classBody
deriving DecidableEq, Repr

/-- The name of a kind in listings. -/
def ScopeKind.name : ScopeKind → String
  | file => "File"
  | function => "Function"
  | block => "Block"
  | classBody => "Class"

/-- What a scope owns at an offset, by its number. -/
inductive ScopeEntry
  | child (scope : Nat)
  | definition (definition : Nat)
deriving DecidableEq, Repr

/-- A scope. -/
structure Scope where
  /-- The scope around it; none for the whole text. -/
  parent : Option Nat
  /-- What opened it. -/
  kind : ScopeKind
  /-- Where it is. -/
  span : Span
  /-- What it owns, by ascending offset. -/
  entries : List (Nat × ScopeEntry)
deriving DecidableEq, Repr

/-- The ways in which a text names another one. -/
inductive DependencyKind
  | quotedInclude | systemInclude | inherit
deriving DecidableEq, Repr

/-- The name of a kind in listings. -/
def DependencyKind.name : DependencyKind → String
  | quotedInclude => "Include"
  | systemInclude => "SystemInclude"
  | inherit => "Inherit"

/-- Another text that a text names. -/
structure Dependency where
  /-- How it is named. -/
  kind : DependencyKind
  /-- Its name. -/
  path : String
  /-- Where it is named. -/
  offset : Nat
deriving DecidableEq, Repr

/-- The scopes of a text. -/
structure ScopeTree where
  /-- The scopes, in the order of their numbers. -/
  scopes : List Scope
  /-- The definitions, in the order of their numbers. -/
  definitions : List Definition
  /-- The texts that the text names, in order. -/
  dependencies : List Dependency
  /-- The number of bytes of the text. -/
  sourceLength : Nat

namespace Scope

/-- Puts an entry at an offset among entries by ascending offset. An offset that
is taken keeps what it has. -/
def insertEntry (offset : Nat) (entry : ScopeEntry) :
    List (Nat × ScopeEntry) → List (Nat × ScopeEntry)
  | [] => [(offset, entry)]
  | (key, value) :: rest =>
    if offset < key then (offset, entry) :: (key, value) :: rest
    else if offset = key then (key, value) :: rest
    else (key, value) :: insertEntry offset entry rest

/-- The definitions of a scope with their offsets. -/
def definitions (s : Scope) : List (Nat × Nat) :=
  s.entries.filterMap fun
    | (offset, .definition id) => some (offset, id)
    | (_, .child _) => none

/-- The scopes that a scope owns with their offsets. -/
def children (s : Scope) : List (Nat × Nat) :=
  s.entries.filterMap fun
    | (offset, .child id) => some (offset, id)
    | (_, .definition _) => none

end Scope

namespace ScopeTree

/-- The number of the scope of the whole text. -/
def root : Nat := 0

/-- How many steps a walk between parents and children takes at most. -/
def walkLimit : Nat := 10000

/-- The scopes of a text of `length` bytes that opens none and defines
nothing. -/
def ofLength (length : Nat) : ScopeTree :=
  ⟨[⟨none, .file, ⟨0, length⟩, []⟩], [], [], length⟩

/-- Puts an entry into a scope. -/
def addEntry (t : ScopeTree) (scope offset : Nat) (entry : ScopeEntry) : ScopeTree :=
  { t with
    scopes := t.scopes.modify scope fun s =>
      { s with entries := Scope.insertEntry offset entry s.entries } }

/-- Opens a scope inside another one. -/
def openScope (t : ScopeTree) (parent : Nat) (kind : ScopeKind) (span : Span) : ScopeTree :=
  let opened : ScopeTree := { t with scopes := t.scopes ++ [⟨some parent, kind, span, []⟩] }
  opened.addEntry parent span.start (.child t.scopes.length)

/-- Adds a definition to a scope. -/
def define (t : ScopeTree) (scope : Nat) (definition : Definition) : ScopeTree :=
  let extended : ScopeTree := { t with definitions := t.definitions ++ [definition] }
  extended.addEntry scope definition.offset (.definition t.definitions.length)

/-- Adds a text that the text names. -/
def addDependency (t : ScopeTree) (dependency : Dependency) : ScopeTree :=
  { t with dependencies := t.dependencies ++ [dependency] }

/-! ## What an offset sees -/

/-- Whether a scope contains an offset. A scope that reaches up to the end of
the text contains that end as well. -/
def contains (t : ScopeTree) (scope offset : Nat) : Bool :=
  t.scopes[scope]?.any fun s =>
    s.span.contains offset || (offset == s.span.stop && s.span.stop == t.sourceLength)

/-- The last child of a scope that opens at or before an offset. Children never
overlap, so no other child can contain it. -/
def lastChild? (t : ScopeTree) (scope offset : Nat) : Option Nat := do
  let s ← t.scopes[scope]?
  let child ← (s.children.filter (·.1 ≤ offset)).getLast?
  return child.2

/-- Goes from a scope to the innermost scope inside it that contains an
offset. -/
def descend (t : ScopeTree) (offset : Nat) : Nat → Nat → Nat
  | 0, scope => scope
  | steps + 1, scope =>
    match t.lastChild? scope offset with
    | some child => if t.contains child offset then t.descend offset steps child else scope
    | none => scope

/-- The innermost scope that contains an offset. -/
def scopeAt (t : ScopeTree) (offset : Nat) : Nat := t.descend offset walkLimit root

/-- A scope and the scopes around it, innermost first. -/
def ancestors (t : ScopeTree) : Nat → Nat → List Nat
  | 0, _ => []
  | steps + 1, scope =>
    scope ::
      match t.scopes[scope]?.bind Scope.parent with
      | some parent => t.ancestors steps parent
      | none => []

/-- The scopes around a scope and the scope itself, outermost first. -/
def chain (t : ScopeTree) (scope : Nat) : List Nat := (t.ancestors walkLimit scope).reverse

/-- The definitions that a scope owns, by ascending offset. -/
def owned (t : ScopeTree) (scope : Nat) : List Definition :=
  match t.scopes[scope]? with
  | some s => s.definitions.filterMap fun (_, id) => t.definitions[id]?
  | none => []

/-- The definitions that a scope owns before an offset. -/
def ownedBefore (t : ScopeTree) (scope offset : Nat) : List Definition :=
  match t.scopes[scope]? with
  | some s =>
    (s.definitions.filter (·.1 < offset)).filterMap fun (_, id) => t.definitions[id]?
  | none => []

/-- The definitions that a scope makes available at an offset: those of the
scopes around it and its own, outermost first. -/
def available (t : ScopeTree) (scope offset : Nat) : List Definition :=
  (t.chain scope).flatMap (t.ownedBefore · offset)

/-- **The definitions visible at an offset.** -/
def visibleAt (t : ScopeTree) (offset : Nat) : List Definition :=
  t.available (t.scopeAt offset) offset

/-- The definitions that other texts see. -/
def exported (t : ScopeTree) : List Definition := t.owned root

end ScopeTree

end ScriptLens
