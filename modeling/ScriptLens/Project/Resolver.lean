import ScriptLens.Project.Loader
import ScriptLens.Service.Analysis

/-!
# Resolving names

A resolver turns names into analysed texts and keeps them, so that a text is
loaded and analysed once. Failures are not kept. The texts that a text depends
on are found level by level: first those it names, then those that these name,
and so on. Every name is resolved once, so that cycles end.

The functions are given the way to load a text, or, where they search, the way to
resolve a name; it may work in any monad.
-/

namespace ScriptLens

/-- Why a name cannot be resolved. -/
structure ResolveError where
  /-- The name. -/
  name : String
  /-- Why it has no text. -/
  cause : LoadError
deriving DecidableEq, Repr

/-- The message of an error. -/
def ResolveError.message (e : ResolveError) : String := "cannot resolve " ++ e.name

/-- Analysed texts by their names, with counts of how they were asked for. -/
structure Resolver where
  /-- The analysed texts, each name once. -/
  cache : List (String × Analysis)
  /-- How often a text was there. -/
  hits : Nat
  /-- How often a text had to be loaded. -/
  misses : Nat

namespace Resolver

/-- The resolver that knows no text yet. -/
def empty : Resolver := ⟨[], 0, 0⟩

/-- How many texts are kept. -/
def size (r : Resolver) : Nat := r.cache.length

/-- Whether the text of a name is kept. -/
def isCached (r : Resolver) (name : String) : Bool := (r.cache.lookup name).isSome

/-- Forgets the text of a name. -/
def invalidate (r : Resolver) (name : String) : Resolver :=
  { r with cache := r.cache.filter (·.1 ≠ name) }

/-- Forgets all texts. -/
def clear (r : Resolver) : Resolver := { r with cache := [] }

/-- How many levels of dependencies are followed. -/
def depthLimit : Nat := 32

/-- The state of a search for dependencies. -/
structure Search where
  /-- The resolver. -/
  resolver : Resolver
  /-- The names that were met. -/
  seen : List String
  /-- The texts that were found, last first. -/
  found : List Analysis
  /-- The names of the next level, in order. -/
  next : List String

variable {m : Type → Type} [Monad m] (load : String → m (Except LoadError String))

/-- **The analysed text of a name**, which is loaded unless it is kept. -/
def resolve (r : Resolver) (name : String) : m (Except ResolveError Analysis × Resolver) :=
  match r.cache.lookup name with
  | some analysis => return (.ok analysis, { r with hits := r.hits + 1 })
  | none => do
    let counted := { r with misses := r.misses + 1 }
    match ← load name with
    | .error cause => return (.error ⟨name, cause⟩, counted)
    | .ok text =>
      let analysis := Analysis.ofText name text.toList
      return (.ok analysis, { counted with cache := (name, analysis) :: r.cache })

section Search

-- how a name is resolved is given, so that a search can be watched
variable (ask : Resolver → String → m (Except ResolveError Analysis × Resolver))

/-- Goes on with one name of the present level. A name that was met before is
passed over. -/
def visit (s : Search) (name : String) : m Search := do
  if s.seen.contains name then return s
  else
    let met := { s with seen := name :: s.seen }
    match ← ask s.resolver name with
    | (.error _, resolver) => return { met with resolver }
    | (.ok analysis, resolver) =>
      return { met with
        resolver
        found := analysis :: s.found
        next := s.next ++ analysis.dependencyPaths }

/-- Goes through levels of names, at most as many as given. -/
def visitLevels : Nat → Search → m Search
  | 0, s => return s
  | levels + 1, s =>
    if s.next.isEmpty then return s
    else do
      let after ← s.next.foldlM (visit ask) { s with next := [] }
      visitLevels levels after

/-- Searches for the texts that a text depends on, level by level. -/
def search (r : Resolver) (file : Analysis) : m (List Analysis × Resolver) := do
  let start : Search := ⟨r, [file.fileName], [], file.dependencyPaths⟩
  let result ← visitLevels ask depthLimit start
  return (result.found.reverse, result.resolver)

end Search

/-- **The texts that a text depends on**, nearest first. -/
def dependencies (r : Resolver) (file : Analysis) : m (List Analysis × Resolver) :=
  search (resolve load) r file

end Resolver

end ScriptLens
