import ScriptLens.Service.Analysis
import ScriptLens.Service.Suggestion
import ScriptLens.Text.LowerCase
import ScriptLens.Types.Lower

/-!
# Completion

What belongs at a cursor decides which families of candidates are offered. The
names come from the scopes around the cursor and from the texts that the text
depends on. Candidates that do not start with the word left of the cursor are
dropped, and of candidates that look the same only the first is kept.
-/

namespace ScriptLens

/-- The kinds of suggestions that are shown apart. -/
inductive SuggestionKind
  | literal | snippet | variableName | parameterName | functionName | className
  | typeName | modifier | keyword
deriving DecidableEq, Repr

/-- The name of a kind in listings. -/
def SuggestionKind.name : SuggestionKind → String
  | literal => "Literal"
  | snippet => "Snippet"
  | variableName => "Variable"
  | parameterName => "Parameter"
  | functionName => "Function"
  | className => "Class"
  | typeName => "Type"
  | modifier => "Modifier"
  | keyword => "Keyword"

/-- One candidate. -/
structure Suggestion where
  /-- The text to insert. -/
  insertText : String
  /-- What it is, in words. -/
  description : String
  /-- Where the caret goes, counted from the end of the inserted text. -/
  caretOffset : Option Int
  /-- The type to show beside it. -/
  annotation : Option String
  /-- How to show it. -/
  kind : SuggestionKind
deriving DecidableEq, Repr

namespace Suggestion

/-- A candidate that is inserted as it stands. -/
def plain (text description : String) (kind : SuggestionKind) : Suggestion :=
  ⟨text, description, none, none, kind⟩

/-- Whether two candidates look the same; how they are shown does not count. -/
def sameAs (s t : Suggestion) : Bool :=
  s.insertText == t.insertText && s.description == t.description
    && s.caretOffset == t.caretOffset && s.annotation == t.annotation

/-- The type to show beside a definition: none where it is absent or not
known. -/
def declaredType? (type : Option Node) : Option String := do
  let shape ← (← type).loweredType.toOption
  if shape.isUnknown then none else some shape.text

/-- The candidate that a definition makes. A function is inserted with its
parentheses, and the caret goes between them if it takes arguments. -/
def ofDefinition (d : Definition) : Suggestion :=
  match d.kind with
  | .functionDef =>
    let caret := if d.function.any (·.takesArguments) then some (-1) else none
    ⟨d.name ++ "()", d.signature, caret, declaredType? d.type, .functionName⟩
  | .classDef => ⟨d.name, "class " ++ d.name, none, none, .className⟩
  | .variableDef => ⟨d.name, d.signature, none, declaredType? d.type, .variableName⟩
  | .parameterDef => ⟨d.name, d.signature, none, declaredType? d.type, .parameterName⟩

/-- The words that are literals, with their descriptions. -/
def literalWords : List (String × String) :=
  [("nil", "the nil value"), ("true", "boolean true"), ("false", "boolean false"),
    ("this", "the current object")]

/-- The candidates for a literal. -/
def literals : List Suggestion :=
  literalWords.map (fun (text, description) => plain text description .literal)
    ++ [⟨"(\x7b \x7d)", "array literal", some (-2), some "any[]", .snippet⟩,
      ⟨"([ ])", "mapping literal", some (-2), some "mapping", .snippet⟩]

/-- The candidates for a built-in type. -/
def basicTypes : List Suggestion := BasicType.all.map (plain ·.spelling "type" .typeName)

/-- The candidates for a modifier. -/
def modifiers : List Suggestion := Modifier.all.map (plain ·.spelling "modifier" .modifier)

/-- The keywords that are neither types, modifiers nor literals. -/
def plainKeywords : List Keyword :=
  Keyword.all.filter fun
    | .basicType _ => false
    | .modifier _ => false
    | word => !(literalWords.map Prod.fst).contains word.spelling

/-- The candidates for a keyword. -/
def keywords : List Suggestion := plainKeywords.map (plain ·.spelling "keyword" .keyword)

end Suggestion

/-- How completion is to work. -/
structure CompletionOptions where
  /-- Whether the case of letters counts. -/
  caseSensitive : Bool
  /-- How many suggestions are given at most. -/
  maxItems : Option Nat
deriving DecidableEq, Repr

/-- The suggestions at a cursor. -/
structure CompletionResult where
  /-- What belongs at the cursor. -/
  suggestionType : SuggestionType
  /-- The word left of the cursor, with which suggestions start. -/
  word : String
  /-- The suggestions. -/
  suggestions : List Suggestion
deriving DecidableEq, Repr

/-- The families of candidates that a suggestion type asks for. -/
structure Families where
  /-- Literals. -/
  literals : Bool
  /-- Variables, parameters and functions. -/
  names : Bool
  /-- Built-in types and classes. -/
  types : Bool
  /-- Modifiers. -/
  modifiers : Bool
  /-- The other keywords. -/
  keywords : Bool

/-- The families that a suggestion type asks for. -/
def SuggestionType.families : SuggestionType → Families
  | literal => ⟨true, false, false, false, false⟩
  | identifier => ⟨false, true, false, false, false⟩
  | literalOrIdentifier => ⟨true, true, false, false, false⟩
  | type => ⟨false, false, true, false, false⟩
  | modifier => ⟨false, false, false, true, false⟩
  | typeOrModifier => ⟨false, false, true, true, false⟩
  | any => ⟨true, true, true, true, true⟩

namespace Completion

/-- The word characters immediately left of an offset. -/
def wordBefore (source : List Char) (offset : Nat) : List Char :=
  match Text.takeBytes offset source with
  | some head => (head.reverse.takeWhile isWordChar).reverse
  | none => []

/-- A family that is asked for. -/
def family (wanted : Bool) (candidates : List Suggestion) : List Suggestion :=
  if wanted then candidates else []

/-- All candidates of the families, given the definitions that can be seen. -/
def candidates (f : Families) (visible : List Definition) : List Suggestion :=
  let classes := visible.filter (·.kind == .classDef)
  let names := visible.filter (·.kind != .classDef)
  family f.literals Suggestion.literals
    ++ family f.names (names.map .ofDefinition)
    ++ family f.types (Suggestion.basicTypes ++ classes.map .ofDefinition)
    ++ family f.modifiers Suggestion.modifiers
    ++ family f.keywords Suggestion.keywords

/-- Whether a candidate starts with a word. -/
def startsWith (caseSensitive : Bool) (word : List Char) (s : Suggestion) : Bool :=
  let text := s.insertText.toList
  if caseSensitive then word.isPrefixOf text
  else (Text.lowerCase word).isPrefixOf (Text.lowerCase text)

/-- Keeps the first of candidates that look the same. `seen` are the candidates
that came before. -/
def distinct (seen : List Suggestion) : List Suggestion → List Suggestion
  | [] => []
  | s :: rest =>
    if seen.any (·.sameAs s) then distinct seen rest else s :: distinct (s :: seen) rest

/-- The candidates to show. -/
def select (options : CompletionOptions) (word : List Char) (candidates : List Suggestion) :
    List Suggestion :=
  let fitting := distinct [] (candidates.filter (startsWith options.caseSensitive word))
  match options.maxItems with
  | some max => fitting.take max
  | none => fitting

end Completion

open Completion in
/-- **The suggestions at an offset** of a text, given the texts it depends on. -/
def Analysis.complete (file : Analysis) (dependencies : List Analysis)
    (options : CompletionOptions) (offset : Nat) : CompletionResult :=
  let offset := min offset (Text.byteLength file.text)
  let suggestionType := file.tree.root.suggestionAt offset
  let word := wordBefore file.text offset
  let visible :=
    file.scopes.visibleAt offset ++ dependencies.flatMap (·.scopes.exported)
  ⟨suggestionType, String.ofList word,
    select options word (candidates suggestionType.families visible)⟩

end ScriptLens
