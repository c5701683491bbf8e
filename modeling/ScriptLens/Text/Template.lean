/-!
# Message templates

A message template marks the places of its arguments by numbers in braces.
`Template.fill` replaces each mark by its argument in one pass from left to
right: what is inserted is never read again, and a mark without an argument
stays as it is written.
-/

namespace ScriptLens.Template

/-- The opening brace of a mark. -/
def openMark : Char := '\x7b'

/-- The closing brace of a mark. -/
def closeMark : Char := '\x7d'

/-- The number that a run of decimal digits spells. -/
def number (digits : List Char) : Nat :=
  digits.foldl (fun n d => 10 * n + (d.toNat - '0'.toNat)) 0

/-- The argument that a closed mark with these digits stands for. -/
def argument? (args : List (List Char)) (digits : List Char) : Option (List Char) :=
  if digits.isEmpty then none else args[number digits]?

/-- Fills the rest of a template. `pending` holds the digits read since an
opening brace that may still become a mark, or nothing where no brace is
open. -/
def fillFrom (args : List (List Char)) (pending : Option (List Char)) :
    List Char → List Char
  | [] => (pending.map (openMark :: ·)).getD []
  | c :: cs =>
    match pending with
    | none => if c = openMark then fillFrom args (some []) cs else c :: fillFrom args none cs
    | some digits =>
      if c.isDigit then
        fillFrom args (some (digits ++ [c])) cs
      else if c = openMark then
        openMark :: digits ++ fillFrom args (some []) cs
      else
        match (if c = closeMark then argument? args digits else none) with
        | some arg => arg ++ fillFrom args none cs
        | none => openMark :: digits ++ c :: fillFrom args none cs

/-- **Fills a template** with its arguments, the first of which is number
zero. -/
def fill (template : List Char) (args : List (List Char)) : List Char :=
  fillFrom args none template

/-- Fills a template given as a string. -/
def format (template : String) (args : List String) : String :=
  String.ofList (fill template.toList (args.map String.toList))

end ScriptLens.Template
