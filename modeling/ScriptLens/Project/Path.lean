/-!
# Paths

A path is a text whose segments are divided by slashes. The text is kept as it
was written: `a//b` and `a/./b` lead to the same place as `a/b` and are equal to
it, but are shown as they are. `Path.components` is the view in which paths are
compared.

Joining never tidies up: the joined path shows both parts, and a part that
starts at the root replaces what is before it.
-/

namespace ScriptLens

/-- A path, by the segments between its slashes. A path that starts at the root
has an empty first segment, and one that ends in a slash an empty last one. -/
structure Path where
  /-- The segments. -/
  segments : List String
deriving DecidableEq, Repr

/-- The parts of a path that matter for where it leads. Their order is the order
of paths. -/
inductive PathComponent
  /-- The root. -/
  | root
  /-- The working directory, where a path says so at its start. -/
  | here
  /-- The directory above. -/
  | parent
  /-- An entry of a directory. -/
  | entry (name : String)
deriving DecidableEq, Repr

namespace PathComponent

/-- The rank of a component among components of other forms. -/
def rank : PathComponent → Nat
  | root => 0
  | here => 1
  | parent => 2
  | entry _ => 3

/-- The order of components: by form, and entries by name. -/
def compare : PathComponent → PathComponent → Ordering
  | entry a, entry b => compareOfLessAndEq a b
  | a, b => Ord.compare a.rank b.rank

end PathComponent

namespace Path

/-- Divides characters at slashes. -/
def split : List Char → List (List Char)
  | [] => [[]]
  | c :: cs =>
    match split cs with
    | [] => [[c]]
    | segment :: rest => if c = '/' then [] :: segment :: rest else (c :: segment) :: rest

theorem split_ne_nil (cs : List Char) : split cs ≠ [] := by
  induction cs with
  | nil => simp [split]
  | cons c cs ih =>
    rw [split]
    split
    · simp
    · split <;> simp

/-- The path with a text. -/
def ofText (text : String) : Path := ⟨(split text.toList).map String.ofList⟩

/-- The text of a path. -/
def text (p : Path) : String := "/".intercalate p.segments

/-- The path without a text. -/
def empty : Path := ofText ""

/-- Whether a path starts at the root. -/
def isAbsolute (p : Path) : Bool :=
  match p.segments with
  | first :: _ :: _ => first = ""
  | _ => false

/-- Whether a segment leads nowhere else. -/
def isIdle (segment : String) : Bool := segment = "" || segment = "."

/-- The component that a segment after the first one is. -/
def component (segment : String) : PathComponent :=
  if segment = ".." then .parent else .entry segment

/-- **The components of a path.** A dot counts only at the start. -/
def components (p : Path) : List PathComponent :=
  match p.segments with
  | [] => []
  | first :: rest =>
    let start :=
      if first = "" then (if rest.isEmpty then [] else [.root])
      else if first = "." then [.here]
      else [component first]
    start ++ (rest.filter (!isIdle ·)).map component

/-- The order of lists of components. -/
def compareComponents : List PathComponent → List PathComponent → Ordering
  | [], [] => .eq
  | [], _ :: _ => .lt
  | _ :: _, [] => .gt
  | a :: as, b :: bs => (a.compare b).then (compareComponents as bs)

/-- **The order of paths**, component by component. -/
def compare (p q : Path) : Ordering := compareComponents p.components q.components

/-- Whether one path may stand before another. -/
def precedes (p q : Path) : Bool := p.compare q != .gt

/-- Whether two paths have the same components. -/
def sameAs (p q : Path) : Bool := p.components == q.components

/-- **A path continued by another one.** A path that starts at the root stands
for itself. -/
def join (p q : Path) : Path :=
  if q.isAbsolute || p.segments == [""] then q
  else if p.segments.getLast? = some "" then ⟨p.segments.dropLast ++ q.segments⟩
  else ⟨p.segments ++ q.segments⟩

/-- Leaves out the idle segments at the end of segments, except the first
segment. -/
def trimIdle : List String → List String
  | [] => []
  | first :: rest => first :: (rest.reverse.dropWhile isIdle).reverse

/-- The segments up to the one that names the last component. -/
def trimmed (p : Path) : List String := trimIdle p.segments

/-- The name at the end of a path, unless it ends in a root, a dot or a step
upwards. -/
def fileName? (p : Path) : Option String :=
  match p.components.getLast? with
  | some (.entry name) => some name
  | _ => none

/-- The path without its last component; none where there is nothing to leave
out. -/
def parent? (p : Path) : Option Path :=
  match p.components.getLast? with
  | none => none
  | some .root => none
  | some _ =>
    let rest := trimIdle p.trimmed.dropLast
    some (if rest.isEmpty then empty else if rest = [""] then ⟨["", ""]⟩ else ⟨rest⟩)

/-- Divides a name at its last dot into stem and extension. A dot at the start of
a name divides nothing. -/
def divideName (name : String) : String × Option String :=
  let reversed := name.toList.reverse
  let extension := reversed.takeWhile (· ≠ '.')
  let stem := (reversed.drop (extension.length + 1)).reverse
  if stem.isEmpty then (name, none)
  else (String.ofList stem, some (String.ofList extension.reverse))

/-- The extension of the name at the end of a path. -/
def extension? (p : Path) : Option String := p.fileName?.bind fun name => (divideName name).2

/-- The path whose last name has another extension. A path without a name at its
end stays as it is. -/
def withExtension (extension : String) (p : Path) : Path :=
  match p.fileName? with
  | none => p
  | some name => ⟨p.trimmed.dropLast ++ [(divideName name).1 ++ "." ++ extension]⟩

end Path

end ScriptLens
