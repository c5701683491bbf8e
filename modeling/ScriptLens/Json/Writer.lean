import ScriptLens.Json.Value

/-!
# Writing JSON

The layout for readers: two blanks for every level, one item or member a line,
and empty lists and objects on the line they start on.
-/

namespace ScriptLens.JsonValue

/-- A control character by its code point, in four hexadecimal digits. -/
def controlEscape (c : Char) : List Char :=
  let digits := Nat.toDigits 16 c.toNat
  ['\\', 'u'] ++ List.replicate (4 - digits.length) '0' ++ digits

/-- One character of a string. -/
def writeChar (c : Char) : List Char :=
  if c = '"' then ['\\', '"']
  else if c = '\\' then ['\\', '\\']
  else if c = '\x08' then ['\\', 'b']
  else if c = '\x0c' then ['\\', 'f']
  else if c = '\n' then ['\\', 'n']
  else if c = '\r' then ['\\', 'r']
  else if c = '\t' then ['\\', 't']
  else if c.toNat < 0x20 then controlEscape c
  else [c]

/-- A string with its quotes. -/
def writeString (s : String) : String :=
  String.ofList ('"' :: s.toList.flatMap writeChar ++ ['"'])

/-- An integer. -/
def writeInteger : Int → String
  | .ofNat n => Nat.repr n
  | .negSucc n => "-" ++ Nat.repr (n + 1)

/-- The blanks in front of a line at a depth. -/
def indent (depth : Nat) : String := String.ofList (List.replicate (2 * depth) ' ')

/-- Lines between an opening and a closing mark, at a depth; both marks on one
line where there are none. -/
def enclose (opening closing : String) (depth : Nat) (lines : List String) : String :=
  if lines.isEmpty then opening ++ closing
  else
    opening ++ "\n" ++ ",\n".intercalate (lines.map (indent (depth + 1) ++ ·)) ++ "\n"
      ++ indent depth ++ closing

mutual

/-- A value whose first line is at a depth. -/
def write (depth : Nat) : JsonValue → String
  | null => "null"
  | bool value => if value then "true" else "false"
  | integer value => writeInteger value
  | real spelling => spelling
  | string text => writeString text
  | array items => enclose "[" "]" depth (writeItems (depth + 1) items)
  | object members => enclose "\x7b" "\x7d" depth (writeMembers (depth + 1) members)

/-- The items of a list. -/
def writeItems (depth : Nat) : List JsonValue → List String
  | [] => []
  | item :: items => write depth item :: writeItems depth items

/-- The members of an object. -/
def writeMembers (depth : Nat) : List (String × JsonValue) → List String
  | [] => []
  | (key, value) :: members =>
    (writeString key ++ ": " ++ write depth value) :: writeMembers depth members

end

/-- **A value in the layout for readers.** -/
def pretty (value : JsonValue) : String := value.write 0

end ScriptLens.JsonValue
