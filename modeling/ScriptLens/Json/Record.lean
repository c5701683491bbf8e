import ScriptLens.Json.Value

/-!
# Records

A record has a fixed list of fields, none of which has to be given. It is
written as an object, whose keys are field names, or as a list of the values of
the first fields in order. Everything else is refused: keys that name no field,
keys that repeat, and lists with too many values.
-/

namespace ScriptLens.JsonValue

/-- Whether keys are distinct names of fields. -/
def areFields (fields : List String) : List String → Bool
  | [] => true
  | key :: keys => fields.contains key && !keys.contains key && areFields fields keys

/-- **The values of the fields of a record**, in the order of the fields; none
for a field that is not given. A value that is no record of these fields is
refused. -/
def record? (fields : List String) : JsonValue → Option (List (Option JsonValue))
  | object members =>
    if areFields fields (members.map Prod.fst) then some (fields.map (members.lookup ·)) else none
  | array items =>
    if items.length ≤ fields.length then
      some (items.map some ++ List.replicate (fields.length - items.length) none)
    else none
  | _ => none

/-- The value of a field that is read by `read`, which may refuse it, and a
default for a field that is not given. -/
def fieldOr? {α : Type} (default : α) (read : JsonValue → Option α) :
    Option JsonValue → Option α
  | none => some default
  | some value => read value

/-- A value that may be `null`. -/
def nullable? {α : Type} (read : JsonValue → Option α) : JsonValue → Option (Option α)
  | null => some none
  | value => (read value).map some

end ScriptLens.JsonValue
