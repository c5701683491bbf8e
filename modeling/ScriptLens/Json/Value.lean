/-!
# JSON values

The data format of configuration files and of machine-readable output. The
members of an object keep their order and may repeat. A number that is an
integer is one; any other number is kept as it is written, because no consumer
here has a use for it.
-/

namespace ScriptLens

/-- A JSON value. -/
inductive JsonValue
  | null
  | bool (value : Bool)
  | integer (value : Int)
  /-- A number with a fraction or an exponent, or the negative zero. -/
  | real (spelling : String)
  | string (text : String)
  | array (items : List JsonValue)
  | object (members : List (String × JsonValue))
deriving Repr

namespace JsonValue

/-- The truth value that a value is. -/
def bool? : JsonValue → Option Bool
  | bool value => some value
  | _ => none

/-- The text that a value is. -/
def string? : JsonValue → Option String
  | string text => some text
  | _ => none

/-- The natural number of at most 64 bits that a value is. -/
def word? : JsonValue → Option Nat
  | integer (.ofNat value) => if value ≤ 0xffffffffffffffff then some value else none
  | _ => none

/-- The items that a value is a list of. -/
def array? : JsonValue → Option (List JsonValue)
  | array items => some items
  | _ => none

/-- A natural number as a value. -/
def ofNat (n : Nat) : JsonValue := integer (.ofNat n)

/-- An optional value, which is `null` where it is absent. -/
def ofOption {α : Type} (f : α → JsonValue) (o : Option α) : JsonValue :=
  (o.map f).getD null

end JsonValue

end ScriptLens
