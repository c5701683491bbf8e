/-!
# Integer words

A word is an integer if it starts with a decimal digit and reads as a decimal,
hexadecimal, octal or binary number. Underscores may separate the digits but
neither start nor end them.

Numbers are added up in signed machine integers of 64 bits, of which the largest
is `2 ^ 63 - 1`. Each product and each sum is checked: a word is no integer if one
of them overflows on the way.
-/

namespace ScriptLens.Integer

/-- The product of two machine integers, unless it overflows. -/
def mul? (a b : Int64) : Option Int64 :=
  if a.toBitVec.smulOverflow b.toBitVec then none else some (a * b)

/-- The sum of two machine integers, unless it overflows. -/
def add? (a b : Int64) : Option Int64 :=
  if a.toBitVec.saddOverflow b.toBitVec then none else some (a + b)

/-- The value of a digit in the ASCII alphabet of up to 36 digits. -/
def digitValue? (c : Char) : Option Nat :=
  if c.isDigit then some (c.toNat - '0'.toNat)
  else if c.isLower then some (c.toNat - 'a'.toNat + 10)
  else if c.isUpper then some (c.toNat - 'A'.toNat + 10)
  else none

/-- The value of a digit below a radix. -/
def digit? (radix : Nat) (c : Char) : Option Nat :=
  (digitValue? c).filter (· < radix)

/-- The radix of a word and the digits that follow its mark. A bare mark
without digits belongs to the decimal reading, which refuses it. -/
def split : List Char → Nat × List Char
  | '0' :: mark :: d :: ds =>
    if mark = 'x' ∨ mark = 'X' then (16, d :: ds)
    else if mark = 'o' ∨ mark = 'O' then (8, d :: ds)
    else if mark = 'b' ∨ mark = 'B' then (2, d :: ds)
    else (10, '0' :: mark :: d :: ds)
  | word => (10, word)

/-- Reads one more digit behind those that make up `value`. -/
def push? (radix : Nat) (value : Int64) (c : Char) : Option Int64 := do
  let digit ← digit? radix c
  let shifted ← mul? value (.ofNat radix)
  add? shifted (.ofNat digit)

/-- The number that digits with separators spell, read on from `value`. -/
def valueFrom (radix : Nat) (value : Int64) : List Char → Option Int64
  | [] => some value
  | c :: cs =>
    if c = '_' then valueFrom radix value cs
    else (push? radix value c).bind fun value => valueFrom radix value cs

/-- The value of a word that spells an integer. It is never negative. -/
def decode? (word : List Char) : Option Nat :=
  match word with
  | [] => none
  | c :: _ =>
    if c.isDigit then
      let (radix, digits) := split word
      if digits.head? = some '_' ∨ digits.getLast? = some '_' then none
      else (valueFrom radix 0 digits).map Int64.toNatClampNeg
    else none

end ScriptLens.Integer
