/-!
# The inside of quoted literals

Strings, characters and symbols are written between quotes. A backslash always
takes the next character with it, so a quote ends the literal exactly if the
backslashes before it pair up. Without a closing quote the literal runs to the
end of the text.
-/

namespace ScriptLens.Quoted

/-- What stands between an opening quote and its end. -/
structure Content where
  /-- The characters that the content spells. -/
  decoded : List Char
  /-- The number of source characters, the closing quote included. -/
  length : Nat
  /-- Whether there is a closing quote. -/
  closed : Bool
deriving DecidableEq, Repr

namespace Content

/-- Puts a decoded character that takes `n` source characters in front. -/
def push (c : Char) (n : Nat) (rest : Content) : Content :=
  { rest with decoded := c :: rest.decoded, length := n + rest.length }

@[simp] theorem decoded_push (c : Char) (n : Nat) (rest : Content) :
    (rest.push c n).decoded = c :: rest.decoded := rfl

@[simp] theorem length_push (c : Char) (n : Nat) (rest : Content) :
    (rest.push c n).length = n + rest.length := rfl

@[simp] theorem closed_push (c : Char) (n : Nat) (rest : Content) :
    (rest.push c n).closed = rest.closed := rfl

end Content

/-- The value of a hexadecimal digit. -/
def hexValue? (c : Char) : Option Nat :=
  if c.isDigit then some (c.toNat - '0'.toNat)
  else if 'a' ≤ c ∧ c ≤ 'f' then some (c.toNat - 'a'.toNat + 10)
  else if 'A' ≤ c ∧ c ≤ 'F' then some (c.toNat - 'A'.toNat + 10)
  else none

/-- The character that an escape of one letter stands for; any other letter
stands for itself. -/
def escapeValue (c : Char) : Char :=
  if c = 'n' then '\n'
  else if c = 't' then '\t'
  else if c = 'r' then '\r'
  else if c = '0' then '\x00'
  else if c = 'e' then '\x1b'
  else if c = 'a' then '\x07'
  else if c = 'b' then '\x08'
  else if c = 'f' then '\x0c'
  else if c = 'v' then '\x0b'
  else c

/-- Reads the escape whose letter is `letter` and which `following` comes after:
the character it stands for and the number of characters it takes of
`following`. Only `x` takes any, namely up to two hexadecimal digits. -/
def readEscape (letter : Char) (following : List Char) : Char × Nat :=
  if letter = 'x' then
    match following.head?.bind hexValue?, following.tail.head?.bind hexValue? with
    | some high, some low => (Char.ofNat (16 * high + low), 2)
    | some digit, none => (Char.ofNat digit, 1)
    | none, _ => ('x', 0)
  else (escapeValue letter, 0)

/-- **Reads on to the closing quote**, which is the first one that no backslash
takes. -/
def read (quote : Char) (cs : List Char) : Content :=
  match cs with
  | [] => ⟨[], 0, false⟩
  | c :: cs =>
    if c = quote then ⟨[], 1, true⟩
    else if c = '\\' then
      match cs with
      | [] => ⟨[], 1, false⟩
      | letter :: cs =>
        let (value, taken) := readEscape letter cs
        (read quote (cs.drop taken)).push value (2 + taken)
    else (read quote cs).push c 1
termination_by cs.length
decreasing_by all_goals (simp only [List.length_cons, List.length_drop]; omega)

end ScriptLens.Quoted
