/-!
# Byte offsets into a text

Every offset in this library counts bytes of the UTF-8 form of a text, while
the text itself is read as a list of characters. This module says how many
bytes a text takes and cuts a text at byte offsets. A cut that would fall
inside a character, or past the end of the text, is no cut at all: the
functions answer `none` there, and `slice` then leaves the empty text.
-/

namespace ScriptLens.Text

/-- The number of bytes that a text takes in UTF-8. -/
def byteLength : List Char → Nat
  | [] => 0
  | c :: cs => c.utf8Size + byteLength cs

@[simp] theorem byteLength_nil : byteLength [] = 0 := rfl

@[simp] theorem byteLength_cons (c : Char) (cs : List Char) :
    byteLength (c :: cs) = c.utf8Size + byteLength cs := rfl

@[simp] theorem byteLength_append (xs ys : List Char) :
    byteLength (xs ++ ys) = byteLength xs + byteLength ys := by
  induction xs with
  | nil => simp
  | cons c cs ih => simp [ih, Nat.add_assoc]

/-- Only the empty text takes no bytes. -/
theorem byteLength_eq_zero_iff {cs : List Char} : byteLength cs = 0 ↔ cs = [] := by
  cases cs with
  | nil => simp
  | cons c cs => simp [Nat.ne_of_gt c.utf8Size_pos]

/-- What is left of a text after its first `n` bytes, where a character
starts there. -/
def dropBytes (n : Nat) (cs : List Char) : Option (List Char) :=
  match n, cs with
  | 0, cs => some cs
  | _ + 1, [] => none
  | n + 1, c :: cs => if c.utf8Size ≤ n + 1 then dropBytes (n + 1 - c.utf8Size) cs else none

/-- The first `n` bytes of a text, where a character ends there. -/
def takeBytes (n : Nat) (cs : List Char) : Option (List Char) :=
  match n, cs with
  | 0, _ => some []
  | _ + 1, [] => none
  | n + 1, c :: cs =>
    if c.utf8Size ≤ n + 1 then (takeBytes (n + 1 - c.utf8Size) cs).map (c :: ·) else none

theorem dropBytes_cons (n : Nat) (c : Char) (cs : List Char) :
    dropBytes (c.utf8Size + n) (c :: cs) = dropBytes n cs := by
  obtain ⟨m, hm⟩ := Nat.exists_eq_succ_of_ne_zero (Nat.ne_of_gt c.utf8Size_pos)
  rw [hm, Nat.succ_add, dropBytes, if_pos (by omega), hm]
  congr 1
  omega

theorem takeBytes_cons (n : Nat) (c : Char) (cs : List Char) :
    takeBytes (c.utf8Size + n) (c :: cs) = (takeBytes n cs).map (c :: ·) := by
  obtain ⟨m, hm⟩ := Nat.exists_eq_succ_of_ne_zero (Nat.ne_of_gt c.utf8Size_pos)
  rw [hm, Nat.succ_add, takeBytes, if_pos (by omega), hm]
  congr 2
  omega

/-- Without the bytes of its first part, a text is its second part. -/
theorem dropBytes_append (xs ys : List Char) :
    dropBytes (byteLength xs) (xs ++ ys) = some ys := by
  induction xs with
  | nil => rw [byteLength_nil, List.nil_append, dropBytes]
  | cons c cs ih => rw [byteLength_cons, List.cons_append, dropBytes_cons, ih]

/-- The bytes of the first part of a text are that part. -/
theorem takeBytes_append (xs ys : List Char) :
    takeBytes (byteLength xs) (xs ++ ys) = some xs := by
  induction xs with
  | nil => rw [byteLength_nil, takeBytes]
  | cons c cs ih =>
    rw [byteLength_cons, List.cons_append, takeBytes_cons, ih]
    rfl

/-- The part of a text between two byte offsets, where both are character
boundaries inside the text and come in order. -/
def slice? (start stop : Nat) (cs : List Char) : Option (List Char) :=
  if start ≤ stop then (dropBytes start cs).bind (takeBytes (stop - start)) else none

/-- A part of a text stands between the offsets at which it starts and ends. -/
theorem slice?_append (xs ys zs : List Char) :
    slice? (byteLength xs) (byteLength xs + byteLength ys) (xs ++ (ys ++ zs)) = some ys := by
  rw [slice?, if_pos (Nat.le_add_right _ _), dropBytes_append, Option.bind_some,
    Nat.add_sub_cancel_left, takeBytes_append]

/-- The part of a text between two byte offsets, or the empty text where there
is none. -/
def slice (start stop : Nat) (cs : List Char) : List Char :=
  (slice? start stop cs).getD []

end ScriptLens.Text
