import Mathlib.Data.List.Forall2
import Mathlib.Data.Nat.Digits.Defs
import ScriptLens.Token.Integer

/-!
# What integer words say

An integer word is a mark of its radix followed by digits, between which underscores may
stand (`Integer.Numeral`), and its value is the number that the digits have in that radix.
A word is read from the left, in machine integers that are checked at each step, so what is
checked is not the number of the word but those of its beginnings. The two come to the same
because a number only grows with each digit: where the number of the word fits, so do those
of its beginnings (`Integer.valueFrom_eq_some_iff`).

Words that begin with `0` are the other delicate point, since the marks are looked for before
the decimal reading is tried. No numeral is lost that way: the second character of a decimal
one is a decimal digit or an underscore, and no mark is written with these.
-/

namespace ScriptLens.Integer

/-! ## Checked arithmetic -/

/-- **A checked product is the product of the integers**, and is there if this fits. -/
theorem mul?_eq_some_iff {a b c : Int64} : mul? a b = some c ↔ c.toInt = a.toInt * b.toInt := by
  unfold mul?
  by_cases hover : a.toBitVec.smulOverflow b.toBitVec = true
  · rw [if_pos hover]
    refine iff_of_false nofun fun h => ?_
    have hlt := c.toInt_lt
    have hle := c.le_toInt
    simp only [BitVec.smulOverflow, Int64.toInt_toBitVec, Bool.or_eq_true, decide_eq_true_eq]
      at hover
    omega
  · have hexact : (a * b).toInt = a.toInt * b.toInt := by
      rw [← Int64.toInt_toBitVec, Int64.toBitVec_mul, BitVec.toInt_mul_of_not_smulOverflow hover]
      rfl
    rw [if_neg hover, Option.some_inj, ← hexact, Int64.toInt_inj, eq_comm]

/-- **A checked sum is the sum of the integers**, and is there if this fits. -/
theorem add?_eq_some_iff {a b c : Int64} : add? a b = some c ↔ c.toInt = a.toInt + b.toInt := by
  unfold add?
  by_cases hover : a.toBitVec.saddOverflow b.toBitVec = true
  · rw [if_pos hover]
    refine iff_of_false nofun fun h => ?_
    have hlt := c.toInt_lt
    have hle := c.le_toInt
    simp only [BitVec.saddOverflow, Int64.toInt_toBitVec, Bool.or_eq_true, decide_eq_true_eq]
      at hover
    omega
  · have hexact : (a + b).toInt = a.toInt + b.toInt := by
      rw [← Int64.toInt_toBitVec, Int64.toBitVec_add, BitVec.toInt_add_of_not_saddOverflow hover]
      rfl
    rw [if_neg hover, Option.some_inj, ← hexact, Int64.toInt_inj, eq_comm]

/-! ## Digits -/

/-- The digits with small letters, in the order of their values. -/
def smallDigits : List Char :=
  ['0', '1', '2', '3', '4', '5', '6', '7', '8', '9', 'a', 'b', 'c', 'd', 'e', 'f']

/-- The digits with capital letters, in the order of their values. -/
def capitalDigits : List Char :=
  ['0', '1', '2', '3', '4', '5', '6', '7', '8', '9', 'A', 'B', 'C', 'D', 'E', 'F']

/-- **A character is a digit** in a radix of sixteen at most, and has a value there. -/
def IsDigit (radix : Nat) (c : Char) (d : Nat) : Prop :=
  d < radix ∧ (smallDigits[d]? = some c ∨ capitalDigits[d]? = some c)

variable {radix : Nat}

/-- What holds of each digit in the two lists holds of digits. -/
theorem IsDigit.of_forall {p : Char → Nat → Prop} {c : Char} {d : Nat} (h : IsDigit radix c d)
    (hall : ∀ d < radix, p (smallDigits.getD d '_') d ∧ p (capitalDigits.getD d '_') d) :
    p c d := by
  have hc := hall d h.1
  rw [List.getD_eq_getElem?_getD, List.getD_eq_getElem?_getD] at hc
  rcases h.2 with hd | hd
  · rw [hd] at hc
    exact hc.1
  · rw [hd] at hc
    exact hc.2

theorem digitValue?_of_isDigit {c : Char} {d : Nat} (h : IsDigit 16 c d) :
    digitValue? c = some d :=
  h.of_forall (p := fun c d => digitValue? c = some d) (by decide)

theorem isDigit_of_isDigit {c : Char} {d : Nat} (h : IsDigit 10 c d) : c.isDigit = true :=
  h.of_forall (p := fun c _ => c.isDigit = true) (by decide)

/-- The letters of the marks are no decimal digits. -/
theorem IsDigit.not_mark {c : Char} {d : Nat} (h : IsDigit 10 c d) :
    c ∉ ['x', 'X', 'o', 'O', 'b', 'B'] :=
  h.of_forall (p := fun c _ => c ∉ ['x', 'X', 'o', 'O', 'b', 'B']) (by decide)

/-- The code point of a digit, by its value. -/
theorem toNat_of_digitValue? {c : Char} {d : Nat} (h : digitValue? c = some d) :
    (c.toNat = 48 + d ∧ d < 10) ∨ (10 ≤ d ∧ (c.toNat = 87 + d ∨ c.toNat = 55 + d)) := by
  have hval : c.val.toNat = c.toNat := rfl
  have hlower : c.isLower = (decide (c.val ≥ 'a'.val) && decide (c.val ≤ 'z'.val)) := rfl
  have hupper : c.isUpper = decide (c.val ≥ 'A'.val ∧ c.val ≤ 'Z'.val) := rfl
  unfold digitValue? at h
  simp only [Char.isDigit, hlower, hupper, Bool.and_eq_true, decide_eq_true_eq,
    ge_iff_le, UInt32.le_iff_toNat_le, hval, Char.reduceVal, Char.reduceToNat,
    UInt32.reduceToNat] at h
  split at h
  · have := Option.some.inj h
    omega
  · split at h
    · have := Option.some.inj h
      omega
    · split at h
      · have := Option.some.inj h
        omega
      · cases h

theorem digits_of_digitValue? {c : Char} {d : Nat} (hd : d < 16) (h : digitValue? c = some d) :
    smallDigits[d]? = some c ∨ capitalDigits[d]? = some c := by
  have hall : ∀ d < 16, (d < 10 → smallDigits[d]? = some (Char.ofNat (48 + d)))
      ∧ (10 ≤ d → smallDigits[d]? = some (Char.ofNat (87 + d))
        ∧ capitalDigits[d]? = some (Char.ofNat (55 + d))) := by decide
  obtain ⟨hdecimal, hletter⟩ := hall d hd
  rw [← Char.ofNat_toNat c]
  rcases toNat_of_digitValue? h with ⟨hcode, hlt⟩ | ⟨hle, hcode | hcode⟩
  · exact .inl (hcode ▸ hdecimal hlt)
  · exact .inl (hcode ▸ (hletter hle).1)
  · exact .inr (hcode ▸ (hletter hle).2)

theorem digit?_eq_some_iff (hradix : radix ≤ 16) {c : Char} {d : Nat} :
    digit? radix c = some d ↔ IsDigit radix c d := by
  rw [digit?, Option.filter_eq_some_iff, decide_eq_true_eq, IsDigit, and_comm]
  refine and_congr_right fun hd => ?_
  have hlt : d < 16 := Nat.lt_of_lt_of_le hd hradix
  exact ⟨digits_of_digitValue? hlt, fun h => digitValue?_of_isDigit ⟨hlt, h⟩⟩

theorem IsDigit.ne_separator {c : Char} {d : Nat} (h : IsDigit radix c d) : c ≠ '_' := by
  rintro rfl
  have hsmall : '_' ∉ smallDigits := by decide
  have hcapital : '_' ∉ capitalDigits := by decide
  rcases h.2 with h | h
  · exact hsmall (List.mem_of_getElem? h)
  · exact hcapital (List.mem_of_getElem? h)

/-! ## Numbers, digit by digit -/

/-- **What digits say**: the values of the characters other than underscores. -/
def DigitsSay (radix : Nat) (cs : List Char) (ds : List Nat) : Prop :=
  List.Forall₂ (IsDigit radix) (cs.filter (· ≠ '_')) ds

theorem digitsSay_separator {cs : List Char} {ds : List Nat} :
    DigitsSay radix ('_' :: cs) ds ↔ DigitsSay radix cs ds := by
  rw [DigitsSay, List.filter_cons_of_neg (by decide), ← DigitsSay]

theorem digitsSay_cons {c : Char} {cs : List Char} {ds : List Nat} (hc : c ≠ '_') :
    DigitsSay radix (c :: cs) ds
      ↔ ∃ d rest, IsDigit radix c d ∧ DigitsSay radix cs rest ∧ ds = d :: rest := by
  rw [DigitsSay, List.filter_cons_of_pos (by simpa using hc), List.forall₂_cons_left_iff]
  rfl

/-- The number that some digits make up behind those of `n`. -/
def numberFrom (radix n : Nat) (ds : List Nat) : Nat :=
  ds.foldl (fun n d => n * radix + d) n

theorem numberFrom_zero (ds : List Nat) :
    numberFrom radix 0 ds = Nat.ofDigits radix ds.reverse := by
  rw [Nat.ofDigits_eq_foldr, List.foldr_reverse, numberFrom]
  congr 1
  funext n d
  rw [Nat.mul_comm, Nat.add_comm]
  rfl

/-- **A number only grows** with each digit. -/
theorem le_numberFrom (hpos : 0 < radix) (n : Nat) (ds : List Nat) :
    n ≤ numberFrom radix n ds := by
  induction ds generalizing n with
  | nil => exact Nat.le_refl n
  | cons d ds ih =>
    calc n ≤ n * radix := Nat.le_mul_of_pos_right n hpos
      _ ≤ n * radix + d := Nat.le_add_right _ _
      _ ≤ numberFrom radix (n * radix + d) ds := ih _

theorem toInt_ofNat {n : Nat} (h : n ≤ 16) : (Int64.ofNat n).toInt = n :=
  Int64.toInt_ofNat_of_lt (by omega)

/-- **One more digit** is read where the number that it makes up fits. -/
theorem push?_eq_some_iff (hradix : radix ≤ 16) {value next : Int64} {n : Nat}
    (hvalue : value.toInt = n) {c : Char} :
    push? radix value c = some next
      ↔ ∃ d, IsDigit radix c d ∧ next.toInt = (n * radix + d : Nat) := by
  unfold push?
  simp only [Option.bind_eq_bind, Option.bind_eq_some_iff, digit?_eq_some_iff hradix,
    mul?_eq_some_iff, add?_eq_some_iff, hvalue, toInt_ofNat hradix]
  refine exists_congr fun d => and_congr_right fun hd => ?_
  have hdigit : (Int64.ofNat d).toInt = d := toInt_ofNat (Nat.le_trans (Nat.le_of_lt hd.1) hradix)
  rw [hdigit]
  push_cast
  constructor
  · rintro ⟨shifted, hshifted, hnext⟩
    rw [hnext, hshifted]
  · intro hnext
    -- the product fits because the sum does
    have hlt : n * radix < 2 ^ 63 := by
      have hle := next.toInt_lt
      rw [hnext] at hle
      omega
    exact ⟨.ofNat (n * radix), by rw [Int64.toInt_ofNat_of_lt hlt]; push_cast; rfl,
      by rw [Int64.toInt_ofNat_of_lt hlt, hnext]; push_cast; rfl⟩

/-- **Digits are read exactly where the number that they make up fits.** By induction on the
digits: no step overflows, since the number that it gives is part of a number that fits. -/
theorem valueFrom_eq_some_iff (hpos : 0 < radix) (hradix : radix ≤ 16) {cs : List Char}
    {value result : Int64} {n : Nat} (hvalue : value.toInt = n) :
    valueFrom radix value cs = some result
      ↔ ∃ ds, DigitsSay radix cs ds ∧ result.toInt = numberFrom radix n ds := by
  induction cs generalizing value n with
  | nil =>
    rw [valueFrom, Option.some_inj, ← Int64.toInt_inj, hvalue]
    constructor
    · intro h
      exact ⟨[], .nil, h.symm⟩
    · rintro ⟨ds, hds, h⟩
      cases hds
      exact h.symm
  | cons c cs ih =>
    rw [valueFrom]
    by_cases hc : c = '_'
    · subst hc
      simp only [if_pos, ih hvalue, digitsSay_separator]
    · simp only [if_neg hc, Option.bind_eq_some_iff, push?_eq_some_iff hradix hvalue,
        digitsSay_cons hc]
      constructor
      · rintro ⟨next, ⟨d, hd, hnext⟩, hresult⟩
        obtain ⟨ds, hds, hnumber⟩ := (ih hnext).1 hresult
        exact ⟨d :: ds, ⟨d, ds, hd, hds, rfl⟩, hnumber⟩
      · rintro ⟨_, ⟨d, ds, hd, hds, rfl⟩, hnumber⟩
        have hle : n * radix + d ≤ numberFrom radix n (d :: ds) := le_numberFrom hpos _ ds
        have hlt := result.toInt_lt
        have hnext : (Int64.ofNat (n * radix + d)).toInt = (n * radix + d : Nat) :=
          Int64.toInt_ofNat_of_lt (by omega)
        exact ⟨_, ⟨d, hd, hnext⟩, (ih hnext).2 ⟨ds, hds, hnumber⟩⟩

/-! ## Numerals -/

/-- **Digits with underscores between them**, and the values of the digits. -/
inductive Numeral (radix : Nat) : List Char → List Nat → Prop
  | last {c : Char} {d : Nat} : IsDigit radix c d → Numeral radix [c] [d]
  | digit {c : Char} {d : Nat} {cs : List Char} {ds : List Nat} (separators : Nat) :
    IsDigit radix c d → Numeral radix cs ds →
      Numeral radix (c :: (List.replicate separators '_' ++ cs)) (d :: ds)

/-- The marks of the radices. Decimal numerals have none. -/
inductive Mark : List Char → Nat → Prop
  | decimal : Mark [] 10
  | hexadecimal {c : Char} : c = 'x' ∨ c = 'X' → Mark ['0', c] 16
  | octal {c : Char} : c = 'o' ∨ c = 'O' → Mark ['0', c] 8
  | binary {c : Char} : c = 'b' ∨ c = 'B' → Mark ['0', c] 2

theorem digitsSay_separators (separators : Nat) {cs : List Char} {ds : List Nat} :
    DigitsSay radix (List.replicate separators '_' ++ cs) ds ↔ DigitsSay radix cs ds := by
  induction separators with
  | zero => rfl
  | succ n ih => rw [List.replicate_succ, List.cons_append, digitsSay_separator, ih]

/-- A numeral starts and ends with a digit. -/
theorem Numeral.ends {cs : List Char} {ds : List Nat} (h : Numeral radix cs ds) :
    (∃ c d, cs.head? = some c ∧ IsDigit radix c d) ∧ cs.getLast? ≠ some '_' := by
  induction h with
  | last hd => exact ⟨⟨_, _, rfl, hd⟩, fun hlast => hd.ne_separator (Option.some.inj hlast)⟩
  | @digit c d cs ds separators hd hcs ih =>
    refine ⟨⟨c, d, rfl, hd⟩, ?_⟩
    obtain ⟨⟨e, -, hhead, -⟩, hlast⟩ := ih
    have hne : cs ≠ [] := by
      rintro rfl
      cases hhead
    rwa [← List.cons_append, List.getLast?_append_of_ne_nil _ hne]

theorem Numeral.digitsSay {cs : List Char} {ds : List Nat} (h : Numeral radix cs ds) :
    DigitsSay radix cs ds := by
  induction h with
  | last hd => exact (digitsSay_cons hd.ne_separator).2 ⟨_, [], hd, .nil, rfl⟩
  | digit separators hd _ ih =>
    exact (digitsSay_cons hd.ne_separator).2 ⟨_, _, hd, (digitsSay_separators separators).2 ih, rfl⟩

theorem exists_separators (cs : List Char) :
    ∃ separators rest, cs = List.replicate separators '_' ++ rest ∧ rest.head? ≠ some '_' := by
  induction cs with
  | nil => exact ⟨0, [], rfl, nofun⟩
  | cons c cs ih =>
    by_cases hc : c = '_'
    · obtain ⟨separators, rest, hcs, hrest⟩ := ih
      exact ⟨separators + 1, rest, by rw [hc, hcs]; rfl, hrest⟩
    · exact ⟨0, c :: cs, rfl, fun h => hc (Option.some.inj h)⟩

/-- **What neither starts nor ends with an underscore is a numeral** of its digits. By
induction on the text, one digit and the underscores behind it at a time. -/
theorem numeral_of_digitsSay {cs : List Char} {ds : List Nat} (hne : cs ≠ [])
    (hsay : DigitsSay radix cs ds) (hfirst : cs.head? ≠ some '_')
    (hlast : cs.getLast? ≠ some '_') : Numeral radix cs ds := by
  induction hlength : cs.length using Nat.strong_induction_on generalizing cs ds with
  | _ n ih =>
    subst hlength
    cases cs with
    | nil => exact absurd rfl hne
    | cons c cs =>
      have hc : c ≠ '_' := fun heq => hfirst (congrArg some heq)
      obtain ⟨d, ds, hd, hds, rfl⟩ := (digitsSay_cons hc).1 hsay
      by_cases hcs : cs = []
      · subst hcs
        cases hds
        exact .last hd
      obtain ⟨separators, rest, rfl, hhead⟩ := exists_separators cs
      have hrest : rest ≠ [] := by
        rintro rfl
        rw [List.append_nil] at hlast hcs
        rw [List.getLast?_cons_of_ne_nil hcs] at hlast
        have hpos : separators ≠ 0 := fun hzero => hcs (by rw [hzero]; rfl)
        exact hlast (by rw [List.getLast?_replicate, if_neg hpos])
      rw [digitsSay_separators] at hds
      rw [← List.cons_append, List.getLast?_append_of_ne_nil _ hrest] at hlast
      refine .digit separators hd (ih _ ?_ hrest hds hhead hlast rfl)
      rw [List.length_cons, List.length_append]
      omega

/-! ## Words -/

theorem Mark.bounds {mark : List Char} (h : Mark mark radix) : 0 < radix ∧ radix ≤ 16 := by
  cases h <;> decide

/-- A word is split into the mark of a radix and what follows it, which is not empty. -/
theorem split_spec {word : List Char} (hne : word ≠ []) :
    (∃ mark, Mark mark (split word).1 ∧ word = mark ++ (split word).2)
      ∧ (split word).2 ≠ [] := by
  unfold split
  split
  · next mark d ds =>
    split_ifs with hx ho hb
    · exact ⟨⟨_, .hexadecimal hx, rfl⟩, nofun⟩
    · exact ⟨⟨_, .octal ho, rfl⟩, nofun⟩
    · exact ⟨⟨_, .binary hb, rfl⟩, nofun⟩
    · exact ⟨⟨[], .decimal, rfl⟩, nofun⟩
  · exact ⟨⟨[], .decimal, rfl⟩, hne⟩

/-- The second character of a decimal numeral belongs to no mark. -/
theorem Numeral.second_not_mark {cs : List Char} {ds : List Nat} (h : Numeral 10 cs ds) :
    ∀ c ∈ cs.tail.head?, c ∉ ['x', 'X', 'o', 'O', 'b', 'B'] := by
  intro c hc
  cases h with
  | last hd => cases hc
  | @digit _ _ cs ds separators _ hcs =>
    cases separators with
    | zero =>
      obtain ⟨⟨e, d, hhead, hd⟩, -⟩ := hcs.ends
      obtain rfl : e = c := Option.some.inj (hhead.symm.trans hc)
      exact hd.not_mark
    | succ n =>
      obtain rfl : '_' = c := Option.some.inj hc
      decide

theorem split_of_not_mark {word : List Char}
    (h : ∀ c ∈ word.tail.head?, c ∉ ['x', 'X', 'o', 'O', 'b', 'B']) : split word = (10, word) := by
  unfold split
  split
  · next mark d ds =>
    have hmark := h mark rfl
    simp only [List.mem_cons, not_or] at hmark
    obtain ⟨hx, hX, ho, hO, hb, hB, -⟩ := hmark
    rw [if_neg (not_or.2 ⟨hx, hX⟩), if_neg (not_or.2 ⟨ho, hO⟩), if_neg (not_or.2 ⟨hb, hB⟩)]
  · rfl

/-- **A mark and a numeral of its radix are told apart again.** -/
theorem split_append {mark digits : List Char} {ds : List Nat} (hmark : Mark mark radix)
    (h : Numeral radix digits ds) : split (mark ++ digits) = (radix, digits) := by
  obtain ⟨⟨first, -, hhead, -⟩, -⟩ := h.ends
  obtain ⟨rest, rfl⟩ := List.head?_eq_some_iff.1 hhead
  cases hmark with
  | decimal => exact split_of_not_mark h.second_not_mark
  | hexadecimal hc => exact if_pos hc
  | @octal c hc =>
    have hx : ¬ (c = 'x' ∨ c = 'X') := by rcases hc with rfl | rfl <;> decide
    exact (if_neg hx).trans (if_pos hc)
  | @binary c hc =>
    have hx : ¬ (c = 'x' ∨ c = 'X') := by rcases hc with rfl | rfl <;> decide
    have ho : ¬ (c = 'o' ∨ c = 'O') := by rcases hc with rfl | rfl <;> decide
    exact (if_neg hx).trans ((if_neg ho).trans (if_pos hc))

/-- A word of a numeral starts with a decimal digit. -/
theorem isDigit_head {mark digits : List Char} {ds : List Nat} (hmark : Mark mark radix)
    (h : Numeral radix digits ds) : ∀ c ∈ (mark ++ digits).head?, c.isDigit = true := by
  intro c hc
  cases hmark with
  | decimal =>
    obtain ⟨⟨first, d, hhead, hd⟩, -⟩ := h.ends
    obtain rfl : first = c := Option.some.inj (hhead.symm.trans hc)
    exact isDigit_of_isDigit hd
  | hexadecimal => cases hc; rfl
  | octal => cases hc; rfl
  | binary => cases hc; rfl

theorem decode?_cons (c : Char) (cs : List Char) :
    decode? (c :: cs) = if c.isDigit then
        if (split (c :: cs)).2.head? = some '_' ∨ (split (c :: cs)).2.getLast? = some '_' then none
        else (valueFrom (split (c :: cs)).1 0 (split (c :: cs)).2).map Int64.toNatClampNeg
      else none := rfl

/-- Read from the start, digits give the number that they spell, if it fits. -/
theorem valueFrom_zero_eq_some_iff (hpos : 0 < radix) (hradix : radix ≤ 16) {cs : List Char}
    {value : Int64} : valueFrom radix 0 cs = some value
      ↔ ∃ ds, DigitsSay radix cs ds ∧ value.toInt = Nat.ofDigits radix ds.reverse := by
  rw [valueFrom_eq_some_iff hpos hradix (n := 0) rfl]
  simp only [numberFrom_zero]

/-- A word with a value is a marked numeral of this value. -/
theorem exists_numeral {word : List Char} {v : Nat} (h : decode? word = some v) :
    ∃ mark radix digits ds, Mark mark radix ∧ Numeral radix digits ds ∧ word = mark ++ digits
      ∧ v = Nat.ofDigits radix ds.reverse ∧ v ≤ 2 ^ 63 - 1 := by
  cases word with
  | nil => cases h
  | cons c cs =>
    obtain ⟨⟨mark, hmark, hword⟩, hne⟩ := split_spec (List.cons_ne_nil c cs)
    rw [decode?_cons] at h
    split_ifs at h with _ hends
    obtain ⟨hfirst, hlast⟩ := not_or.1 hends
    obtain ⟨value, hvalue, rfl⟩ := Option.map_eq_some_iff.1 h
    obtain ⟨ds, hds, hnumber⟩ :=
      (valueFrom_zero_eq_some_iff hmark.bounds.1 hmark.bounds.2).1 hvalue
    have hlt := value.toInt_lt
    rw [← Int64.toNat_toInt, hnumber, Int.toNat_natCast]
    exact ⟨mark, _, _, ds, hmark, numeral_of_digitsSay hne hds hfirst hlast, hword, rfl, by omega⟩

/-- A marked numeral has a value if its number fits. -/
theorem decode?_of_numeral {mark digits : List Char} {ds : List Nat} (hmark : Mark mark radix)
    (hdigits : Numeral radix digits ds) (hle : Nat.ofDigits radix ds.reverse ≤ 2 ^ 63 - 1) :
    decode? (mark ++ digits) = some (Nat.ofDigits radix ds.reverse) := by
  obtain ⟨⟨first, d, hfirst, hd⟩, hlast⟩ := hdigits.ends
  have hends : ¬ (digits.head? = some '_' ∨ digits.getLast? = some '_') := by
    rw [hfirst]
    exact not_or.2 ⟨fun heq => hd.ne_separator (Option.some.inj heq), hlast⟩
  have hvalue : valueFrom radix 0 digits = some (.ofNat (Nat.ofDigits radix ds.reverse)) :=
    (valueFrom_zero_eq_some_iff hmark.bounds.1 hmark.bounds.2).2
      ⟨ds, hdigits.digitsSay, Int64.toInt_ofNat_of_lt (by omega)⟩
  have hhead := isDigit_head hmark hdigits
  have hsplit := split_append hmark hdigits
  cases hword : mark ++ digits with
  | nil =>
    obtain rfl := (List.append_eq_nil_iff.1 hword).2
    cases hfirst
  | cons c cs =>
    rw [hword] at hhead hsplit
    rw [decode?_cons, if_pos (hhead c rfl), hsplit, if_neg hends, hvalue, Option.map_some,
      Int64.toNatClampNeg_ofNat_of_lt (by omega)]

/-- **The words that are integers** are the marked numerals whose number fits into a signed
machine integer, and their value is this number. Every number that comes up while a word is
read is that of the digits read so far: no step wraps around. -/
theorem decode?_exact (word : List Char) :
    (∀ v, decode? word = some v ↔ ∃ mark radix digits ds, Mark mark radix
        ∧ Numeral radix digits ds ∧ word = mark ++ digits
        ∧ v = Nat.ofDigits radix ds.reverse ∧ v ≤ 2 ^ 63 - 1)
      ∧ ∀ front value, front <+: (split word).2 →
        valueFrom (split word).1 0 front = some value →
          ∃ ds, DigitsSay (split word).1 front ds
            ∧ value.toInt = Nat.ofDigits (split word).1 ds.reverse := by
  refine ⟨fun v => ⟨exists_numeral, ?_⟩, fun front value _ hvalue => ?_⟩
  · rintro ⟨mark, radix, digits, ds, hmark, hdigits, rfl, rfl, hle⟩
    exact decode?_of_numeral hmark hdigits hle
  · have hbounds : 0 < (split word).1 ∧ (split word).1 ≤ 16 := by
      cases word with
      | nil => decide
      | cons c cs =>
        obtain ⟨⟨mark, hmark, -⟩, -⟩ := split_spec (List.cons_ne_nil c cs)
        exact hmark.bounds
    exact (valueFrom_zero_eq_some_iff hbounds.1 hbounds.2).1 hvalue

/-- A hexadecimal word, and its first digit with the underscore behind it. -/
theorem decode?_exact_hexadecimal :
    let word := ['0', 'x', 'F', '_', 'f']
    let front := ['F', '_']
    front <+: (split word).2 ∧ valueFrom (split word).1 0 front = some 15
      ∧ (∃ mark radix digits ds, Mark mark radix ∧ Numeral radix digits ds ∧ word = mark ++ digits
        ∧ 255 = Nat.ofDigits radix ds.reverse ∧ 255 ≤ 2 ^ 63 - 1)
      ∧ ∃ ds, DigitsSay (split word).1 front ds
        ∧ (15 : Int64).toInt = Nat.ofDigits (split word).1 ds.reverse := by
  intro word front
  have hfront : front <+: (split word).2 := ⟨['f'], rfl⟩
  have hvalue : valueFrom (split word).1 0 front = some 15 := by decide
  have hdecode : decode? word = some 255 := by decide
  have hexact := decode?_exact word
  exact ⟨hfront, hvalue, (hexact.1 255).1 hdecode, hexact.2 front 15 hfront hvalue⟩

end ScriptLens.Integer
