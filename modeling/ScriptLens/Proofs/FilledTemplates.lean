import Mathlib.Data.Nat.Digits.Defs
import ScriptLens.Text.Template

/-!
# What a filled template consists of

A mark can fail to be one late: `\x7b12` is read as a number before the next character shows
whether a brace closes it, and whether there is an argument of that number. What was read is
then kept, and the brace that shows the failure may itself open a mark, as the second one of
`\x7b\x7b0\x7d` does. So it is not obvious that no mark is passed over and that nothing is
dropped or moved.

Said without reading, a template is cut into pieces (`Piece`): marks that have an argument, and
single characters at which no such mark starts. `Fills` is the relation between a template and
the text that its pieces stand for, one character or mark at a time. Marks do not overlap,
because only the first character of a mark is an opening brace (`mark_eq_append`), and that is
why every mark with an argument is a piece, wherever it stands.

Texts that are put together are filled apart, unless the first one ends inside of what may
become a mark (`EndsOpen`).
-/

namespace ScriptLens.Template

/-- A number between braces. -/
def mark (digits : List Char) : List Char := openMark :: digits ++ [closeMark]

/-- The number that a decimal numeral spells, its last digit being the least. -/
def decimalValue (digits : List Char) : Nat :=
  Nat.ofDigits 10 (digits.reverse.map fun d => d.toNat - '0'.toNat)

/-- **A mark with an argument**: there are digits between the braces, and they spell the place
of an argument. Such a number is less than the number of arguments, so whatever can count these
can hold it. -/
structure Fillable (args : List (List Char)) (digits arg : List Char) : Prop where
  ne_nil : digits ≠ []
  isDigit : ∀ d ∈ digits, d.isDigit = true
  argument : args[decimalValue digits]? = some arg

/-- **A text that ends inside of a mark**: with an opening brace and digits behind it, or
none. -/
def EndsOpen (text : List Char) : Prop :=
  ∃ before digits, (∀ d ∈ digits, d.isDigit = true) ∧ text = before ++ openMark :: digits

/-- A piece of a template. -/
inductive Piece
  /-- A character that stays. -/
  | kept (char : Char)
  /-- A mark with its argument. -/
  | filled (digits arg : List Char)

namespace Piece

/-- What a piece is in the template. -/
def source : Piece → List Char
  | kept c => [c]
  | filled digits _ => mark digits

/-- What a piece is in the filled template. -/
def value : Piece → List Char
  | kept c => [c]
  | filled _ arg => arg

end Piece

variable {args : List (List Char)} {digits arg cs template out : List Char} {c : Char}

/-- **Filling one mark or character at a time**: a mark with an argument is replaced as a
whole, and a character at which none starts is kept. -/
inductive Fills (args : List (List Char)) : List Piece → List Char → List Char → Prop
  | nil : Fills args [] [] []
  | filled {pieces : List Piece} {digits arg rest out : List Char} :
    Fillable args digits arg → Fills args pieces rest out →
      Fills args (.filled digits arg :: pieces) (mark digits ++ rest) (arg ++ out)
  | kept {pieces : List Piece} {c : Char} {rest out : List Char} :
    (∀ digits arg, Fillable args digits arg → ¬mark digits <+: c :: rest) →
      Fills args pieces rest out → Fills args (.kept c :: pieces) (c :: rest) (c :: out)

/-! ## Digits and marks -/

theorem isDigit_ne_openMark (h : c.isDigit = true) : c ≠ openMark := by
  rintro rfl
  revert h
  decide

theorem number_eq (digits : List Char) : number digits = decimalValue digits := by
  rw [decimalValue, Nat.ofDigits_eq_foldr, List.foldr_map, List.foldr_reverse, number]
  congr 1
  funext n d
  simp only [Nat.cast_id]
  omega

theorem argument?_eq_some_iff (h : ∀ d ∈ digits, d.isDigit = true) :
    argument? args digits = some arg ↔ Fillable args digits arg := by
  rw [argument?, number_eq]
  cases digits with
  | nil => exact iff_of_false nofun fun hfill => hfill.ne_nil rfl
  | cons d ds => exact ⟨fun harg => ⟨List.cons_ne_nil _ _, h, harg⟩, Fillable.argument⟩

/-- Of two numerals with something else behind them, neither goes on in the other. -/
theorem digits_eq {ds ds' rest rest' : List Char} {e e' : Char}
    (hds : ∀ d ∈ ds, d.isDigit = true) (hds' : ∀ d ∈ ds', d.isDigit = true)
    (he : e.isDigit = false) (he' : e'.isDigit = false) (h : ds ++ e :: rest = ds' ++ e' :: rest') :
    ds = ds' ∧ e :: rest = e' :: rest' := by
  have htake : ∀ {ds rest : List Char} {e : Char}, (∀ d ∈ ds, d.isDigit = true) →
      e.isDigit = false → (ds ++ e :: rest).takeWhile Char.isDigit = ds := by
    intro ds rest e hds he
    rw [List.takeWhile_append_of_pos hds, List.takeWhile_cons_of_neg (by simp [he]),
      List.append_nil]
  obtain rfl : ds = ds' := by rw [← htake hds he, h, htake hds' he']
  exact ⟨rfl, List.append_cancel_left h⟩

/-- Marks at the same place are the same. -/
theorem mark_inj {digits' rest rest' : List Char} (h : ∀ d ∈ digits, d.isDigit = true)
    (h' : ∀ d ∈ digits', d.isDigit = true) (heq : mark digits ++ rest = mark digits' ++ rest') :
    digits = digits' ∧ rest = rest' := by
  simp only [mark, List.cons_append, List.append_assoc, List.nil_append] at heq
  obtain ⟨hdigits, hrest⟩ := digits_eq h h' rfl rfl (List.cons.inj heq).2
  exact ⟨hdigits, (List.cons.inj hrest).2⟩

/-- **Only the first character of a mark opens one**, so what starts inside of a mark is no
mark. -/
theorem mark_eq_append {before rest : List Char} (h : ∀ d ∈ digits, d.isDigit = true)
    (heq : mark digits = before ++ openMark :: rest) : before = [] := by
  cases before with
  | nil => rfl
  | cons b before =>
    have heq' : digits ++ [closeMark] = before ++ openMark :: rest := (List.cons.inj heq).2
    have hmem : openMark ∈ digits ++ [closeMark] :=
      heq' ▸ List.mem_append_right _ List.mem_cons_self
    rcases List.mem_append.1 hmem with hmem | hmem
    · exact absurd rfl (isDigit_ne_openMark (h _ hmem))
    · exact absurd (List.mem_singleton.1 hmem) (by decide)

/-- What a mark starts with, short of the whole mark, ends inside of it. -/
theorem EndsOpen.of_mark {inside : List Char} (h : ∀ d ∈ digits, d.isDigit = true)
    (heq : mark digits = c :: cs ++ inside) (hinside : inside ≠ []) : EndsOpen (c :: cs) := by
  obtain rfl : openMark = c := (List.cons.inj heq).1
  have hrest : digits ++ [closeMark] = cs ++ inside := (List.cons.inj heq).2
  rw [← List.dropLast_concat_getLast hinside, ← List.append_assoc] at hrest
  have hdigits : digits = cs ++ inside.dropLast := (List.append_inj' hrest rfl).1
  exact ⟨[], cs, fun d hd => h d (hdigits ▸ List.mem_append_left _ hd), rfl⟩

theorem not_endsOpen_concat (hdigit : c.isDigit = false) (hopen : c ≠ openMark) :
    ¬EndsOpen (cs ++ [c]) := by
  rintro ⟨before, digits, hdigits, heq⟩
  rcases List.eq_nil_or_concat digits with rfl | ⟨ds, d, rfl⟩
  · exact hopen (List.cons.inj (List.append_inj' heq rfl).2).1
  · rw [List.concat_eq_append, ← List.cons_append, ← List.append_assoc] at heq
    obtain rfl : c = d := (List.cons.inj (List.append_inj' heq rfl).2).1
    have hd := hdigits c (by simp)
    rw [hdigit] at hd
    cases hd

/-! ## Filling -/

theorem fillFrom_digit {pending : List Char} (h : c.isDigit = true) (cs : List Char) :
    fillFrom args (some pending) (c :: cs) = fillFrom args (some (pending ++ [c])) cs := by
  rw [fillFrom, if_pos h]

/-- Digits behind an opening brace are held back. -/
theorem fillFrom_digits {pending : List Char} (h : ∀ d ∈ digits, d.isDigit = true)
    (cs : List Char) :
    fillFrom args (some pending) (digits ++ cs) = fillFrom args (some (pending ++ digits)) cs := by
  induction digits generalizing pending with
  | nil => rw [List.nil_append, List.append_nil]
  | cons d ds ih =>
    rw [List.cons_append, fillFrom_digit (h d List.mem_cons_self),
      ih (fun e he => h e (List.mem_cons_of_mem _ he)), List.append_assoc]
    rfl

/-- A mark with an argument is replaced. -/
theorem fill_mark (h : Fillable args digits arg) (rest : List Char) :
    fill (mark digits ++ rest) args = arg ++ fill rest args := by
  have hclose : ¬closeMark.isDigit = true := by decide
  rw [fill, mark, List.cons_append, List.cons_append, List.append_assoc, fillFrom, if_pos rfl,
    fillFrom_digits h.isDigit, List.nil_append, List.singleton_append, fillFrom, if_neg hclose,
    if_neg (by decide), if_pos rfl, (argument?_eq_some_iff h.isDigit).2 h]
  rfl

/-- **What is held back is kept** where no mark with an argument comes of it. -/
theorem fillFrom_kept {pending : List Char} (hpending : ∀ d ∈ pending, d.isDigit = true)
    (hnone : ∀ digits arg, Fillable args digits arg →
      ¬mark digits <+: openMark :: pending ++ cs) :
    fillFrom args (some pending) cs = openMark :: pending ++ fillFrom args none cs := by
  induction cs generalizing pending with
  | nil => rw [fillFrom, fillFrom, Option.map_some, Option.getD_some, Option.map_none,
      Option.getD_none, List.append_nil]
  | cons c cs ih =>
    by_cases hdigit : c.isDigit = true
    · rw [fillFrom_digit hdigit, ih (List.forall_mem_append.2 ⟨hpending, by simpa using hdigit⟩)]
      · rw [fillFrom, if_neg (isDigit_ne_openMark hdigit)]
        simp
      · simpa using hnone
    · conv_lhs => rw [fillFrom, if_neg hdigit]
      conv_rhs => rw [fillFrom]
      by_cases hopen : c = openMark
      · rw [if_pos hopen, if_pos hopen]
      · rw [if_neg hopen, if_neg hopen]
        have hkeeps : (if c = closeMark then argument? args pending else none) = none := by
          by_cases hclose : c = closeMark
          · rw [if_pos hclose]
            refine Option.eq_none_iff_forall_ne_some.2 fun arg harg => ?_
            refine hnone pending arg ((argument?_eq_some_iff hpending).1 harg) ⟨cs, ?_⟩
            simp [mark, hclose]
          · rw [if_neg hclose]
        rw [hkeeps]

/-- A character at which no mark with an argument starts is kept. -/
theorem fill_kept (h : ∀ digits arg, Fillable args digits arg → ¬mark digits <+: c :: cs) :
    fill (c :: cs) args = c :: fill cs args := by
  rw [fill, fillFrom]
  by_cases hopen : c = openMark
  · subst hopen
    rw [if_pos rfl, fillFrom_kept (fun _ => (absurd · List.not_mem_nil)) h]
    rfl
  · rw [if_neg hopen]
    rfl

/-- **Filling goes mark by mark and character by character.** -/
theorem exists_fills (args : List (List Char)) (template : List Char) :
    ∃ pieces, Fills args pieces template (fill template args) := by
  induction hlength : template.length using Nat.strong_induction_on generalizing template with
  | _ length ih =>
    cases template with
    | nil => exact ⟨[], .nil⟩
    | cons c cs =>
      by_cases hmark : ∃ digits arg, Fillable args digits arg ∧ mark digits <+: c :: cs
      · obtain ⟨digits, arg, hfill, rest, hrest⟩ := hmark
        rw [← hrest] at hlength ⊢
        have hlt : rest.length < length := by
          rw [← hlength, List.length_append, mark, List.length_append, List.length_cons]
          omega
        obtain ⟨pieces, hpieces⟩ := ih rest.length hlt rest rfl
        rw [fill_mark hfill]
        exact ⟨_, .filled hfill hpieces⟩
      · push Not at hmark
        obtain ⟨pieces, hpieces⟩ := ih cs.length (hlength ▸ Nat.lt_succ_self _) cs rfl
        rw [fill_kept hmark]
        exact ⟨_, .kept hmark hpieces⟩

namespace Fills

variable {pieces : List Piece}

/-- What is put together of pieces is determined by them. -/
theorem out_eq (h : Fills args pieces template out) : fill template args = out := by
  induction h with
  | nil => rfl
  | filled hfill _ ih => rw [fill_mark hfill, ih]
  | kept hnone _ ih => rw [fill_kept hnone, ih]

theorem flatMap_source (h : Fills args pieces template out) :
    pieces.flatMap Piece.source = template := by
  induction h with
  | nil => rfl
  | filled _ _ ih => rw [List.flatMap_cons, ih, Piece.source]
  | kept _ _ ih => rw [List.flatMap_cons, ih, Piece.source, List.singleton_append]

theorem flatMap_value (h : Fills args pieces template out) :
    pieces.flatMap Piece.value = out := by
  induction h with
  | nil => rfl
  | filled _ _ ih => rw [List.flatMap_cons, ih, Piece.value]
  | kept _ _ ih => rw [List.flatMap_cons, ih, Piece.value, List.singleton_append]

theorem fillable (h : Fills args pieces template out) :
    ∀ digits arg, .filled digits arg ∈ pieces → Fillable args digits arg := by
  induction h with
  | nil => nofun
  | filled hfill _ ih =>
    intro digits arg hmem
    rcases List.mem_cons.1 hmem with heq | hmem
    · obtain ⟨rfl, rfl⟩ := Piece.filled.inj heq
      exact hfill
    · exact ih digits arg hmem
  | kept _ _ ih =>
    intro digits arg hmem
    rcases List.mem_cons.1 hmem with heq | hmem
    · cases heq
    · exact ih digits arg hmem

/-- **Every mark with an argument is a piece**, wherever it stands in the template. -/
theorem exists_piece (h : Fills args pieces template out) {before after : List Char}
    (hfill : Fillable args digits arg) (heq : template = before ++ (mark digits ++ after)) :
    ∃ front back, pieces = front ++ .filled digits arg :: back
      ∧ front.flatMap Piece.source = before ∧ back.flatMap Piece.source = after := by
  induction h generalizing before with
  | nil => simp [mark] at heq
  | @filled pieces digits' arg' rest out hfill' hrest ih =>
    rcases List.append_eq_append_iff.1 heq with ⟨inside, rfl, hrest'⟩ | ⟨inside, hinside, hafter⟩
    · obtain ⟨front, back, rfl, hfront, hback⟩ := ih hrest'
      refine ⟨.filled digits' arg' :: front, back, rfl, ?_, hback⟩
      rw [List.flatMap_cons, hfront, Piece.source]
    · cases inside with
      | nil =>
        -- the two marks touch: this one ends where the other starts
        rw [List.append_nil] at hinside
        obtain ⟨front, back, rfl, hfront, hback⟩ := @ih [] hafter.symm
        refine ⟨.filled digits' arg' :: front, back, rfl, ?_, hback⟩
        rw [List.flatMap_cons, hfront, List.append_nil, Piece.source, hinside]
      | cons d inside =>
        -- the mark starts inside of this one, so it is this one
        obtain ⟨rfl, -⟩ := List.cons.inj hafter
        obtain rfl := mark_eq_append hfill'.isDigit hinside
        obtain ⟨rfl, rfl⟩ := mark_inj hfill'.isDigit hfill.isDigit heq
        obtain rfl := Option.some.inj (hfill'.argument.symm.trans hfill.argument)
        exact ⟨[], pieces, rfl, rfl, hrest.flatMap_source⟩
  | @kept pieces c rest out hnone hrest ih =>
    cases before with
    | nil => exact absurd ⟨after, heq.symm⟩ (hnone digits arg hfill)
    | cons b before =>
      obtain ⟨rfl, hrest'⟩ := List.cons.inj heq
      obtain ⟨front, back, rfl, hfront, hback⟩ := ih hrest'
      refine ⟨.kept c :: front, back, rfl, ?_, hback⟩
      rw [List.flatMap_cons, hfront, Piece.source, List.singleton_append]

/-- **Two texts are filled apart** if the first does not end inside of a mark. -/
theorem append {pieces' : List Piece} {template' out' : List Char}
    (h : Fills args pieces template out) (h' : Fills args pieces' template' out')
    (hopen : ¬EndsOpen template) :
    Fills args (pieces ++ pieces') (template ++ template') (out ++ out') := by
  induction h with
  | nil => exact h'
  | @filled pieces digits arg rest out hfill hrest ih =>
    rw [List.append_assoc, List.append_assoc]
    refine .filled hfill (ih fun ⟨before, ds, hds, heq⟩ => ?_)
    refine hopen ⟨mark digits ++ before, ds, hds, ?_⟩
    rw [heq, List.append_assoc]
  | @kept pieces c rest out hnone hrest ih =>
    refine .kept (fun digits arg hfill hprefix => ?_)
      (ih fun ⟨before, ds, hds, heq⟩ => hopen ⟨c :: before, ds, hds, ?_⟩)
    · obtain ⟨after, hafter⟩ := hprefix
      have hafter' : mark digits ++ after = c :: rest ++ template' := hafter
      rcases List.append_eq_append_iff.1 hafter' with ⟨rest', hrest', -⟩ | ⟨inside, hinside, -⟩
      · exact hnone digits arg hfill ⟨rest', hrest'.symm⟩
      · by_cases hnil : inside = []
        · rw [hnil, List.append_nil] at hinside
          exact hnone digits arg hfill ⟨[], by rw [List.append_nil, hinside]⟩
        · exact hopen (EndsOpen.of_mark hfill.isDigit hinside hnil)
    · rw [heq, List.cons_append]

end Fills

/-- **Templates are filled in one pass.** A template is a row of pieces, and the filled one is
the row of their values: marks with an argument, each of which gives its argument as it is, and
characters that stay. No mark with an argument is missing from them. And two templates are
filled apart, unless the first one ends inside of a mark. -/
theorem format_onePass (template : String) (args : List String) :
    (∃ pieces : List Piece,
      template.toList = pieces.flatMap Piece.source
        ∧ (format template args).toList = pieces.flatMap Piece.value
        ∧ (∀ digits arg, .filled digits arg ∈ pieces →
            Fillable (args.map String.toList) digits arg)
        ∧ ∀ before digits after arg, Fillable (args.map String.toList) digits arg →
            template.toList = before ++ (mark digits ++ after) →
            ∃ front back, pieces = front ++ .filled digits arg :: back
              ∧ front.flatMap Piece.source = before ∧ back.flatMap Piece.source = after)
      ∧ ∀ rest : String, ¬EndsOpen template.toList →
          format (template ++ rest) args = format template args ++ format rest args := by
  obtain ⟨pieces, hpieces⟩ := exists_fills (args.map String.toList) template.toList
  refine ⟨⟨pieces, hpieces.flatMap_source.symm, ?_, hpieces.fillable, ?_⟩, fun rest hopen => ?_⟩
  · rw [format, String.toList_ofList, hpieces.flatMap_value]
  · exact fun before digits after arg hfill heq => hpieces.exists_piece hfill heq
  · obtain ⟨pieces', hpieces'⟩ := exists_fills (args.map String.toList) rest.toList
    have happend := (hpieces.append hpieces' hopen).out_eq
    rw [format, format, format, String.toList_append, happend, String.ofList_append]

/-- A mark may be put together of two texts. -/
example : format ("\x7b" ++ "0\x7d") ["a"] ≠ format "\x7b" ["a"] ++ format "0\x7d" ["a"] := by
  decide +kernel

/-- A brace that turns out to open no mark is kept, and the mark behind it is filled. What is
inserted for it looks like a mark and is left alone, also where the template goes on. -/
theorem format_onePass_braces :
    format ("\x7b9\x7b0\x7d" ++ "\x7b1\x7d") ["\x7b1\x7d", "x"] = "\x7b9\x7b1\x7dx" := by
  have hopen : ¬EndsOpen "\x7b9\x7b0\x7d".toList :=
    @not_endsOpen_concat "\x7b9\x7b0".toList closeMark rfl (by decide)
  rw [(format_onePass _ _).2 _ hopen]
  decide +kernel

end ScriptLens.Template
