import Mathlib
import ScriptLens.Service.Completion

/-!
# Suggestions when case is ignored

Ignoring case compares the lower-case form of the word left of a cursor with that of a
candidate. Each is formed on its own, and the form of a text does not begin with the form of
what the text begins with: a capital sigma that ends the word has its final form there, and
has the other one in a candidate in which letters follow. This is the only way in which the
two can differ (`Text.lowerCase_prefix_iff`). A candidate that begins with the word is thus
lost by ignoring case exactly if the word ends in a capital sigma and the candidate has a
letter with case behind it (`Analysis.complete_ignoringCase_iff`).

Candidates that look the same are inserted as the same text, so they pass the comparison
together. It makes no difference whether the first of them is kept before or after it
(`Completion.distinct_filter`).
-/

namespace ScriptLens

namespace Text

/-! ## The lower-case form of a part of a text -/

/-- The lower-case form of a character between two texts. -/
def lowerAt (before : List Char) (c : Char) (after : List Char) : List Char :=
  if c = 'Σ' then
    if meetsCased before && !meetsCased after then ['ς'] else ['σ']
  else lowerChar c

/-- The lower-case form of a part of a text, between what comes before it, nearest first, and
what comes after it. -/
def lowerBetween (before : List Char) (part after : List Char) : List Char :=
  match part with
  | [] => []
  | c :: cs => lowerAt before c (cs ++ after) ++ lowerBetween (c :: before) cs after

theorem lowerFrom_append (before part after : List Char) :
    lowerFrom before (part ++ after)
      = lowerBetween before part after ++ lowerFrom (part.reverse ++ before) after := by
  induction part generalizing before with
  | nil => rfl
  | cons c cs ih =>
    rw [List.cons_append, lowerFrom, ih, lowerBetween, List.reverse_cons, List.append_assoc,
      List.append_assoc]
    rfl

theorem lowerCase_eq (part : List Char) : lowerCase part = lowerBetween [] part [] := by
  have happend := lowerFrom_append [] part []
  rw [List.append_nil, lowerFrom, List.append_nil] at happend
  exact happend

theorem length_lowerAt (before after after' : List Char) (c : Char) :
    (lowerAt before c after).length = (lowerAt before c after').length := by
  unfold lowerAt
  split
  · split <;> split <;> rfl
  · rfl

/-- What comes after a part does not change the length of its lower-case form. -/
theorem length_lowerBetween (before part after after' : List Char) :
    (lowerBetween before part after).length = (lowerBetween before part after').length := by
  induction part generalizing before with
  | nil => rfl
  | cons c cs ih =>
    rw [lowerBetween, lowerBetween, List.length_append, List.length_append, ih,
      length_lowerAt before (cs ++ after) (cs ++ after')]

/-! ## The final sigma -/

/-- **A text ends in a final sigma** where it stands alone: behind a letter with case there is
a capital sigma, and what comes after it does not count. `before` is what comes before the
text, nearest first. -/
def EndsInSigma (before : List Char) (part : List Char) : Prop :=
  ∃ front ignored, part = front ++ 'Σ' :: ignored
    ∧ meetsCased (front.reverse ++ before) = true ∧ ∀ c ∈ ignored, isCaseIgnorable c = true

theorem not_endsInSigma_nil (before : List Char) : ¬ EndsInSigma before [] := by
  rintro ⟨front, ignored, heq, -, -⟩
  exact absurd heq.symm (by simp)

theorem endsInSigma_cons_iff {before : List Char} {c : Char} {cs : List Char} :
    EndsInSigma before (c :: cs) ↔
      (c = 'Σ' ∧ meetsCased before = true ∧ ∀ d ∈ cs, isCaseIgnorable d = true)
        ∨ EndsInSigma (c :: before) cs := by
  constructor
  · rintro ⟨front, ignored, heq, hcased, hignored⟩
    cases front with
    | nil =>
      obtain ⟨rfl, rfl⟩ := List.cons.inj heq
      exact .inl ⟨rfl, hcased, hignored⟩
    | cons d front =>
      obtain ⟨rfl, rfl⟩ := List.cons.inj heq
      rw [List.reverse_cons, List.append_assoc] at hcased
      exact .inr ⟨front, ignored, rfl, hcased, hignored⟩
  · rintro (⟨rfl, hcased, hignored⟩ | ⟨front, ignored, rfl, hcased, hignored⟩)
    · exact ⟨[], cs, rfl, hcased, hignored⟩
    · refine ⟨c :: front, ignored, rfl, ?_, hignored⟩
      rw [List.reverse_cons, List.append_assoc]
      exact hcased

/-- Where all that comes first is passed over, what comes behind it decides. -/
theorem meetsCased_append_of_forall {cs : List Char}
    (h : ∀ c ∈ cs, isCaseIgnorable c = true) (after : List Char) :
    meetsCased (cs ++ after) = meetsCased after := by
  rw [meetsCased, List.dropWhile_append_of_pos h, meetsCased]

/-- Otherwise it does not matter. -/
theorem meetsCased_append_of_not_forall {cs : List Char}
    (h : ¬ ∀ c ∈ cs, isCaseIgnorable c = true) (after : List Char) :
    meetsCased (cs ++ after) = meetsCased cs := by
  have hne : cs.dropWhile isCaseIgnorable ≠ [] := by rwa [ne_eq, List.dropWhile_eq_nil_iff]
  rw [meetsCased, List.dropWhile_append, if_neg (by rwa [List.isEmpty_iff]),
    List.head?_append_of_ne_nil _ hne, meetsCased]

/-- **A sigma changes its form** where it is final and a letter with case comes behind what
does not count. -/
theorem lowerAt_eq_iff (before : List Char) (c : Char) (cs after : List Char) :
    lowerAt before c cs = lowerAt before c (cs ++ after) ↔
      ¬ ((c = 'Σ' ∧ meetsCased before = true ∧ ∀ d ∈ cs, isCaseIgnorable d = true)
        ∧ meetsCased after = true) := by
  by_cases hc : c = 'Σ'
  · by_cases hcs : ∀ d ∈ cs, isCaseIgnorable d = true
    · have halone : meetsCased cs = false := by
        rw [← List.append_nil cs, meetsCased_append_of_forall hcs]
        rfl
      rw [lowerAt, lowerAt, meetsCased_append_of_forall hcs, halone, and_iff_left hcs]
      cases meetsCased before <;> cases meetsCased after <;> simp [hc]
    · rw [lowerAt, lowerAt, meetsCased_append_of_not_forall hcs]
      simp [hcs]
  · simp [lowerAt, hc]

theorem lowerBetween_eq_iff (before part after : List Char) :
    lowerBetween before part [] = lowerBetween before part after ↔
      ¬ (EndsInSigma before part ∧ meetsCased after = true) := by
  induction part generalizing before with
  | nil => simp [lowerBetween, not_endsInSigma_nil]
  | cons c cs ih =>
    have hlength := length_lowerAt before cs (cs ++ after) c
    have hparts : lowerAt before c cs ++ lowerBetween (c :: before) cs []
          = lowerAt before c (cs ++ after) ++ lowerBetween (c :: before) cs after
        ↔ lowerAt before c cs = lowerAt before c (cs ++ after)
          ∧ lowerBetween (c :: before) cs [] = lowerBetween (c :: before) cs after :=
      ⟨fun heq => List.append_inj heq hlength, fun ⟨hhead, htail⟩ => by rw [hhead, htail]⟩
    rw [lowerBetween, lowerBetween, List.append_nil, hparts, lowerAt_eq_iff, ih,
      endsInSigma_cons_iff, or_and_right, not_or]

/-- **The lower-case form of a text begins with that of its first part**, unless the part ends
in a final sigma and a letter with case follows it in the text. -/
theorem lowerCase_prefix_iff (part after : List Char) :
    lowerCase part <+: lowerCase (part ++ after) ↔
      ¬ (EndsInSigma [] part ∧ meetsCased after = true) := by
  rw [lowerCase_eq part, lowerCase, lowerFrom_append, ← lowerBetween_eq_iff]
  have hlength := length_lowerBetween [] part [] after
  constructor
  · intro hprefix
    have hle := List.prefix_of_prefix_length_le hprefix (List.prefix_append ..)
      (Nat.le_of_eq hlength)
    exact hle.eq_of_length hlength
  · intro heq
    rw [heq]
    exact List.prefix_append ..

end Text

/-! ## Candidates -/

namespace Completion

variable {word : List Char} {s t : Suggestion}

/-- Candidates that look the same begin with the same words. -/
theorem startsWith_congr (caseSensitive : Bool) (word : List Char) (h : s.sameAs t = true) :
    startsWith caseSensitive word s = startsWith caseSensitive word t := by
  have htext : s.insertText = t.insertText := by
    simp only [Suggestion.sameAs, Bool.and_eq_true, beq_iff_eq] at h
    exact h.1.1.1
  rw [startsWith, startsWith, htext]

/-- **The first of candidates that look the same is kept** whether the candidates are chosen
before or after, as long as the choice does not tell apart what looks the same. -/
theorem distinct_filter {p : Suggestion → Bool} (hp : ∀ s t, s.sameAs t = true → p s = p t)
    (seen candidates : List Suggestion) :
    distinct (seen.filter p) (candidates.filter p) = (distinct seen candidates).filter p := by
  induction candidates generalizing seen with
  | nil => rfl
  | cons s rest ih =>
    cases hs : p s with
    | true =>
      have hseen : (seen.filter p).any (·.sameAs s) = seen.any (·.sameAs s) := by
        rw [List.any_filter]
        refine congrArg (seen.any ·) (funext fun t => ?_)
        cases hsame : t.sameAs s with
        | false => rw [Bool.and_false]
        | true => rw [hp t s hsame, hs, Bool.and_true]
      rw [List.filter_cons_of_pos hs, distinct, distinct, hseen]
      split
      · exact ih seen
      · rw [List.filter_cons_of_pos hs, ← ih (s :: seen), List.filter_cons_of_pos hs]
    | false =>
      have hnot : ¬ p s = true := Bool.eq_false_iff.1 hs
      rw [List.filter_cons_of_neg hnot, distinct]
      split
      · exact ih seen
      · rw [List.filter_cons_of_neg hnot, ← ih (s :: seen), List.filter_cons_of_neg hnot]

/-- Without a limit, a candidate is shown if it is the first that looks like it and begins
with the word. -/
theorem mem_select_iff (caseSensitive : Bool) (word : List Char) (candidates : List Suggestion) :
    s ∈ select ⟨caseSensitive, none⟩ word candidates ↔
      s ∈ distinct [] candidates ∧ startsWith caseSensitive word s = true := by
  have hselect : select ⟨caseSensitive, none⟩ word candidates
      = distinct [] (candidates.filter (startsWith caseSensitive word)) := rfl
  rw [hselect, ← List.mem_filter,
    ← distinct_filter (fun _ _ => startsWith_congr caseSensitive word), List.filter_nil]

/-- A candidate that begins with a word also does so when case is ignored, unless the word
ends in a final sigma and the candidate goes on with a letter. -/
theorem startsWith_ignoringCase_iff (h : startsWith true word s = true) :
    startsWith false word s = true ↔ ¬ (Text.EndsInSigma [] word
      ∧ Text.meetsCased (s.insertText.toList.drop word.length) = true) := by
  obtain ⟨after, hafter⟩ := List.isPrefixOf_iff_prefix.1 h
  have hloose : startsWith false word s
      = (Text.lowerCase word).isPrefixOf (Text.lowerCase s.insertText.toList) := rfl
  rw [hloose, List.isPrefixOf_iff_prefix, ← hafter, Text.lowerCase_prefix_iff,
    List.drop_left' rfl]

end Completion

/-- **Ignoring case only adds suggestions**, but for one exception. What is suggested when case
counts is also suggested at the same offset when it does not, if and only if the word left of
the cursor does not end in a final sigma or the suggestion has no letter with case behind the
word, passing over what does not count. -/
theorem Analysis.complete_ignoringCase_iff (file : Analysis) (dependencies : List Analysis)
    (offset : Nat) :
    let strict := file.complete dependencies ⟨true, none⟩ offset
    let loose := file.complete dependencies ⟨false, none⟩ offset
    ∀ s ∈ strict.suggestions, s ∈ loose.suggestions ↔
      ¬ (Text.EndsInSigma [] strict.word.toList
        ∧ Text.meetsCased (s.insertText.toList.drop strict.word.toList.length) = true) := by
  intro strict loose s hs
  obtain ⟨hfirst, hbegins⟩ := (Completion.mem_select_iff true _ _).1 hs
  have hword : strict.word.toList
      = Completion.wordBefore file.text (min offset (Text.byteLength file.text)) :=
    String.toList_ofList
  rw [hword, ← Completion.startsWith_ignoringCase_iff hbegins]
  have hmem : s ∈ loose.suggestions ↔ _ := Completion.mem_select_iff false _ _
  rw [hmem]
  exact and_iff_right hfirst

set_option maxRecDepth 20000 in
/-- In the place of a type, the word `aΣ` asks for the class `aΣb`. -/
theorem suggestions_sigma :
    ((Analysis.ofText "names" "class aΣb{}aΣ y;".toList).complete [] ⟨true, none⟩ 15).suggestions
      = [⟨"aΣb", "class aΣb", none, none, .className⟩] := by
  cbv

/-- What is suggested for a word that ends in a sigma. -/
theorem complete_ignoringCase_iff_sigma :
    let file := Analysis.ofText "names" "class aΣb{}aΣ y;".toList
    let known : Suggestion := ⟨"aΣb", "class aΣb", none, none, .className⟩
    let strict := file.complete [] ⟨true, none⟩ 15
    known ∈ strict.suggestions
      ∧ (known ∈ (file.complete [] ⟨false, none⟩ 15).suggestions ↔
        ¬ (Text.EndsInSigma [] strict.word.toList
          ∧ Text.meetsCased (known.insertText.toList.drop strict.word.toList.length) = true)) := by
  intro file known strict
  have hknown : known ∈ strict.suggestions := suggestions_sigma ▸ List.mem_singleton_self known
  exact ⟨hknown, Analysis.complete_ignoringCase_iff file [] 15 known hknown⟩

/-- **Ignoring case loses a suggestion**: at the end of the word `aΣ` the sigma is final, and in
the class `aΣb` it is not. -/
theorem complete_ignoringCase_loses :
    let file := Analysis.ofText "names" "class aΣb{}aΣ y;".toList
    let known : Suggestion := ⟨"aΣb", "class aΣb", none, none, .className⟩
    known ∈ (file.complete [] ⟨true, none⟩ 15).suggestions
      ∧ known ∉ (file.complete [] ⟨false, none⟩ 15).suggestions := by
  intro file known
  have hlost : Completion.startsWith false
      (Completion.wordBefore "class aΣb{}aΣ y;".toList 15) known = false := by
    decide +kernel
  refine ⟨suggestions_sigma ▸ List.mem_singleton_self known, fun hmem => ?_⟩
  have hbegins := ((Completion.mem_select_iff false _ _).1 hmem).2
  exact Bool.false_ne_true (hlost.symm.trans hbegins)

end ScriptLens
