import ScriptLens.Proofs.TextLines
import ScriptLens.Text.LineMap

/-!
# Offsets and positions

A line map keeps the starts of the lines only. An offset is taken to its line by a search in
that list and to its column by a count of the characters of a slice; a position is taken back
by a slice up to the next start, where the characters that end the line are dropped again. That
both ways agree (`LineMap.offset?_position`) rests on one picture of a text: lines without a
break, each but the last followed by the one, or two, characters that end it (`Text.InLines`).

The two ways are not inverse at the offset between `\r` and `\n`. Its column is one more than
its line has characters, and a column past a line means the end of the line.
-/

namespace ScriptLens

/-- The order of places in a text, by line and then by column. -/
def Position.Before (p q : Position) : Prop :=
  p.line < q.line ∨ (p.line = q.line ∧ p.column < q.column)

namespace Text

/-- The lines of a text without the characters that end them. A text that ends with a line
break has an empty last line. -/
def lines : List Char → List (List Char)
  | [] => [[]]
  | '\r' :: '\n' :: cs => [] :: lines cs
  | c :: cs => if LineMap.isBreak c then [] :: lines cs else (lines cs).modifyHead (c :: ·)

/-- What ends a line, before the rest of the text: a line feed, a return with the line feed
that follows it, a return that no line feed follows, or the end of the text. -/
inductive LineEnd : List Char → List Char → Prop
  | feed {rest : List Char} : LineEnd ['\n'] rest
  | pair {rest : List Char} : LineEnd ['\r', '\n'] rest
  | ret {rest : List Char} (h : rest.head? ≠ some '\n') : LineEnd ['\r'] rest
  | stop : LineEnd [] []

/-- Whether an offset lies between a return and the line feed that follows it. -/
def InsideBreak (text : List Char) (offset : Nat) : Prop :=
  ∃ before after, text = before ++ '\r' :: '\n' :: after ∧ byteLength before + 1 = offset

/-- **A text in lines.** The text, whose first character stands at `offset`, has its lines
one behind the other, each at its start and each but the last with what ends it. -/
inductive InLines : Nat → List Char → List Nat → List (List Char) → Prop
  | last {offset : Nat} {line : List Char} (hline : ∀ c ∈ line, LineMap.isBreak c = false) :
    InLines offset line [offset] [line]
  | next {offset : Nat} {line mark rest : List Char} {starts : List Nat}
      {lines : List (List Char)} (hline : ∀ c ∈ line, LineMap.isBreak c = false)
      (hmark : LineEnd mark rest) (hne : mark ≠ [])
      (hrest : InLines (offset + byteLength line + byteLength mark) rest starts lines) :
    InLines offset (line ++ (mark ++ rest)) (offset :: starts) (line :: lines)

variable {text cs front line mark back part : List Char} {offset start stop l : Nat}
  {starts : List Nat} {ls : List (List Char)}

/-! ## The lines of a text and its line map -/

/-- An empty line. -/
theorem InLines.empty (hmark : LineEnd mark cs) (hne : mark ≠ [])
    (h : InLines (offset + byteLength mark) cs starts ls) :
    InLines offset (mark ++ cs) (offset :: starts) ([] :: ls) :=
  .next (List.forall_mem_nil _) hmark hne h

/-- A character that ends no line belongs to the first line behind it. -/
theorem InLines.cons {c : Char} (hc : LineMap.isBreak c = false)
    (h : InLines (offset + c.utf8Size) cs (start :: starts) ls) :
    InLines offset (c :: cs) (offset :: starts) (ls.modifyHead (c :: ·)) := by
  cases h with
  | last hline => exact .last (List.forall_mem_cons.2 ⟨hc, hline⟩)
  | @next _ line mark rest _ _ hline hmark hne hrest =>
    have hlonger : ∀ b ∈ c :: line, LineMap.isBreak b = false :=
      List.forall_mem_cons.2 ⟨hc, hline⟩
    refine .next hlonger hmark hne ?_
    rwa [byteLength_cons, ← Nat.add_assoc]

/-- **A text stands in its lines**, at the starts that its line map has. -/
theorem inLines_lines (offset : Nat) (cs : List Char) :
    InLines offset cs (offset :: LineMap.startsAfter offset cs) (lines cs) := by
  fun_induction lines cs generalizing offset with
  | case1 => exact .last (List.forall_mem_nil _)
  | case2 cs ih =>
    have hfeed : '\r'.utf8Size = 1 := rfl
    simp only [LineMap.startsAfter, List.head?_cons]
    exact .empty .pair (by nofun) (ih _)
  | case3 c cs hpair hc ih =>
    have hlone : c = '\n' ∨ (c = '\r' ∧ cs.head? ≠ some '\n') := by
      rcases Bool.or_eq_true_iff.1 hc with hfeed | hreturn
      · exact .inl (of_decide_eq_true hfeed)
      · refine .inr ⟨of_decide_eq_true hreturn, fun hhead => ?_⟩
        obtain ⟨after, rfl⟩ := List.head?_eq_some_iff.1 hhead
        exact hpair after (of_decide_eq_true hreturn) rfl
    have hone : c.utf8Size = 1 := by
      rcases hlone with rfl | ⟨rfl, -⟩ <;> rfl
    have hmark : LineEnd [c] cs := by
      rcases hlone with rfl | ⟨rfl, hhead⟩
      · exact .feed
      · exact .ret hhead
    rw [LineMap.startsAfter, if_pos hlone]
    refine .empty hmark (by nofun) ?_
    rw [byteLength_cons, hone]
    exact ih _
  | case4 c cs hpair hc ih =>
    have hother : ¬ (c = '\n' ∨ (c = '\r' ∧ cs.head? ≠ some '\n')) := by
      rintro (rfl | ⟨rfl, -⟩) <;> exact hc rfl
    rw [LineMap.startsAfter, if_neg hother]
    exact .cons (Bool.eq_false_iff.2 hc) (ih _)

namespace InLines

theorem length_eq (h : InLines offset cs starts ls) : starts.length = ls.length := by
  induction h with
  | last => rfl
  | next _ _ _ _ ih => rw [List.length_cons, List.length_cons, ih]

theorem head_starts (h : InLines offset cs starts ls) : starts[0]? = some offset := by
  cases h <;> rfl

theorem length_pos (h : InLines offset cs starts ls) : 0 < ls.length := by
  cases h <;> exact Nat.succ_pos _

/-- No line starts before the first one. -/
theorem le_of_mem (h : InLines offset cs starts ls) : ∀ start ∈ starts, offset ≤ start := by
  induction h with
  | last => simp
  | next _ _ _ _ ih =>
    refine List.forall_mem_cons.2 ⟨Nat.le_refl _, fun start hstart => ?_⟩
    have := ih start hstart
    omega

theorem le_getD (h : InLines offset cs starts ls) (l : Nat) (hle : offset ≤ stop) :
    offset ≤ starts.getD l stop := by
  rw [List.getD_eq_getElem?_getD]
  cases hl : starts[l]? with
  | none => exact hle
  | some start => exact h.le_of_mem start (List.mem_of_getElem? hl)

/-- The starts come in order. -/
theorem pairwise_starts (h : InLines offset cs starts ls) : starts.Pairwise (· < ·) := by
  induction h with
  | last => exact List.pairwise_singleton _ _
  | next _ _ hne hrest ih =>
    refine List.pairwise_cons.2 ⟨fun start hstart => ?_, ih⟩
    have hpos := byteLength_pos hne
    have := hrest.le_of_mem start hstart
    omega

end InLines

/-! ## One line of a text -/

/-- **A line of a text**, by its number: what stands in front of it, the line, what ends it,
and what stands behind that. The line map has its start, and as the next start the end of its
mark. -/
structure HasLine (text : List Char) (l : Nat) (front line mark back : List Char) : Prop where
  text_eq : text = front ++ (line ++ (mark ++ back))
  line_eq : (lines text)[l]? = some line
  clean : ∀ c ∈ line, LineMap.isBreak c = false
  lineEnd : LineEnd mark back
  start_eq : (LineMap.ofText text).starts[l]? = some (byteLength front)
  next_eq : (LineMap.ofText text).starts[l + 1]?
    = if mark = [] then none else some (byteLength (front ++ (line ++ mark)))

/-- A line of a text in lines, by its number. -/
theorem InLines.exists_line (h : InLines offset cs starts ls) (hl : ls[l]? = some line) :
    ∃ front mark back, cs = front ++ (line ++ (mark ++ back))
      ∧ (∀ c ∈ line, LineMap.isBreak c = false) ∧ LineEnd mark back
      ∧ starts[l]? = some (offset + byteLength front)
      ∧ starts[l + 1]?
        = if mark = [] then none else some (offset + byteLength (front ++ (line ++ mark))) := by
  induction h generalizing l with
  | @last offset only hline =>
    cases l with
    | zero =>
      obtain rfl : only = line := Option.some.inj hl
      exact ⟨[], [], [], by simp, hline, .stop, rfl, rfl⟩
    | succ l => cases hl
  | @next offset first mark rest starts ls hline hmark hne hrest ih =>
    cases l with
    | zero =>
      obtain rfl : first = line := Option.some.inj hl
      refine ⟨[], mark, rest, rfl, hline, hmark, rfl, ?_⟩
      rw [List.getElem?_cons_succ, hrest.head_starts, if_neg hne, List.nil_append,
        byteLength_append, Nat.add_assoc]
    | succ l =>
      obtain ⟨front, mark', back, rfl, hclean, hmark', hstart, hnext⟩ := ih hl
      refine ⟨first ++ (mark ++ front), mark', back, by simp only [List.append_assoc], hclean,
        hmark', ?_, ?_⟩
      · rw [List.getElem?_cons_succ, hstart]
        simp only [byteLength_append, Nat.add_assoc]
      · rw [List.getElem?_cons_succ, hnext]
        simp only [byteLength_append, Nat.add_assoc]

theorem exists_hasLine (hl : (lines text)[l]? = some line) :
    ∃ front mark back, HasLine text l front line mark back := by
  obtain ⟨front, mark, back, htext, hclean, hmark, hstart, hnext⟩ :=
    (inLines_lines 0 text).exists_line hl
  rw [Nat.zero_add] at hstart hnext
  exact ⟨front, mark, back, htext, hl, hclean, hmark, hstart, hnext⟩

namespace HasLine

/-- Only the end of the text ends a line without a mark. -/
theorem back_eq_nil (h : HasLine text l front line mark back) (hmark : mark = []) : back = [] := by
  subst hmark
  cases h.lineEnd
  rfl

/-- What stands in front of a line depends on its number only. -/
theorem front_eq {front' line' mark' back' : List Char} (h : HasLine text l front line mark back)
    (h' : HasLine text l front' line' mark' back') : front = front' :=
  (append_inj (h.text_eq.symm.trans h'.text_eq)
    (Option.some.inj (h.start_eq.symm.trans h'.start_eq))).1

/-- A line stops at its first break. -/
theorem takeWhile_eq (h : HasLine text l front line mark back) :
    (line ++ mark).takeWhile (!LineMap.isBreak ·) = line := by
  have hline : ∀ c ∈ line, (!LineMap.isBreak c) = true := fun c hc => by rw [h.clean c hc]; rfl
  have hmark : mark.takeWhile (!LineMap.isBreak ·) = [] := by
    cases h.lineEnd <;> rfl
  rw [List.takeWhile_append_of_pos hline, hmark, List.append_nil]

end HasLine

/-- Only before a line feed an offset can lie between a return and its line feed. -/
theorem not_insideBreak_of_head?_ne {before after : List Char} (htext : text = before ++ after)
    (hhead : after.head? ≠ some '\n') : ¬ InsideBreak text (byteLength before) := by
  rintro ⟨front, back, hfront, hbefore⟩
  have hlength : byteLength (front ++ ['\r']) = byteLength before := by
    rw [← hbefore, byteLength_append]
    rfl
  have hcuts : (front ++ ['\r']) ++ '\n' :: back = before ++ after := by
    rw [← htext, hfront, List.append_assoc]
    rfl
  obtain ⟨-, rfl⟩ := append_inj hcuts hlength
  exact hhead rfl

end Text

namespace LineMap

open Text

variable {text front line mark back part rest : List Char} {offset start l : Nat}

theorem lineCount_eq (text : List Char) : (ofText text).lineCount = (lines text).length :=
  (inLines_lines 0 text).length_eq

/-- A line map gives the text of a line. -/
theorem lineText_eq (h : HasLine text l front line mark back) :
    (ofText text).lineText text l = line := by
  have hstop : (ofText text).starts.getD (l + 1) (byteLength text)
      = byteLength front + byteLength (line ++ mark) := by
    rw [List.getD_eq_getElem?_getD, h.next_eq]
    split
    · next hmark =>
      rw [Option.getD_none, h.text_eq, h.back_eq_nil hmark]
      simp
    · rw [Option.getD_some, byteLength_append]
  have hslice := slice_append front (line ++ mark) back
  rw [List.append_assoc line, ← h.text_eq] at hslice
  rw [lineText, h.start_eq]
  simp only [hstop, hslice, h.takeWhile_eq]

/-- A position on a line goes to the place behind as many characters of the line, or to the
end of the line. -/
theorem offset?_eq (h : HasLine text l front line mark back) (column : Nat) :
    (ofText text).offset? text ⟨l, column⟩
      = some (byteLength front + byteLength (line.take column)) := by
  rw [offset?, h.start_eq, lineText_eq h]
  rfl

/-! ## The line of an offset -/

/-- Behind the last entry up to a bound that a search finds in a list there is none. -/
theorem exists_last_le {x bound : Nat} (xs : List Nat) (hx : x ≤ bound) :
    ∃ a, (x :: xs)[(xs.takeWhile (· ≤ bound)).length]? = some a ∧ a ≤ bound
      ∧ ∀ b, xs[(xs.takeWhile (· ≤ bound)).length]? = some b → bound < b := by
  induction xs generalizing x with
  | nil => exact ⟨x, rfl, hx, nofun⟩
  | cons y ys ih =>
    by_cases hy : y ≤ bound
    · obtain ⟨a, ha, hle, hnext⟩ := ih hy
      rw [List.takeWhile_cons_of_pos (by simpa using hy), List.length_cons]
      exact ⟨a, ha, hle, hnext⟩
    · rw [List.takeWhile_cons_of_neg (by simpa using hy)]
      refine ⟨x, rfl, hx, fun b hb => ?_⟩
      obtain rfl : y = b := Option.some.inj hb
      exact Nat.lt_of_not_le hy

/-- The search for the line of an offset stops at a start at or before it, with no such start
behind. -/
theorem exists_lineOf (text : List Char) (offset : Nat) :
    ∃ start, (ofText text).starts[(ofText text).lineOf offset]? = some start ∧ start ≤ offset
      ∧ ∀ next, (ofText text).starts[(ofText text).lineOf offset + 1]? = some next
        → offset < next := by
  have hline : (ofText text).lineOf offset
      = ((startsAfter 0 text).takeWhile (· ≤ offset)).length := by
    rw [lineOf, starts_ofText, List.takeWhile_cons_of_pos (by simp), List.length_cons,
      Nat.add_sub_cancel]
  rw [hline]
  exact exists_last_le (startsAfter 0 text) (Nat.zero_le offset)

theorem starts_mono {i j a b : Nat} (hi : (ofText text).starts[i]? = some a)
    (hj : (ofText text).starts[j]? = some b) (hij : i ≤ j) : a ≤ b := by
  rcases Nat.eq_or_lt_of_le hij with rfl | hlt
  · rw [hi] at hj
    exact Nat.le_of_eq (Option.some.inj hj)
  · obtain ⟨hilt, rfl⟩ := List.getElem?_eq_some_iff.1 hi
    obtain ⟨hjlt, rfl⟩ := List.getElem?_eq_some_iff.1 hj
    have hsorted := (inLines_lines 0 text).pairwise_starts
    exact Nat.le_of_lt (List.pairwise_iff_getElem.1 hsorted i j hilt hjlt hlt)

/-- A line that starts at or before an offset does not come behind a line whose next one
starts behind the offset. -/
theorem le_of_start_le {m : Nat} (hstart : (ofText text).starts[l]? = some start)
    (hle : start ≤ offset)
    (hnext : ∀ next, (ofText text).starts[m + 1]? = some next → offset < next) : l ≤ m := by
  by_contra hlt
  have hl := (List.getElem?_eq_some_iff.1 hstart).1
  have hm : (ofText text).starts[m + 1]? = some (ofText text).starts[m + 1] :=
    List.getElem?_eq_getElem (by omega)
  have h₁ := hnext _ hm
  have h₂ := starts_mono hm hstart (by omega)
  omega

/-- **The line of an offset** is the one that starts at or before it and whose next line does
not. -/
theorem lineOf_eq (hstart : (ofText text).starts[l]? = some start) (hle : start ≤ offset)
    (hnext : ∀ next, (ofText text).starts[l + 1]? = some next → offset < next) :
    (ofText text).lineOf offset = l := by
  obtain ⟨first, hfirst, hbefore, hbehind⟩ := exists_lineOf text offset
  exact Nat.le_antisymm (le_of_start_le hfirst hbefore hnext)
    (le_of_start_le hstart hle hbehind)

theorem lineOf_mono {stop : Nat} (hle : offset ≤ stop) :
    (ofText text).lineOf offset ≤ (ofText text).lineOf stop := by
  obtain ⟨first, hfirst, hbefore, -⟩ := exists_lineOf text offset
  obtain ⟨-, -, -, hbehind⟩ := exists_lineOf text stop
  exact le_of_start_le hfirst (Nat.le_trans hbefore hle) hbehind

/-! ## Places on a line -/

/-- **The position of a place on a line**, or in the middle of what ends it, has the number of
characters of the line before it for its column. -/
theorem position_eq (h : HasLine text l front line mark back) (hsplit : line ++ mark = part ++ rest)
    (hrest : rest = [] → mark = []) :
    (ofText text).position text (byteLength front + byteLength part) = ⟨l, part.length⟩ := by
  have htext : text = front ++ (part ++ (rest ++ back)) := by
    rw [h.text_eq, ← List.append_assoc line, hsplit, List.append_assoc]
  have hline : (ofText text).lineOf (byteLength front + byteLength part) = l := by
    refine lineOf_eq h.start_eq (Nat.le_add_right _ _) fun next hnext => ?_
    rw [h.next_eq] at hnext
    split at hnext
    · cases hnext
    · next hmark =>
      obtain rfl := Option.some.inj hnext
      have hpos := byteLength_pos fun hnil => hmark (hrest hnil)
      rw [hsplit, byteLength_append, byteLength_append]
      omega
  have hstart : (ofText text).starts.getD l 0 = byteLength front := by
    rw [List.getD_eq_getElem?_getD, h.start_eq]
    rfl
  have hstop : min (byteLength front + byteLength part) (byteLength text)
      = byteLength front + byteLength part := by
    rw [htext]
    simp only [byteLength_append]
    omega
  rw [position]
  simp only [hline, hstart, hstop]
  rw [Nat.min_eq_left (Nat.le_add_right _ _), htext, slice_append]

/-- Every boundary of a text is a place on one of its lines, or in the middle of what ends
it. -/
theorem exists_place (h : IsBoundary text offset) :
    ∃ l front line mark back part rest, HasLine text l front line mark back
      ∧ line ++ mark = part ++ rest ∧ (rest = [] → mark = [])
      ∧ byteLength front + byteLength part = offset := by
  obtain ⟨before, after, htext, rfl⟩ := h
  obtain ⟨start, hstart, hle, hbehind⟩ := exists_lineOf text (byteLength before)
  generalize (ofText text).lineOf (byteLength before) = l at hstart hbehind
  have hl : l < (lines text).length :=
    (inLines_lines 0 text).length_eq ▸ (List.getElem?_eq_some_iff.1 hstart).1
  obtain ⟨front, mark, back, hline⟩ := exists_hasLine (List.getElem?_eq_getElem hl)
  generalize (lines text)[l] = line at hline
  obtain rfl := Option.some.inj (hstart.symm.trans hline.start_eq)
  obtain ⟨part, rfl, hpart⟩ := exists_middle (hline.text_eq.symm.trans htext) hle
  by_cases hmark : mark = []
  · rw [hmark, hline.back_eq_nil hmark, List.append_nil] at hpart
    exact ⟨l, front, line, mark, back, part, after, hline, hmark ▸ hpart, fun _ => hmark,
      (byteLength_append _ _).symm⟩
  · have hlt := hbehind _ (by rw [hline.next_eq, if_neg hmark])
    rw [byteLength_append, byteLength_append front] at hlt
    rw [← List.append_assoc] at hpart
    obtain ⟨rest, hsplit, -⟩ := exists_middle hpart.symm (by omega)
    refine ⟨l, front, line, mark, back, part, rest, hline, hsplit, fun hrest => ?_,
      (byteLength_append _ _).symm⟩
    rw [hsplit, hrest, List.append_nil] at hlt
    omega

/-- A place behind a line, in the middle of what ends it, is the one between a return and its
line feed. -/
theorem insideBreak_of_split {past : List Char} (h : HasLine text l front line mark back)
    (hmark : mark = past ++ rest) (hpast : past ≠ []) (hrest : rest ≠ []) :
    InsideBreak text (byteLength front + byteLength (line ++ past)) := by
  obtain ⟨c, cs, rfl⟩ := List.exists_cons_of_ne_nil hpast
  obtain ⟨d, ds, rfl⟩ := List.exists_cons_of_ne_nil hrest
  have hpair : mark = ['\r', '\n'] := by
    cases h.lineEnd with
    | pair => rfl
    | feed | ret | stop => simp at hmark
  obtain ⟨rfl, hcs⟩ : c = '\r' ∧ ['\n'] = cs ++ d :: ds := by
    rw [hpair] at hmark
    simpa [eq_comm] using hmark
  obtain rfl : cs = [] := by
    cases cs with
    | nil => rfl
    | cons => simp at hcs
  refine ⟨front ++ line, back, ?_, ?_⟩
  · rw [h.text_eq, hpair, List.append_assoc]
    rfl
  · rw [byteLength_append, byteLength_append, Nat.add_assoc]
    rfl

/-- A boundary that is not between a return and its line feed is a place on a line, at the
end of the line at the latest. -/
theorem exists_place_on_line (hoffset : IsBoundary text offset)
    (houtside : ¬ InsideBreak text offset) :
    ∃ l front line mark back part rest, HasLine text l front line mark back
      ∧ line = part ++ rest ∧ byteLength front + byteLength part = offset
      ∧ (ofText text).position text offset = ⟨l, part.length⟩ := by
  obtain ⟨l, front, line, mark, back, part, rest, hline, hsplit, hrest, rfl⟩ :=
    exists_place hoffset
  have hposition := position_eq hline hsplit hrest
  rcases List.append_eq_append_iff.1 hsplit with ⟨past, rfl, hmark⟩ | ⟨rest, hpart, -⟩
  · have hpast : past = [] := by
      by_contra hne
      refine houtside (insideBreak_of_split hline hmark hne fun hnil => hne ?_)
      have hmarks := hrest hnil
      rw [hmark, List.append_eq_nil_iff] at hmarks
      exact hmarks.1
    exact ⟨l, front, line, mark, back, line ++ past, [], hline, by simp [hpast], rfl, hposition⟩
  · exact ⟨l, front, line, mark, back, part, rest, hline, hpart, rfl, hposition⟩

/-- The offset of the position of an offset is that offset, unless it lies between a return and
its line feed. -/
theorem offset?_position (hoffset : IsBoundary text offset) (houtside : ¬ InsideBreak text offset) :
    (ofText text).offset? text ((ofText text).position text offset) = some offset := by
  obtain ⟨l, front, line, mark, back, part, rest, hline, rfl, rfl, hposition⟩ :=
    exists_place_on_line hoffset houtside
  rw [hposition, offset?_eq hline, List.take_left]

/-- The position of the offset of a position is on the same line, at the same column or at the
end of the line. -/
theorem position_offset? (hl : (lines text)[l]? = some line) (column : Nat) :
    ∃ offset, (ofText text).offset? text ⟨l, column⟩ = some offset
      ∧ (ofText text).position text offset = ⟨l, min column line.length⟩ := by
  obtain ⟨front, mark, back, hline⟩ := exists_hasLine hl
  refine ⟨_, offset?_eq hline column, ?_⟩
  have hsplit : line ++ mark = line.take column ++ (line.drop column ++ mark) := by
    rw [← List.append_assoc, List.take_append_drop]
  rw [position_eq hline hsplit fun hrest => (List.append_eq_nil_iff.1 hrest).2, List.length_take]

theorem offset?_eq_none (hl : (ofText text).lineCount ≤ l) (column : Nat) :
    (ofText text).offset? text ⟨l, column⟩ = none := by
  rw [offset?, List.getElem?_eq_none hl]
  rfl

/-- Behind a boundary of a text every other one has a later position. -/
theorem position_before {stop : Nat} (hoffset : IsBoundary text offset)
    (hstop : IsBoundary text stop) (hlt : offset < stop) :
    ((ofText text).position text offset).Before ((ofText text).position text stop) := by
  have hle : ((ofText text).position text offset).line ≤ ((ofText text).position text stop).line :=
    lineOf_mono (Nat.le_of_lt hlt)
  obtain ⟨l, front, line, mark, back, part, rest, hline, hsplit, hrest, rfl⟩ :=
    exists_place hoffset
  obtain ⟨m, front', line', mark', back', part', rest', hline', hsplit', hrest', rfl⟩ :=
    exists_place hstop
  rw [position_eq hline hsplit hrest, position_eq hline' hsplit' hrest'] at hle ⊢
  rcases Nat.lt_or_eq_of_le hle with hlines | hlines
  · exact .inl hlines
  · refine .inr ⟨hlines, ?_⟩
    obtain rfl : l = m := hlines
    -- the line starts at one place, so the part before the later place is the longer one
    obtain rfl := hline.front_eq hline'
    have htext : front ++ part ++ (rest ++ back) = front ++ part' ++ (rest' ++ back') := by
      rw [List.append_assoc, ← List.append_assoc part, ← hsplit, List.append_assoc,
        List.append_assoc front, ← List.append_assoc part', ← hsplit', List.append_assoc,
        ← hline.text_eq, ← hline'.text_eq]
    obtain ⟨mid, hmid, -⟩ := exists_middle htext (by simpa using Nat.le_of_lt hlt)
    rw [List.append_assoc, List.append_cancel_left_eq] at hmid
    have hne : mid ≠ [] := by
      rintro rfl
      rw [hmid, List.append_nil] at hlt
      exact Nat.lt_irrefl _ hlt
    show part.length < part'.length
    rw [hmid, List.length_append]
    exact Nat.lt_add_of_pos_right (List.length_pos_iff.2 hne)

/-- **Offsets and positions.** The offset of the position of a boundary is that boundary,
unless it lies between a return and its line feed; the position of the offset of a position is
on the same line, at the same column or at the end of the line, and there is no offset on a
line that the text does not have; later boundaries have later positions. -/
theorem offsets_and_positions (text : List Char) :
    (∀ offset, IsBoundary text offset → ¬ InsideBreak text offset →
      (ofText text).offset? text ((ofText text).position text offset) = some offset)
    ∧ (∀ l column, l < (ofText text).lineCount →
      ∃ line offset, (lines text)[l]? = some line
        ∧ (ofText text).offset? text ⟨l, column⟩ = some offset
        ∧ (ofText text).position text offset = ⟨l, min column line.length⟩)
    ∧ (∀ l column, (ofText text).lineCount ≤ l → (ofText text).offset? text ⟨l, column⟩ = none)
    ∧ ∀ offset stop, IsBoundary text offset → IsBoundary text stop → offset < stop →
      ((ofText text).position text offset).Before ((ofText text).position text stop) := by
  refine ⟨fun offset => offset?_position, fun l column hl => ?_,
    fun l column hl => offset?_eq_none hl column, fun offset stop => position_before⟩
  have hline : (lines text)[l]? = some _ := List.getElem?_eq_getElem (lineCount_eq text ▸ hl)
  obtain ⟨offset, hoffset, hposition⟩ := position_offset? hline column
  exact ⟨_, offset, hline, hoffset, hposition⟩

/-- Offsets and positions of a text with all three line breaks, around its second line. -/
theorem offsets_and_positions_three_breaks :
    let text := "é\r\nbü\rc\n".toList
    (IsBoundary text 4 ∧ ¬ InsideBreak text 4
      ∧ (ofText text).offset? text ((ofText text).position text 4) = some 4)
    ∧ (1 < (ofText text).lineCount ∧ ∃ line offset, (lines text)[1]? = some line
      ∧ (ofText text).offset? text ⟨1, 9⟩ = some offset
      ∧ (ofText text).position text offset = ⟨1, min 9 line.length⟩)
    ∧ ((ofText text).lineCount ≤ 4 ∧ (ofText text).offset? text ⟨4, 0⟩ = none)
    ∧ (IsBoundary text 7 ∧ 4 < 7
      ∧ ((ofText text).position text 4).Before ((ofText text).position text 7)) := by
  intro text
  obtain ⟨hinverse, hcolumn, hnone, hbefore⟩ := offsets_and_positions text
  have hfour : IsBoundary text 4 := ⟨"é\r\n".toList, "bü\rc\n".toList, rfl, rfl⟩
  have hsecond : text = "é\r\n".toList ++ "bü\rc\n".toList := rfl
  have houtside : ¬ InsideBreak text 4 := not_insideBreak_of_head?_ne hsecond (by decide)
  have hseven : IsBoundary text 7 := ⟨"é\r\nbü".toList, "\rc\n".toList, rfl, rfl⟩
  have hlines : (ofText text).lineCount = 4 := rfl
  exact ⟨⟨hfour, houtside, hinverse 4 hfour houtside⟩, ⟨by omega, hcolumn 1 9 (by omega)⟩,
    ⟨by omega, hnone 4 0 (by omega)⟩, hseven, by omega, hbefore 4 7 hfour hseven (by omega)⟩

end LineMap

end ScriptLens
