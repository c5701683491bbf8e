import ScriptLens.CommandLine.Output
import ScriptLens.Proofs.Lines
import ScriptLens.Proofs.Problems

/-!
# Reported lines

A report takes the number and the column of a problem from the line map, and the text of the
line from a splitting of its own, which knows line feeds only. The two count the same lines as
long as no return ends a line alone (`Report.displayLines_eq`); behind a lone return the report
shows some other line below the right number (`snippet_after_lone_return`).

What is left is the column. A problem starts where a token starts or where the text ends
(`Parser.ReportsAtTokens`), and neither is in the middle of a line break, so its column counts
characters that the line does have.

All this is about the text that a report is made of. What a painter writes for the underline
does not matter to it, so it is said for every reporter.
-/

namespace ScriptLens

namespace Parser

variable {r : Setting} {s s₁ s' : State} {d : ParseDiagnostic}

/-- **Where a run from `s` to `s'` reports**: each problem that it finds starts where an
upcoming token starts, or where the text ends. -/
def ReportsAtTokens (r : Setting) (s s' : State) : Prop :=
  ∀ d ∈ s'.diagnostics, d ∈ s.diagnostics
    ∨ d.start = r.length ∨ ∃ t ∈ s.upcoming, d.start = t.span.start

namespace ReportsAtTokens

theorem of_eq (h : s'.diagnostics = s.diagnostics) : ReportsAtTokens r s s' :=
  fun _ hd => .inl (h ▸ hd)

theorem trans (h : ReportsAtTokens r s s₁) (h' : ReportsAtTokens r s₁ s') (hl : Later s s₁) :
    ReportsAtTokens r s s' := by
  intro d hd
  obtain ⟨ts, hup, -⟩ := hl.consumed
  rcases h' d hd with hd | hend | ⟨t, ht, hstart⟩
  · exact h d hd
  · exact .inr (.inl hend)
  · exact .inr (.inr ⟨t, hup ▸ List.mem_append_right _ ht, hstart⟩)

theorem take (s : State) : ReportsAtTokens r s s.take := by
  refine of_eq ?_
  rw [State.take]
  split <;> rfl

theorem note (hnote : s'.diagnostics = s.diagnostics.push d)
    (hstart : d.start = r.length ∨ ∃ t ∈ s.upcoming, d.start = t.span.start) :
    ReportsAtTokens r s s' := by
  intro e he
  rw [hnote] at he
  rcases Array.mem_push.1 he with he | rfl
  · exact .inl he
  · exact .inr hstart

/-- What is absent is absent at the current token or at the end of the text. -/
theorem absent (s : State) (message : String) :
    ReportsAtTokens r s (s.note ⟨s.position r, 0, message⟩) := by
  refine note rfl ?_
  cases hup : s.upcoming with
  | nil => exact .inl (by rw [State.position, hup])
  | cons t ts => exact .inr ⟨t, List.mem_cons_self, by rw [State.position, hup]⟩

end ReportsAtTokens

mutual

/-- **Problems are found where tokens start.** -/
theorem Passes.reportsAtTokens {s s' : State} {ns : List Node} :
    Passes r s ns s' → ReportsAtTokens r s s'
  | .nil s => .of_eq rfl
  | .take hne hp => (ReportsAtTokens.take _).trans hp.reportsAtTokens (.take _ hne)
  | .report message hp =>
    (ReportsAtTokens.absent _ message).trans hp.reportsAtTokens (.note _ _)
  | .child hc hp => hc.reportsAtTokens.trans hp.reportsAtTokens hc.later

theorem Completes.reportsAtTokens {s s' : State} {n : Node} :
    Completes r s n s' → ReportsAtTokens r s s'
  | .missing message _ => ReportsAtTokens.absent _ message
  | @Completes.wrong _ s t ts message _ hup => by
    refine .note (d := ⟨t.span.start, t.span.length, message⟩) ?_ (.inr ⟨t, ?_, rfl⟩)
    · rw [State.take_eq hup]
      rfl
    · rw [hup]
      exact List.mem_cons_self
  | .finish _ _ _ hp _ => hp.reportsAtTokens
  | .openBlock hp _ => hp.reportsAtTokens
  | .nested _ hc => hc.reportsAtTokens

end

theorem ParsesSource.reportsAtTokens {fileName : String} {root : Node}
    (h : ParsesSource r fileName s root s') : ReportsAtTokens r s s' := by
  cases h with
  | mk hns _ => exact hns.gives.passes.reportsAtTokens

/-- A problem of a text starts where one of its tokens starts, or where the text ends. -/
theorem start_of_mem_diagnostics {fileName : String} {text : List Char}
    (hd : d ∈ (SourceTree.parse fileName text).diagnostics) :
    d.start = Text.byteLength text ∨ ∃ t ∈ tokensOf text, d.start = t.span.start := by
  obtain ⟨-, hparses⟩ := run_parses .standard .standard fileName text
  rcases hparses.reportsAtTokens d (Array.mem_toList_iff.1 hd) with hnone | hstart
  · exact absurd hnone (Array.not_mem_empty d)
  · exact hstart

end Parser

namespace Token

variable {text : List Char} {t : Token}

/-- No token starts with a line feed. -/
theorem not_insideBreak (ht : t ∈ Parser.tokensOf text) :
    ¬ Text.InsideBreak text t.span.start := by
  obtain ⟨before, char, rest, htext, hblank, rfl⟩ := exists_first ht
  have hchar : (char :: rest).head? ≠ some '\n' := by
    intro hfeed
    obtain rfl := Option.some.inj hfeed
    cases hblank
  exact Text.not_insideBreak_of_head?_ne htext hchar

end Token

/-- **A problem stands at the start of a token or at the end of the text**, so never in the
middle of a line break. -/
theorem SourceTree.place_of_mem_diagnostics {fileName : String} {text : List Char}
    {d : ParseDiagnostic} (hd : d ∈ (SourceTree.parse fileName text).diagnostics) :
    Text.IsBoundary text d.start ∧ ¬ Text.InsideBreak text d.start := by
  rcases Parser.start_of_mem_diagnostics hd with hend | ⟨t, ht, hstart⟩
  · have htext : text = text ++ [] := (List.append_nil text).symm
    rw [hend]
    exact ⟨⟨text, [], htext, rfl⟩, Text.not_insideBreak_of_head?_ne htext (by nofun)⟩
  · rw [hstart]
    exact ⟨(t.isBoundary ht).1, t.not_insideBreak ht⟩

/-! ## The lines that a report shows -/

/-- Whether a line feed follows every return that a text has before an offset. -/
def Text.ReturnsPaired (text : List Char) (stop : Nat) : Prop :=
  ∀ before after, text = before ++ '\r' :: after → byteLength before < stop →
    after.head? = some '\n'

/-- Returns are paired before every offset if each one of the text is. -/
theorem Text.ReturnsPaired.of_getElem? {text : List Char} {stop : Nat}
    (h : ∀ i < text.length, text[i]? = some '\r' → text[i + 1]? = some '\n') :
    ReturnsPaired text stop := by
  rintro before after rfl -
  have hfeed := h before.length (by simp) (by simp)
  rwa [List.getElem?_append_right (Nat.le_add_right _ 1), Nat.add_sub_cancel_left,
    List.getElem?_cons_succ, ← List.head?_eq_getElem?] at hfeed

namespace Report

open Text

variable {text cs line mark rest : List Char} {offset l : Nat} {starts : List Nat}
  {ls : List (List Char)}

/-- What is no line feed is kept for the line. -/
theorem displayLinesFrom_append (acc : List Char) (hline : '\n' ∉ line) (cs : List Char) :
    displayLinesFrom acc (line ++ cs) = displayLinesFrom (line.reverse ++ acc) cs := by
  induction line generalizing acc with
  | nil => rfl
  | cons c line ih =>
    rw [List.mem_cons, not_or] at hline
    rw [List.cons_append, displayLinesFrom, if_neg (Ne.symm hline.1), ih _ hline.2,
      List.reverse_cons, List.append_assoc]
    rfl

theorem notMem_of_clean {c : Char} (hline : ∀ c ∈ line, LineMap.isBreak c = false)
    (hc : LineMap.isBreak c = true) : c ∉ line := by
  intro hmem
  rw [hline c hmem] at hc
  cases hc

/-- The last line of a text is shown unless it is empty. -/
theorem displayLines_last (hline : ∀ c ∈ line, LineMap.isBreak c = false) :
    displayLines line = if line = [] then [] else [line] := by
  have hkeep := displayLinesFrom_append [] (notMem_of_clean hline (c := '\n') rfl) []
  rw [List.append_nil, List.append_nil] at hkeep
  rw [displayLines, hkeep, displayLinesFrom, List.isEmpty_reverse, List.reverse_reverse]
  simp only [List.isEmpty_iff]

/-- A line that ends with a line feed is shown, without the return before the line feed. -/
theorem displayLines_next (hline : ∀ c ∈ line, LineMap.isBreak c = false)
    (hmark : LineEnd mark rest) (hne : mark ≠ []) (hlone : mark ≠ ['\r']) :
    displayLines (line ++ (mark ++ rest)) = line :: displayLines rest := by
  rw [displayLines, displayLinesFrom_append [] (notMem_of_clean hline rfl), List.append_nil]
  cases hmark with
  | feed =>
    have hhead : line.reverse.head? ≠ some '\r' := by
      intro hhead
      have hmem := List.mem_reverse.1 (List.mem_of_mem_head? hhead)
      exact notMem_of_clean hline rfl hmem
    show displayLinesFrom line.reverse ('\n' :: rest) = line :: displayLines rest
    rw [displayLinesFrom, if_pos rfl, if_neg hhead, List.reverse_reverse, displayLines]
  | pair =>
    show displayLinesFrom line.reverse ('\r' :: '\n' :: rest) = line :: displayLines rest
    rw [displayLinesFrom, if_neg (by decide), displayLinesFrom, if_pos rfl, List.head?_cons,
      if_pos rfl, List.tail_cons, List.reverse_reverse, displayLines]
  | ret => exact absurd rfl hlone
  | stop => exact absurd rfl hne

/-- **Without a lone return, a report shows the lines of the text**, but for an empty line at
the end. -/
theorem displayLines_of_inLines {stop : Nat} (h : InLines offset cs starts ls)
    (hl : ls[l]? = some line) (hstop : starts.getD (l + 1) (offset + byteLength cs) = stop)
    (hpaired : ∀ before after, cs = before ++ '\r' :: after →
      offset + byteLength before < stop → after.head? = some '\n') :
    (displayLines cs)[l]? = if line = [] ∧ l + 1 = ls.length then none else some line := by
  induction h generalizing l with
  | @last offset only hline =>
    cases l with
    | zero =>
      obtain rfl : only = line := Option.some.inj hl
      rw [displayLines_last hline]
      by_cases hempty : only = []
      · simp [hempty]
      · simp [hempty]
    | succ l => cases hl
  | @next offset first mark rest starts ls hline hmark hne hrest ih =>
    have hlength : offset + byteLength (first ++ (mark ++ rest))
        = offset + byteLength first + byteLength mark + byteLength rest := by
      simp only [byteLength_append, Nat.add_assoc]
    rw [List.getD_cons_succ, hlength] at hstop
    have hlone : mark ≠ ['\r'] := by
      rintro rfl
      cases hmark with
      | ret hhead =>
        refine hhead (hpaired first rest rfl ?_)
        have hle := hrest.le_getD l (Nat.le_add_right _ (byteLength rest))
        have hone : byteLength ['\r'] = 1 := rfl
        omega
    rw [displayLines_next hline hmark hne hlone]
    cases l with
    | zero =>
      obtain rfl : first = line := Option.some.inj hl
      have hlast : ¬ (first = [] ∧ 0 + 1 = (first :: ls).length) := by
        rintro ⟨-, hlast⟩
        rw [List.length_cons] at hlast
        have := hrest.length_pos
        omega
      rw [List.getElem?_cons_zero, if_neg hlast]
    | succ l =>
      rw [List.getElem?_cons_succ, List.length_cons, ih hl hstop]
      · simp only [Nat.add_right_cancel_iff]
      · intro before after hcut hlt
        refine hpaired (first ++ (mark ++ before)) after (by simp [hcut]) ?_
        simp only [byteLength_append]
        omega

theorem displayLines_eq (hl : (lines text)[l]? = some line)
    (hpaired : ReturnsPaired text
      ((LineMap.ofText text).starts.getD (l + 1) (byteLength text))) :
    (displayLines text)[l]?
      = if line = [] ∧ l + 1 = (LineMap.ofText text).lineCount then none else some line := by
  rw [LineMap.lineCount_eq]
  refine displayLines_of_inLines (inLines_lines 0 text) hl rfl fun before after hcut hlt => ?_
  rw [Nat.zero_add, Nat.zero_add] at hlt
  exact hpaired before after hcut hlt

/-- An underline is set in as far as the part of the line before it. -/
theorem underline_eq {range : PositionRange} {part : List Char} (hpart : part <+: line)
    (hcolumn : range.first.column = part.length) :
    ∃ indent width, underline range line = indent ++ List.replicate width '~'
      ∧ indent.length = part.length ∧ (∀ c ∈ indent, c = ' ' ∨ c = '\t') ∧ 0 < width := by
  refine ⟨_, underlineWidth range line, rfl, ?_, ?_, Nat.le_max_right _ _⟩
  · rw [List.length_map, List.length_take, hcolumn, Nat.min_eq_left hpart.length_le]
  · intro c hc
    obtain ⟨b, -, rfl⟩ := List.mem_map.1 hc
    split
    · exact .inr rfl
    · exact .inl rfl

end Report

/-- A diagnostic of a text is a problem of its tree with its place. -/
theorem Analysis.mem_diagnostics {a : Analysis} {d : LocatedDiagnostic} :
    d ∈ a.diagnostics ↔ ∃ p ∈ a.tree.diagnostics, a.locate p = d := by
  rw [diagnostics, List.mem_mergeSort, List.mem_map]

/-- **A report shows the line that a problem starts on.** Where no return ends this line or one
before it alone, the report shows below the message the line of the text with the number that
it prints, and underlines it behind as many characters as the line has before the problem. It
shows nothing only for an empty line at the end of the text. -/
theorem Analysis.snippet_shows_line (fileName : String) (text : List Char) (reporter : Reporter)
    {d : LocatedDiagnostic} (hd : d ∈ (Analysis.ofText fileName text).diagnostics)
    (hpaired : Text.ReturnsPaired text ((LineMap.ofText text).starts.getD
      (d.range.first.line + 1) (Text.byteLength text))) :
    let l := d.range.first.line
    ∃ line part start, (Text.lines text)[l]? = some line ∧ part <+: line
      ∧ (LineMap.ofText text).starts[l]? = some start ∧ start + Text.byteLength part = d.start
      ∧ (reporter.snippet text d = []
        ↔ line = [] ∧ l + 1 = (LineMap.ofText text).lineCount)
      ∧ (reporter.snippet text d ≠ [] → ∃ indent width,
        reporter.snippet text d
            = "\n  ".toList ++ Report.lineNumber (l + 1) ++ "   ".toList ++ line
              ++ "\n        ".toList
              ++ reporter.styled Report.underlineStyle (indent ++ List.replicate width '~')
          ∧ indent.length = part.length ∧ (∀ c ∈ indent, c = ' ' ∨ c = '\t') ∧ 0 < width) := by
  intro l
  obtain ⟨p, hp, rfl⟩ := Analysis.mem_diagnostics.1 hd
  obtain ⟨hboundary, houtside⟩ := SourceTree.place_of_mem_diagnostics hp
  obtain ⟨n, front, line, mark, back, part, rest, hline, rfl, hstart, hposition⟩ :=
    LineMap.exists_place_on_line hboundary houtside
  have hfirst : ((Analysis.ofText fileName text).locate p).range.first = ⟨n, part.length⟩ :=
    hposition
  obtain rfl : l = n := congrArg Position.line hfirst
  have hshown := Report.displayLines_eq hline.line_eq hpaired
  have hprefix : part <+: part ++ rest := List.prefix_append _ _
  refine ⟨part ++ rest, part, _, hline.line_eq, hprefix, hline.start_eq, hstart, ?_⟩
  by_cases hlast : part ++ rest = [] ∧ l + 1 = (LineMap.ofText text).lineCount
  · have hnothing : reporter.snippet text ((Analysis.ofText fileName text).locate p) = [] := by
      rw [if_pos hlast] at hshown
      rw [Reporter.snippet, hshown]
    exact ⟨iff_of_true hnothing hlast, fun hsome => absurd hnothing hsome⟩
  · obtain ⟨indent, width, hunderline, hindent⟩ :=
      Report.underline_eq hprefix (congrArg Position.column hfirst)
    rw [if_neg hlast] at hshown
    rw [Reporter.snippet, hshown]
    refine ⟨iff_of_false (by simp) hlast, fun _ => ⟨indent, width, ?_, hindent⟩⟩
    rw [← hunderline]

/-- A stray character behind a tab and a letter of two bytes, on a line between returns that
line feeds follow, in a coloured report. -/
theorem Analysis.snippet_shows_line_tab :
    let text := "int a;\r\n\té;@\r\n".toList
    ∃ d ∈ (Analysis.ofText "names" text).diagnostics, d.start = 12
      ∧ Text.ReturnsPaired text ((LineMap.ofText text).starts.getD
        (d.range.first.line + 1) (Text.byteLength text))
      ∧ ∃ line part start, (Text.lines text)[d.range.first.line]? = some line ∧ part <+: line
        ∧ start + Text.byteLength part = 12
        ∧ ∃ indent width, Reporter.snippet ⟨true, Report.Style.escaped⟩ text d
            = "\n  ".toList ++ Report.lineNumber (d.range.first.line + 1) ++ "   ".toList ++ line
              ++ "\n        ".toList
              ++ ("\x1b[31m".toList ++ (indent ++ List.replicate width '~') ++ "\x1b[0m".toList)
          ∧ indent.length = part.length := by
  intro text
  have hproblem : (⟨12, 1, "Invalid character."⟩ : ParseDiagnostic)
      ∈ (SourceTree.parse "names" text).diagnostics := by
    decide +kernel
  have hd := Analysis.mem_diagnostics (a := Analysis.ofText "names" text).2 ⟨_, hproblem, rfl⟩
  have hpaired : Text.ReturnsPaired text
      ((LineMap.ofText text).starts.getD 2 (Text.byteLength text)) :=
    .of_getElem? (by decide)
  obtain ⟨line, part, start, hline, hpart, -, hstart, -, hsnippet⟩ :=
    Analysis.snippet_shows_line "names" text ⟨true, Report.Style.escaped⟩ hd hpaired
  obtain ⟨indent, width, hshown, hindent, -⟩ := hsnippet (by decide +kernel)
  have hstyled : ∀ t, Reporter.styled ⟨true, Report.Style.escaped⟩ Report.underlineStyle t
      = "\x1b[31m".toList ++ t ++ "\x1b[0m".toList := fun _ => rfl
  rw [hstyled] at hshown
  exact ⟨_, hd, rfl, hpaired, line, part, start, hline, hpart, hstart, indent, width, hshown,
    hindent⟩

/-- **Behind a lone return a report shows another line.** The stray character is on the second
line of the text, whose number the report prints above the text of the first line, the third
line being shown as the second. -/
theorem snippet_after_lone_return :
    let text := ";\r@\n;".toList
    ∃ d ∈ (Analysis.ofText "names" text).diagnostics,
      d.start = 2 ∧ d.range.first = ⟨1, 0⟩ ∧ (Text.lines text)[1]? = some ['@']
        ∧ Reporter.snippet ⟨false, Report.Style.escaped⟩ text d
          = "\n    2   ;\n        ~".toList := by
  intro text
  have hproblem : (⟨2, 1, "Invalid character."⟩ : ParseDiagnostic)
      ∈ (SourceTree.parse "names" text).diagnostics := by
    decide +kernel
  refine ⟨_, Analysis.mem_diagnostics.2 ⟨_, hproblem, rfl⟩, rfl, ?_, ?_, ?_⟩
  · decide +kernel
  · decide +kernel
  · decide +kernel

end ScriptLens
