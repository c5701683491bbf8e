import ScriptLens.Proofs.Elements
import ScriptLens.Proofs.Operands
import ScriptLens.Proofs.TextLines

/-!
# Include paths between angle brackets

The path of a system include is meant to be the text up to `>` on the same line. The parser
finds that `>` by consuming tokens, and the tokens of a path are those of the lexical rules:
`//` in a path starts a comment, and `->` is one token that is no `>`. So the path is what
it is meant to be under a condition on the tokens of the line (`PlainPath`), and this module
proves that the condition is enough. Without it the parser misses the `>` and reports that it
is absent (`SourceTree.commented_include_misread`), or takes a later one, which can stand on
another line.

The run is described first, by the tokens that are skipped (`ReadsPath`). What this has to
do with the line is then a matter of cutting one text in two ways: where a line ends or has
its first `>`, and where tokens start and end (`Text.exists_middle`).
-/

namespace ScriptLens

namespace Parser

variable {r : Setting} {bound : Nat} {s s' : State} {i j : Inner}

/-! ## The run -/

/-- Whether a token is skipped as a part of a path on a line that ends at an offset. -/
def inPath (lineEnd : Nat) (t : Token) : Bool :=
  t.kind != .punctuation .greater && t.span.start < lineEnd

theorem inPath_eq_false {lineEnd : Nat} {t : Token} :
    inPath lineEnd t = false ↔ t.kind = .punctuation .greater ∨ lineEnd ≤ t.span.start := by
  simp only [inPath, Bool.and_eq_false_iff, bne_eq_false_iff_eq, decide_eq_false_iff_not,
    Nat.not_lt]

namespace State

/-- The state behind the upcoming tokens up to one that fails a test. -/
def skip (test : Token → Bool) (s : State) : State :=
  { s with
    upcoming := s.upcoming.dropWhile test
    previousEnd := Token.endOf s.previousEnd (s.upcoming.takeWhile test) }

theorem skip_eq_self {test : Token → Bool} (h : ∀ t ∈ s.upcoming.head?, test t = false) :
    s.skip test = s := by
  obtain ⟨upcoming, _, _, _, _⟩ := s
  cases upcoming with
  | nil => rfl
  | cons t ts =>
    have htest : ¬test t = true := Bool.eq_false_iff.1 (h t rfl)
    rw [skip, List.dropWhile_cons_of_neg htest, List.takeWhile_cons_of_neg htest]
    rfl

theorem skip_take {test : Token → Bool} {t : Token} {ts : List Token} (hup : s.upcoming = t :: ts)
    (h : test t = true) : s.take.skip test = s.skip test := by
  rw [take_eq hup, skip, skip, hup, List.dropWhile_cons_of_pos h, List.takeWhile_cons_of_pos h]
  rfl

end State

/-- **Skipping a path** comes to the first `>` or to the first token behind the line. -/
theorem skipIncludePath_skips {lineEnd : Nat} (H : Alike r bound i j) (hs : Room r bound s) :
    Runs (skipIncludePath i lineEnd) (skipIncludePath j lineEnd) r s fun _ s' =>
      s' = s.skip (inPath lineEnd) := by
  -- what is skipped from the state of a round is what is left to be skipped
  refine H.iterate (fun _ s₁ => s₁.skip (inPath lineEnd) = s.skip (inPath lineEnd))
    (fun _ s' => s' = s.skip (inPath lineEnd)) (Nat.le_succ _) hs rfl fun _ s₁ hs₁ hI => ?_
  refine .step rfl (.step rfl (.position (.ite (fun hstop => .pure (.stop ?_)) fun hgo => ?_)))
  · rw [← hI, State.skip_eq_self fun t ht => ?_]
    obtain ⟨ts, hts⟩ := List.head?_eq_some_iff.1 ht
    have hne : t.kind ≠ .endOfFile := by
      have hfits := hs₁.fits
      rw [State.Fits, hts] at hfits
      exact hfits.2.2.1
    rw [State.kind, State.position, hts] at hstop
    rw [inPath_eq_false]
    simpa [hne] using hstop
  · rw [Bool.or_eq_false_iff, Bool.or_eq_false_iff] at hgo
    obtain ⟨⟨hgreater, hend⟩, hline⟩ := hgo
    have hne : s₁.kind ≠ .endOfFile := beq_eq_false_iff_ne.1 hend
    obtain ⟨t, ts, hts⟩ := List.exists_cons_of_ne_nil (State.upcoming_ne_nil hne)
    have hpath : inPath lineEnd t = true := by
      rw [State.kind, hts] at hgreater
      rw [State.position, hts] at hline
      simpa [inPath, bne, hgreater] using hline
    refine .step rfl (.pure (.again ⟨.take s₁ (State.upcoming_ne_nil hne), ?_, ?_⟩))
    · exact State.length_take rfl hne
    · rw [State.skip_take hts hpath, hI]

/-- Where a path ends that starts at an offset, in the state behind its tokens. -/
def State.pathStop (r : Setting) (s : State) (start : Nat) : Nat :=
  if s.kind = .punctuation .greater then s.position r else max s.previousEnd start

/-- Behind a path `>` is consumed, or its absence is recorded. -/
theorem exec_includePathEnd {start : Nat} :
    exec (includePathEnd start) r s = (s.pathStop r start,
      if s.kind = .punctuation .greater then s.take
      else s.note ⟨s.position r, 0, "'>' expected."⟩) := by
  have haccept := exec_accept (r := r) (s := s) (.punctuation .greater)
  rw [includePathEnd, exec_bind_eq (m := position) rfl, acceptMark, State.pathStop]
  by_cases h : s.kind = .punctuation .greater
  · rw [if_pos h] at haccept
    rw [exec_bind_eq haccept, if_pos h, if_pos h]
    rfl
  · rw [if_neg h] at haccept
    rw [exec_bind_eq haccept, if_neg h, if_neg h]
    rfl

/-- The state behind the tokens of the path that follows a `<`. -/
def State.behindPath (r : Setting) (s : State) : State :=
  s.take.skip (inPath (lineEnd r s.take.previousEnd))

/-- **What a system include reads** from `<` on: the text from there up to where the skipped
tokens end. Where `>` follows them, nothing is reported. -/
structure ReadsPath (r : Setting) (s : State) (path : Node) (s' : State) : Prop where
  payload_eq : path.payload = .literal (.string (.ofList (Text.trim (Text.slice s.take.previousEnd
    ((s.behindPath r).pathStop r s.take.previousEnd) r.text))))
  diagnostics_eq : (s.behindPath r).kind = .punctuation .greater → s'.diagnostics = s.diagnostics

theorem State.diagnostics_take (s : State) : s.take.diagnostics = s.diagnostics := by
  rw [take]
  split <;> rfl

theorem systemIncludePath_reads (H : Alike r bound i j) (hs : Room r (bound + 1) s)
    (hkind : s.kind = .punctuation .less) :
    Runs (systemIncludePath i) (systemIncludePath j) r s (ReadsPath r s) := by
  have hne : s.kind ≠ .endOfFile := by
    rw [hkind]
    nofun
  obtain ⟨t, ts, hts⟩ := List.exists_cons_of_ne_nil (State.upcoming_ne_nil hne)
  have hstart : (s.current r).span.stop = s.take.previousEnd := by
    rw [State.current, hts, State.take_eq hts]
  refine .step (m := advance) rfl (.read ?_)
  rw [hstart]
  refine (skipIncludePath_skips H (hs.take hkind nofun)).bind fun _ s₂ hskip => ?_
  obtain rfl : s₂ = s.behindPath r := hskip
  refine .step exec_includePathEnd ((finish_counts.yields finish_yields).mono ?_)
  rintro path _ ⟨rfl, hpayload⟩
  refine ⟨hpayload, fun hgreater => ?_⟩
  have hquiet : (s.behindPath r).diagnostics = s.diagnostics := State.diagnostics_take s
  rw [if_pos hgreater, ← hquiet]
  exact State.diagnostics_take _

theorem includeDirective_reads (H : Alike r bound i j) (hs : Room r (bound + 1) s)
    (hkind : s.kind = .keyword .includeKw) (hless : s.take.kind = .punctuation .less) :
    Runs (includeDirective i) (includeDirective j) r s fun n s' =>
      ∃ path, n.payload = .includeDirective path true ∧ ReadsPath r s.take path s' := by
  have hs₁ := (hs.take hkind nofun).weaken
  refine .position (.step rfl (.currentKind ?_))
  rw [hless]
  refine (systemIncludePath_reads H hs₁ hless).bind fun path s₂ hpath => ?_
  refine (finish_counts.yields finish_yields).mono ?_
  rintro n _ ⟨rfl, hpayload⟩
  exact ⟨path, hpayload, hpath.payload_eq, hpath.diagnostics_eq⟩

theorem topLevelElement_reads (H : Alike r bound i j) (hs : Room r (bound + 1) s)
    (hkind : s.kind = .keyword .includeKw) (hless : s.take.kind = .punctuation .less) :
    Runs (topLevelElement i) (topLevelElement j) r s fun n s' =>
      ∃ path, n.payload = .includeDirective path true ∧ ReadsPath r s.take path s' := by
  refine .currentKind ?_
  rw [hkind]
  exact includeDirective_reads H hs hkind hless

/-! ## The directive in its text -/

/-- **A system include in a text.** Where an element starts with `#include` and `<`, a path
is read from `<` on. -/
theorem exists_readsPath {fileName : String} {text : List Char} {n : Node}
    (hn : n ∈ (run .standard fileName text).1.fileStatements) {before after : List Token}
    {word opening : Token} (htokens : tokensOf text = before ++ word :: opening :: after)
    (hword : word.kind = .keyword .includeKw) (hstart : word.span.start = n.span.start)
    (hless : opening.kind = .punctuation .less) :
    ∃ path s s', n.payload = .includeDirective path true ∧ ReadsElement fileName text s n s'
      ∧ s.upcoming = word :: opening :: after ∧ ReadsPath (.ofText text) s.take path s' := by
  obtain ⟨s, s', helement, hlater, hparses⟩ := exists_readsElement hn
  have hs := (room_ofTokens text).later hlater
  have hinOrder := tokensOf_inOrder text
  have hpos : s.position (.ofText text) = word.span.start := by
    rw [hstart, (hparses.completes.span hs.fits).start_eq]
  have hup : s.upcoming = word :: opening :: after := by
    obtain ⟨past, hpast, -⟩ := hlater.consumed
    have hlt := hinOrder.mem (t := word) (by rw [htokens]; simp)
    cases hup : s.upcoming with
    | nil =>
      rw [State.position, hup] at hpos
      replace hpos : Text.byteLength text = word.span.start := hpos
      omega
    | cons t ts =>
      rw [State.position, hup] at hpos
      rw [hup] at hpast
      rw [htokens] at hinOrder
      exact (hinOrder.cons_eq (htokens.symm.trans hpast) hpos.symm).symm
  have hkind : s.kind = .keyword .includeKw := by rwa [State.kind, hup]
  have hnext : s.take.kind = .punctuation .less := by rwa [State.take_eq hup]
  have hreads := (topLevelElement_reads (alike_ofBound .standard .standard _ _ _ (Nat.le_refl _)
    (Nat.le_refl _)) hs hkind hnext).2
  cases helement with
  | mk heq hearlier hexec hlast =>
    rw [hexec] at hreads
    obtain ⟨path, hpayload, hreads⟩ := hreads
    exact ⟨path, s, s', hpayload, .mk heq hearlier hexec hlast, hup, hreads⟩

/-! ## Where the path ends -/

/-- **A path that the lexical rules leave alone**, in a text, behind an offset from which the
given tokens follow. -/
structure PlainPath (text : List Char) (start : Nat) (tokens : List Token) : Prop where
  /-- The first `>` on the line is a token. -/
  closing : '>' ∈ Text.restOfLine start text → ∃ t ∈ tokens, t.kind = .punctuation .greater
    ∧ t.span.start
      = start + Text.byteLength ((Text.restOfLine start text).takeWhile (· ≠ '>'))
  /-- No token of a line without `>` has more than white space behind the line. -/
  within : '>' ∉ Text.restOfLine start text → ∀ t ∈ tokens,
    t.span.start < lineEnd (.ofText text) start →
      ∀ c ∈ Text.slice (lineEnd (.ofText text) start) t.span.stop text,
        Text.isWhiteSpace c = true
  /-- Only white space stands before a `>` that is the first token behind such a line. -/
  behind : '>' ∉ Text.restOfLine start text → ∀ t,
    tokens.find? (lineEnd (.ofText text) start ≤ ·.span.start) = some t →
      t.kind = .punctuation .greater →
        ∀ c ∈ Text.slice (lineEnd (.ofText text) start) t.span.start text,
          Text.isWhiteSpace c = true

/-- **A path that starts at an offset ends on its line**, but for white space. -/
structure EndsOnLine (text : List Char) (start stop : Nat) : Prop where
  isBoundary : Text.IsBoundary text stop
  start_le_stop : start ≤ stop
  white : ∀ c ∈ Text.slice (lineEnd (.ofText text) start) stop text, Text.isWhiteSpace c = true

/-! In what follows, `opening` is the `<` of a system include and `after` the tokens behind
it. -/

section Path

variable {text : List Char} {front after : List Token} {opening t : Token}

theorem inOrder_after (htokens : tokensOf text = front ++ opening :: after) :
    Token.InOrder opening.span.stop after (Text.byteLength text) := by
  have hinOrder := tokensOf_inOrder text
  rw [htokens] at hinOrder
  exact hinOrder.append_right.2.2.2

theorem isBoundary_opening (htokens : tokensOf text = front ++ opening :: after) :
    Text.IsBoundary text opening.span.stop :=
  (Token.isBoundary (by rw [htokens]; simp)).2

/-- Where a `>` token starts in the first part of the line, that part has a `>`. -/
theorem greater_mem_line (htokens : tokensOf text = front ++ opening :: after)
    (ht : t ∈ after) (hkind : t.kind = .punctuation .greater) {part rest : List Char}
    (hline : Text.restOfLine opening.span.stop text = part ++ rest)
    (hlt : t.span.start < opening.span.stop + Text.byteLength part) : '>' ∈ part := by
  have hmem : t ∈ tokensOf text := by rw [htokens]; simp [ht]
  obtain ⟨before, more, htext, hbefore⟩ := Text.exists_restOfLine (isBoundary_opening htokens)
  rw [hline, List.append_assoc] at htext
  refine Token.greater_mem htext hmem hkind ?_ ?_
  · rw [hbefore]
    exact ((inOrder_after htokens).mem ht).1
  · rwa [hbefore]

theorem lineEnd_opening (htokens : tokensOf text = front ++ opening :: after) :
    lineEnd (.ofText text) opening.span.stop = opening.span.stop
      + Text.byteLength (Text.restOfLine opening.span.stop text) :=
  Text.lineEnd_eq (isBoundary_opening htokens)

/-- On a line with `>`, the first `>` is the token behind the path. -/
theorem PlainPath.dropWhile_eq (hplain : PlainPath text opening.span.stop after)
    (htokens : tokensOf text = front ++ opening :: after)
    (hmem : '>' ∈ Text.restOfLine opening.span.stop text) :
    ∃ t ts, after.dropWhile (inPath (lineEnd (.ofText text) opening.span.stop)) = t :: ts
      ∧ t.kind = .punctuation .greater
      ∧ t.span.start = opening.span.stop
        + Text.byteLength ((Text.restOfLine opening.span.stop text).takeWhile (· ≠ '>')) := by
  obtain ⟨t, ht, hkind, hstart⟩ := hplain.closing hmem
  obtain ⟨xs, ts, hafter⟩ := List.append_of_mem ht
  have hinOrder := inOrder_after htokens
  rw [hafter] at hinOrder
  have hline := (List.takeWhile_append_dropWhile
    (p := (· ≠ '>')) (l := Text.restOfLine opening.span.stop text)).symm
  have hnone : '>' ∉ (Text.restOfLine opening.span.stop text).takeWhile (· ≠ '>') := by
    intro hfirst
    simpa using List.mem_takeWhile_imp hfirst
  -- a token before it starts before the first `>` of the line, so it cannot be one
  have hbefore : ∀ x ∈ xs, inPath (lineEnd (.ofText text) opening.span.stop) x = true := by
    intro x hx
    have hlt : x.span.start < t.span.start := by
      have hstop := hinOrder.append_left.mem hx
      have hle : Token.endOf opening.span.stop xs ≤ t.span.start := hinOrder.append_right.1
      omega
    by_contra hpath
    rw [Bool.not_eq_true, inPath_eq_false, lineEnd_opening htokens] at hpath
    rcases hpath with hgreater | hle
    · refine hnone (greater_mem_line htokens ?_ hgreater hline (hstart ▸ hlt))
      rw [hafter]
      exact List.mem_append_left _ hx
    · have hbytes := congrArg Text.byteLength hline
      rw [Text.byteLength_append] at hbytes
      omega
  refine ⟨t, ts, ?_, hkind, hstart⟩
  have hpath : inPath (lineEnd (.ofText text) opening.span.stop) t = false :=
    inPath_eq_false.2 (.inl hkind)
  rw [hafter, List.dropWhile_append_of_pos hbefore,
    List.dropWhile_cons_of_neg (Bool.eq_false_iff.1 hpath)]

/-- The tokens behind a path, and where the path ends. -/
theorem behindPath_eq (hup : s.upcoming = opening :: after) :
    (s.behindPath r).upcoming = after.dropWhile (inPath (lineEnd r opening.span.stop))
      ∧ (s.behindPath r).previousEnd = Token.endOf opening.span.stop
        (after.takeWhile (inPath (lineEnd r opening.span.stop))) := by
  rw [State.behindPath, State.take_eq hup]
  exact ⟨rfl, rfl⟩

/-- On a line with `>`, a plain path ends at the first one, which follows it. -/
theorem PlainPath.pathStop_eq (hplain : PlainPath text opening.span.stop after)
    (htokens : tokensOf text = front ++ opening :: after) (hup : s.upcoming = opening :: after)
    (hmem : '>' ∈ Text.restOfLine opening.span.stop text) :
    (s.behindPath (.ofText text)).kind = .punctuation .greater
      ∧ (s.behindPath (.ofText text)).pathStop (.ofText text) opening.span.stop
        = opening.span.stop
          + Text.byteLength ((Text.restOfLine opening.span.stop text).takeWhile (· ≠ '>')) := by
  obtain ⟨t, ts, hdrop, hkind, hstart⟩ := hplain.dropWhile_eq htokens hmem
  have hbehind := (behindPath_eq (r := .ofText text) hup).1.trans hdrop
  have hgreater : (s.behindPath (.ofText text)).kind = .punctuation .greater := by
    rwa [State.kind, hbehind]
  refine ⟨hgreater, ?_⟩
  rw [State.pathStop, if_pos hgreater, State.position, hbehind]
  exact hstart

/-- On a line without `>`, the tokens of a plain path end on the line. -/
theorem PlainPath.endOf_endsOnLine (hplain : PlainPath text opening.span.stop after)
    (htokens : tokensOf text = front ++ opening :: after)
    (hmem : '>' ∉ Text.restOfLine opening.span.stop text) :
    EndsOnLine text opening.span.stop (Token.endOf opening.span.stop
      (after.takeWhile (inPath (lineEnd (.ofText text) opening.span.stop)))) := by
  refine Token.endOf_of_forall ⟨isBoundary_opening htokens, Nat.le_refl _, ?_⟩ fun t ht => ?_
  · rw [Text.slice_of_le (by rw [lineEnd_opening htokens]; exact Nat.le_add_right _ _)]
    nofun
  · have hafter := List.takeWhile_subset _ ht
    have hbetween := (inOrder_after htokens).mem hafter
    have htest := List.mem_takeWhile_imp ht
    rw [inPath, Bool.and_eq_true_iff, decide_eq_true_iff] at htest
    refine ⟨(Token.isBoundary (by rw [htokens]; simp [hafter])).2, ?_,
      hplain.within hmem t hafter htest.2⟩
    omega

/-- A `>` token behind the path of a line without `>` is the first token behind the line. -/
theorem find?_eq_of_dropWhile (htokens : tokensOf text = front ++ opening :: after)
    (hmem : '>' ∉ Text.restOfLine opening.span.stop text) {ts : List Token}
    (hdrop : after.dropWhile (inPath (lineEnd (.ofText text) opening.span.stop)) = t :: ts)
    (hkind : t.kind = .punctuation .greater) :
    after.find? (lineEnd (.ofText text) opening.span.stop ≤ ·.span.start) = some t := by
  have hafter := List.takeWhile_append_dropWhile
    (p := inPath (lineEnd (.ofText text) opening.span.stop)) (l := after)
  rw [hdrop] at hafter
  refine List.find?_eq_some_iff_append.2 ⟨decide_eq_true (Nat.not_lt.1 fun hlt => ?_), _, ts,
    hafter.symm, fun x hx => ?_⟩
  · rw [lineEnd_opening htokens] at hlt
    refine hmem (greater_mem_line htokens ?_ hkind (List.append_nil _).symm hlt)
    rw [← hafter]
    simp
  · have htest := List.mem_takeWhile_imp hx
    rw [inPath, Bool.and_eq_true_iff, decide_eq_true_iff] at htest
    simpa using htest.2

/-- On a line without `>`, a plain path ends on the line. -/
theorem PlainPath.pathStop_endsOnLine (hplain : PlainPath text opening.span.stop after)
    (htokens : tokensOf text = front ++ opening :: after) (hup : s.upcoming = opening :: after)
    (hmem : '>' ∉ Text.restOfLine opening.span.stop text) :
    EndsOnLine text opening.span.stop
      ((s.behindPath (.ofText text)).pathStop (.ofText text) opening.span.stop) := by
  obtain ⟨hbehind, hend⟩ := behindPath_eq (r := .ofText text) hup
  rw [State.pathStop]
  split
  · next hkind =>
    rw [State.kind] at hkind
    rw [State.position]
    split at hkind
    · cases hkind
    · next t ts hcons =>
      have hfind := find?_eq_of_dropWhile htokens hmem (hbehind.symm.trans hcons) hkind
      have hafter := List.mem_of_find?_eq_some hfind
      exact ⟨(Token.isBoundary (by rw [htokens]; simp [hafter])).1,
        ((inOrder_after htokens).mem hafter).1, hplain.behind hmem t hfind hkind⟩
  · have hends := hplain.endOf_endsOnLine htokens hmem
    rw [hend, Nat.max_eq_left hends.start_le_stop]
    exact hends

/-- **What is read of a plain path** is a part of the line, and ends at the first `>` if there
is one. -/
theorem ReadsPath.exists_part {path : Node} (h : ReadsPath (.ofText text) s path s')
    (hplain : PlainPath text opening.span.stop after)
    (htokens : tokensOf text = front ++ opening :: after) (hup : s.upcoming = opening :: after) :
    ∃ part, path.payload = .literal (.string (.ofList (Text.trim part)))
      ∧ part <+: Text.restOfLine opening.span.stop text
      ∧ ('>' ∈ Text.restOfLine opening.span.stop text →
        part = (Text.restOfLine opening.span.stop text).takeWhile (· ≠ '>')
          ∧ s'.diagnostics = s.diagnostics) := by
  have hopening := isBoundary_opening htokens
  have hpayload := h.payload_eq
  rw [State.take_eq hup] at hpayload
  replace hpayload : path.payload = .literal (.string (.ofList (Text.trim
      (Text.slice opening.span.stop ((s.behindPath (.ofText text)).pathStop (.ofText text)
        opening.span.stop) text)))) := hpayload
  by_cases hmem : '>' ∈ Text.restOfLine opening.span.stop text
  · obtain ⟨hgreater, hstop⟩ := hplain.pathStop_eq htokens hup hmem
    have hbegins := List.takeWhile_prefix (· ≠ '>') (l := Text.restOfLine opening.span.stop text)
    rw [hstop, Text.slice_of_prefix hopening hbegins] at hpayload
    exact ⟨_, hpayload, hbegins, fun _ => ⟨rfl, h.diagnostics_eq hgreater⟩⟩
  · have hends := hplain.pathStop_endsOnLine htokens hup hmem
    have hwhite := hends.white
    rw [lineEnd_opening htokens] at hwhite
    obtain ⟨part, hbegins, htrim⟩ :=
      Text.exists_trim_slice_eq hopening hends.isBoundary hends.start_le_stop hwhite
    exact ⟨part, htrim ▸ hpayload, hbegins, fun hgreater => absurd hgreater hmem⟩

end Path

end Parser

/-- **System include paths are raw text**, where the lexical rules leave them alone. At the
top level, `#include` before `<` is a directive. If the rest of the line has a `>`, its path
is the trimmed text up to the first one, and nothing is reported while the directive is
parsed. If not, the path is a trimmed part of the line. It never contains a newline. -/
theorem SourceTree.parse_systemInclude (fileName : String) (text : List Char) {n : Node}
    (hn : n ∈ (SourceTree.parse fileName text).root.fileStatements) {before after : List Token}
    {word opening : Token}
    (htokens : Parser.tokensOf text = before ++ word :: opening :: after)
    (hword : word.kind = .keyword .includeKw) (hstart : word.span.start = n.span.start)
    (hless : opening.kind = .punctuation .less)
    (hplain : Parser.PlainPath text opening.span.stop after) :
    ∃ path part, n.payload = .includeDirective path true
      ∧ path.payload = .literal (.string (.ofList (Text.trim part)))
      ∧ part <+: Text.restOfLine opening.span.stop text
      ∧ '\n' ∉ Text.trim part
      ∧ ('>' ∈ Text.restOfLine opening.span.stop text →
        part = (Text.restOfLine opening.span.stop text).takeWhile (· ≠ '>')
          ∧ ∃ s s', Parser.ReadsElement fileName text s n s' ∧ s'.diagnostics = s.diagnostics) := by
  obtain ⟨path, s, s', hdirective, helement, hup, hreads⟩ :=
    Parser.exists_readsPath hn htokens hword hstart hless
  have hafter : Parser.tokensOf text = (before ++ [word]) ++ opening :: after := by
    rw [htokens, List.append_assoc]
    rfl
  have htake : s.take.upcoming = opening :: after := by rw [Parser.State.take_eq hup]
  obtain ⟨part, hpath, hbegins, hclosed⟩ := hreads.exists_part hplain hafter htake
  refine ⟨path, part, hdirective, hpath, hbegins, fun hnewline => ?_, fun hmem => ?_⟩
  · exact Text.newline_notMem_restOfLine _ text
      (hbegins.subset (Text.mem_of_mem_trim hnewline))
  · obtain ⟨hpart, hquiet⟩ := hclosed hmem
    exact ⟨hpart, s, s', helement, hquiet.trans s.diagnostics_take⟩

/-- A path that is plain. -/
theorem SourceTree.parse_systemInclude_header :
    ∃ n ∈ (SourceTree.parse "path" "#include <a.h>".toList).root.fileStatements,
      ∃ before after word opening,
        Parser.tokensOf "#include <a.h>".toList = before ++ word :: opening :: after
          ∧ word.kind = .keyword .includeKw ∧ word.span.start = n.span.start
          ∧ opening.kind = .punctuation .less
          ∧ Parser.PlainPath "#include <a.h>".toList opening.span.stop after
          ∧ ∃ path part, n.payload = .includeDirective path true
            ∧ path.payload = .literal (.string (.ofList (Text.trim part)))
            ∧ part <+: Text.restOfLine opening.span.stop "#include <a.h>".toList
            ∧ '\n' ∉ Text.trim part
            ∧ ('>' ∈ Text.restOfLine opening.span.stop "#include <a.h>".toList →
              part = (Text.restOfLine opening.span.stop "#include <a.h>".toList).takeWhile (· ≠ '>')
                ∧ ∃ s s', Parser.ReadsElement "path" "#include <a.h>".toList s n s'
                  ∧ s'.diagnostics = s.diagnostics) := by
  have hfirst : (SourceTree.parse "path" "#include <a.h>".toList).root.fileStatements[0]?.map
      (·.span.start) = some 0 := by
    decide +kernel
  obtain ⟨n, hget, hstart⟩ := Option.map_eq_some_iff.1 hfirst
  have hn := List.mem_of_getElem? hget
  have htokens : Parser.tokensOf "#include <a.h>".toList
      = [] ++ ⟨.keyword .includeKw, ⟨0, 8⟩⟩ :: ⟨.punctuation .less, ⟨9, 10⟩⟩ ::
        [⟨.identifier "a", ⟨10, 11⟩⟩, ⟨.punctuation .dot, ⟨11, 12⟩⟩, ⟨.identifier "h", ⟨12, 13⟩⟩,
          ⟨.punctuation .greater, ⟨13, 14⟩⟩] := by
    decide +kernel
  have hline : Text.restOfLine 10 "#include <a.h>".toList = "a.h>".toList := by decide +kernel
  have hplain : Parser.PlainPath "#include <a.h>".toList 10
      [⟨.identifier "a", ⟨10, 11⟩⟩, ⟨.punctuation .dot, ⟨11, 12⟩⟩, ⟨.identifier "h", ⟨12, 13⟩⟩,
        ⟨.punctuation .greater, ⟨13, 14⟩⟩] := by
    have hmem : '>' ∈ "a.h>".toList := by decide
    rw [← hline] at hmem
    refine ⟨fun _ => ⟨⟨.punctuation .greater, ⟨13, 14⟩⟩, by simp, rfl, by decide +kernel⟩,
      fun h => absurd hmem h, fun h => absurd hmem h⟩
  exact ⟨n, hn, _, _, _, _, htokens, rfl, hstart.symm, rfl, hplain,
    SourceTree.parse_systemInclude _ _ hn htokens rfl hstart.symm rfl hplain⟩

/-- **A comment in a path hides its end**: on the line of this directive a `>` follows, and
the path is not the text up to it. -/
theorem SourceTree.commented_include_misread :
    (SourceTree.parse "path" "#include <a//b>".toList).root.fileStatements.map
        (fun n => (n.kind, n.children.map Node.literalText?)) = [(.includeDirective, [some "a"])]
      ∧ (SourceTree.parse "path" "#include <a//b>".toList).diagnostics
        = [⟨15, 0, "'>' expected."⟩]
      ∧ '>' ∈ Text.restOfLine 10 "#include <a//b>".toList
      ∧ String.ofList (Text.trim
          ((Text.restOfLine 10 "#include <a//b>".toList).takeWhile (· ≠ '>'))) = "a//b" := by
  refine ⟨?_, ?_, ?_, ?_⟩ <;> decide +kernel

end ScriptLens
