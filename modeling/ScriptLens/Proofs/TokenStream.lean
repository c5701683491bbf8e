import Mathlib
import ScriptLens.Proofs.StatementRuns
import ScriptLens.Proofs.TokenLayout

/-!
# The tokens of a text as one list

A text has one list of tokens, and every reader sees that list. There are two ways in
which one might see another.

Comments can be asked for. A scan that does not ask for them skips them within one step,
several at a time, and a scan that does stops behind each; the two have to come to the
same places (`Token.filter_scan`). This rests on one fact about a step: what is read
behind a comment is what is read before it, if comments are skipped (`Cursor.next_false`).

A reader can change its mind. It takes a token back, keeps a state and returns to it, and
a listing remembers that it is over. All of this is kept in a scanner side by side: a
place in the text, a token that comes first, a flag. What it amounts to is a place in the
list of tokens, `TokenWalk`, and each request moves that place as its name says
(`ScanSession.run_walks`). A scanner stands before a token in one of two ways, fresh from
the token before it or with the token itself taken back (`Scanner.Before`), and no request
can tell one from the other as long as tokens are taken back one at a time.
-/

namespace ScriptLens

/-! ## Comments -/

namespace Cursor

variable {comments : Bool} {c c' : Cursor}

/-- **A comment that is not asked for is skipped**: what comes next is what comes next
behind the comment. -/
theorem next_false (c : Cursor) :
    c.next false =
      if (c.next true).1.lexeme.isComment then (c.next true).2.next false else c.next true := by
  cases h : c.skipBlanks with
  | mk offset tail =>
    cases tail with
    | nil =>
      rw [next_of_end h, next_of_end h]
      rfl
    | cons char rest =>
      rw [next_of_read h, next_of_read h]
      simp

theorem tokens_eq (comments : Bool) (c : Cursor) :
    c.tokens comments =
      if (c.next comments).1.isEnd then [(c.next comments).1]
      else (c.next comments).1 :: (c.next comments).2.tokens comments := by
  rw [tokens]
  split <;> rfl

theorem tokens_congr (h : c.next comments = c'.next comments) :
    c.tokens comments = c'.tokens comments := by
  rw [tokens_eq, tokens_eq comments c', h]

/-- From any cursor on the same tokens are read without comments, but for the comments. -/
theorem filter_tokens (c : Cursor) :
    (c.tokens true).filter (fun t => !t.lexeme.isComment) = c.tokens false := by
  fun_induction tokens true c with
  | case1 c step hend =>
    have hcomment : step.1.lexeme.isComment = false := by
      rw [of_decide_eq_true hend]
      rfl
    have hnext : c.next false = step := by
      rw [next_false, if_neg (Bool.eq_false_iff.1 hcomment)]
    rw [List.filter_cons_of_pos (by rw [hcomment]; rfl), tokens_eq, hnext, if_pos hend]
    rfl
  | case2 c step hend ih =>
    by_cases hcomment : step.1.lexeme.isComment = true
    · -- the plain scan goes on behind the comment within the same step
      rw [List.filter_cons_of_neg (by rw [hcomment]; exact Bool.false_ne_true), ih]
      refine (tokens_congr ?_).symm
      rw [next_false, if_pos hcomment]
    · have hnext : c.next false = step := by rw [next_false, if_neg hcomment]
      rw [List.filter_cons_of_pos (by simpa using hcomment), ih, tokens_eq false c, hnext,
        if_neg hend]

end Cursor

theorem Token.isComment_lexeme (t : Token) :
    t.lexeme.isComment = (t.kind == .lineComment || t.kind == .blockComment) := by
  obtain ⟨lexeme, span⟩ := t
  cases lexeme <;> rfl

/-- **With and without comments a text has the same tokens**: the comments deleted from
the one list, the other is left, down to the spans, values and flags of the tokens. -/
theorem Token.filter_scan (source : List Char) :
    (Token.scan source true).filter (fun t => t.kind != .lineComment && t.kind != .blockComment)
      = Token.scan source false := by
  rw [Token.scan, Token.scan, ← Cursor.filter_tokens]
  refine List.filter_congr fun t _ => ?_
  rw [Token.isComment_lexeme, Bool.not_or]
  rfl

/-! ## Tokens by number -/

/-- **The token with a number** in the list of a text. Behind the last one, the end of the
text comes again and again. -/
def Token.nth (source : List Char) (comments : Bool) (k : Nat) : Token :=
  (Token.scan source comments)[k]?.getD (.endOfFile (Text.byteLength source))

namespace Cursor

variable {comments : Bool} {c : Cursor}

/-- The cursor behind a number of tokens. -/
def behind (comments : Bool) (c : Cursor) (k : Nat) : Cursor :=
  (fun c => (c.next comments).2)^[k] c

theorem behind_succ (c : Cursor) (k : Nat) :
    c.behind comments (k + 1) = ((c.behind comments k).next comments).2 :=
  Function.iterate_succ_apply' _ _ _

theorem behind_succ_next (c : Cursor) (k : Nat) :
    c.behind comments (k + 1) = (c.next comments).2.behind comments k :=
  Function.iterate_succ_apply _ _ _

theorem next_end (offset : Nat) :
    (⟨offset, []⟩ : Cursor).next comments = (.endOfFile offset, ⟨offset, []⟩) :=
  next_of_end rfl

/-- At the end of the text a scan stays there. -/
theorem behind_end (offset k : Nat) :
    (⟨offset, []⟩ : Cursor).behind comments k = ⟨offset, []⟩ := by
  induction k with
  | zero => rfl
  | succ k ih => rw [behind_succ_next, next_end, ih]

theorem next_of_isEnd (h : (c.next comments).1.isEnd = true) :
    c.next comments = (.endOfFile c.textLength, ⟨c.textLength, []⟩) := by
  fun_induction next comments c with
  | case1 c offset heq =>
    obtain rfl : offset = c.textLength := (skipBlanks_eq heq).2
    rfl
  | case2 c offset char rest heq result hskip ih =>
    have hlength : result.2.textLength = c.textLength :=
      (read_inOrder offset char rest).2.trans (skipBlanks_eq heq).2
    rw [ih h, hlength]
  | case3 c offset char rest heq result hkeep =>
    have hnot : result.1.isEnd = false := isEnd_read offset char rest
    rw [hnot] at h
    cases h

/-- **Reading on gives the tokens of the list**, one after the other. -/
theorem getElem?_tokens (c : Cursor) (k : Nat) :
    (c.tokens comments)[k]?.getD (.endOfFile c.textLength)
      = ((c.behind comments k).next comments).1 := by
  induction k generalizing c with
  | zero =>
    rw [tokens_eq]
    split <;> rfl
  | succ k ih =>
    rw [tokens_eq, behind_succ_next]
    by_cases hend : (c.next comments).1.isEnd = true
    · rw [if_pos hend, next_of_isEnd hend, behind_end, next_end]
      rfl
    · have hlength := (next_inOrder (Bool.eq_false_iff.2 hend)).2.2.2
      rw [if_neg hend, List.getElem?_cons_succ, ← hlength]
      exact ih _

end Cursor

theorem Token.nth_eq (source : List Char) (comments : Bool) (k : Nat) :
    Token.nth source comments k
      = (((Cursor.atStart source).behind comments k).next comments).1 := by
  rw [← Cursor.getElem?_tokens, Cursor.textLength, Cursor.atStart, Nat.zero_add]
  rfl

/-! ## Scanners -/

namespace Scanner

variable {source : List Char} {comments finished : Bool} {k : Nat} {s : Scanner}

/-- The scanner that has read a number of tokens and took none of them back. -/
def behind (source : List Char) (comments : Bool) (k : Nat) (finished : Bool) : Scanner :=
  ⟨comments, (Cursor.atStart source).behind comments k, none, finished⟩

/-- **A scanner stands before the token with a number**: it has read all tokens before that
one, or that one too and took it back. -/
inductive Before (source : List Char) (comments : Bool) (k : Nat) (finished : Bool) :
    Scanner → Prop
  | fresh : Before source comments k finished (behind source comments k finished)
  | takenBack : Before source comments k finished
    ((behind source comments (k + 1) finished).pushBack (Token.nth source comments k))

/-- However it stands before a token, a scanner reads it next. -/
theorem Before.next (h : Before source comments k finished s) :
    s.next = (Token.nth source comments k, behind source comments (k + 1) finished) := by
  cases h with
  | fresh =>
    rw [Token.nth_eq, behind, behind, Cursor.behind_succ]
    rfl
  | takenBack => rfl

theorem Before.finished_eq (h : Before source comments k finished s) : s.finished = finished := by
  cases h <;> rfl

/-- A listing goes on unless it is over, and the end of the text is the last that it
gives. -/
theorem Before.list (h : Before source comments k finished s) :
    s.list = if finished then (none, s)
      else (some (Token.nth source comments k),
        behind source comments (k + 1) (Token.nth source comments k).isEnd) := by
  rw [Scanner.list, h.finished_eq, h.next]
  rfl

end Scanner

/-! ## Sessions -/

/-- **What a session amounts to**: a place in a list of tokens, whether the listing is
over, and what was kept of the two. -/
structure TokenWalk where
  /-- The number of the token that comes next. -/
  position : Nat
  /-- Whether the end of the text was listed. -/
  finished : Bool
  /-- The places and flags that were kept, in the order of their numbers. -/
  saved : List (Nat × Bool)
deriving DecidableEq, Repr

namespace TokenWalk

/-- The walk that begins at the first token. -/
def start : TokenWalk := ⟨0, false, []⟩

/-- Answers one request: reading moves on by one token, taking back moves back by one, and
going back to a kept state returns to its place and its flag. -/
def step (tokens : Nat → Token) (w : TokenWalk) : ScanRequest → ScanReply × TokenWalk
  | .next => (.token (tokens w.position), { w with position := w.position + 1 })
  | .list =>
    if w.finished then (.exhausted, w)
    else (.token (tokens w.position),
      { w with position := w.position + 1, finished := (tokens w.position).isEnd })
  | .pushBack => (.done, { w with position := w.position - 1 })
  | .save => (.saved w.saved.length, { w with saved := w.saved ++ [(w.position, w.finished)] })
  | .restore index =>
    match w.saved[index]? with
    | some (position, finished) => (.done, { w with position, finished })
    | none => (.noSnapshot, w)

/-- Answers requests one after the other. -/
def run (tokens : Nat → Token) (w : TokenWalk) : List ScanRequest → List ScanReply
  | [] => []
  | request :: requests =>
    (w.step tokens request).1 :: run tokens (w.step tokens request).2 requests

end TokenWalk

/-- Whether a reply gives a token. -/
def ScanReply.isToken : ScanReply → Bool
  | .token _ => true
  | _ => false

namespace ScanSession

/-- The session after some requests. -/
def after (s : ScanSession) (requests : List ScanRequest) : ScanSession :=
  requests.foldl (fun s request => (s.step request).2) s

/-- **Whether tokens are taken back at once**: only a token that the request right before
has given. Whether the request before the first one gave a token is `given`. -/
def takesBackAtOnce (s : ScanSession) (given : Bool) : List ScanRequest → Bool
  | [] => true
  | request :: requests =>
    (request != .pushBack || given)
      && takesBackAtOnce (s.step request).2 (s.step request).1.isToken requests

variable {source : List Char} {comments given : Bool} {s s' : ScanSession} {w : TokenWalk}
  {requests : List ScanRequest}

/-- **A session follows a walk**: its scanner and those that it keeps stand where the walk
does, and a token that it gave right before is the one before that place. -/
structure Follows (source : List Char) (comments : Bool) (s : ScanSession) (w : TokenWalk)
    (given : Bool) : Prop where
  scanner : Scanner.Before source comments w.position w.finished s.scanner
  saved : List.Forall₂ (fun kept place => Scanner.Before source comments place.1 place.2 kept)
    s.saved w.saved
  last : given = true → ∃ k, w.position = k + 1
    ∧ s.scanner = Scanner.behind source comments (k + 1) w.finished
    ∧ s.last = some (Token.nth source comments k)

/-- Where no token was given right before, only the scanners count. -/
theorem Follows.of_scanners
    (hscanner : Scanner.Before source comments w.position w.finished s.scanner)
    (hsaved : List.Forall₂ (fun kept place => Scanner.Before source comments place.1 place.2 kept)
      s.saved w.saved) : Follows source comments s w false :=
  ⟨hscanner, hsaved, fun h => absurd h Bool.false_ne_true⟩

theorem start_follows (source : List Char) (comments : Bool) :
    Follows source comments (start source comments) .start false :=
  .of_scanners .fresh .nil

/-- **One request keeps a session and its walk together**, and both give the same reply. -/
theorem Follows.step (h : Follows source comments s w given) (request : ScanRequest)
    (hback : request = .pushBack → given = true) :
    (s.step request).1 = (w.step (Token.nth source comments) request).1
      ∧ Follows source comments (s.step request).2
        (w.step (Token.nth source comments) request).2 (s.step request).1.isToken := by
  cases request with
  | next =>
    rw [ScanSession.step, h.scanner.next]
    exact ⟨rfl, .fresh, h.saved, fun _ => ⟨w.position, rfl, rfl, rfl⟩⟩
  | list =>
    rw [ScanSession.step, h.scanner.list, TokenWalk.step]
    by_cases hfinished : w.finished = true
    · rw [if_pos hfinished, if_pos hfinished]
      exact ⟨rfl, .of_scanners h.scanner h.saved⟩
    · rw [if_neg hfinished, if_neg hfinished]
      exact ⟨rfl, .fresh, h.saved, fun _ => ⟨w.position, rfl, rfl, rfl⟩⟩
  | pushBack =>
    obtain ⟨k, hposition, hscanner, hlast⟩ := h.last (hback rfl)
    rw [ScanSession.step, hlast, hscanner, TokenWalk.step, hposition]
    exact ⟨rfl, .of_scanners .takenBack h.saved⟩
  | save =>
    refine ⟨?_, .of_scanners h.scanner (List.rel_append h.saved (.cons h.scanner .nil))⟩
    rw [ScanSession.step, TokenWalk.step, h.saved.length_eq]
  | restore index =>
    rw [ScanSession.step, TokenWalk.step]
    by_cases hlt : index < s.saved.length
    · have hlt' : index < w.saved.length := h.saved.length_eq ▸ hlt
      rw [List.getElem?_eq_getElem hlt, List.getElem?_eq_getElem hlt']
      exact ⟨rfl, .of_scanners (h.saved.get hlt hlt') h.saved⟩
    · have hle := Nat.le_of_not_lt hlt
      rw [List.getElem?_eq_none hle, List.getElem?_eq_none (h.saved.length_eq ▸ hle)]
      exact ⟨rfl, .of_scanners h.scanner h.saved⟩

theorem run_cons (s : ScanSession) (request : ScanRequest) (requests : List ScanRequest) :
    s.run (request :: requests) = (s.step request).1 :: (s.step request).2.run requests :=
  rfl

/-- **Requests keep a session and its walk together**, and both give the same replies. -/
theorem Follows.run (h : Follows source comments s w given)
    (hback : s.takesBackAtOnce given requests = true) :
    s.run requests = w.run (Token.nth source comments) requests
      ∧ ∃ w' given', Follows source comments (s.after requests) w' given' := by
  induction requests generalizing s w given with
  | nil => exact ⟨rfl, w, given, h⟩
  | cons request requests ih =>
    obtain ⟨hfirst, hrest⟩ := Bool.and_eq_true_iff.1 hback
    have hgiven : request = .pushBack → given = true := by
      rintro rfl
      exact hfirst
    obtain ⟨hreply, hstep⟩ := h.step request hgiven
    obtain ⟨hreplies, hafter⟩ := ih hstep hrest
    refine ⟨?_, hafter⟩
    rw [run_cons, TokenWalk.run, hreply, hreplies]

/-! ## Looking ahead -/

theorem takesBackAtOnce_replicate_next (s : ScanSession) (given : Bool) (n : Nat) :
    s.takesBackAtOnce given (List.replicate n .next) = true := by
  induction n generalizing s given with
  | zero => rfl
  | succ n ih => exact ih _ _

/-- A session that reads a token and takes it back is where it was. -/
theorem Follows.peek (h : Follows source comments s w given) :
    Follows source comments (s.after [.next, .pushBack]) w false := by
  obtain ⟨hreply, hnext⟩ := h.step .next nofun
  exact (hnext.step .pushBack fun _ => by rw [hreply]; rfl).2

/-- What is read next depends on the scanner only. -/
theorem run_next_congr (h : s.scanner = s'.scanner) (n : Nat) :
    s.run (List.replicate n .next) = s'.run (List.replicate n .next) := by
  induction n generalizing s s' with
  | zero => rfl
  | succ n ih =>
    have hstep : (s.step .next).2.scanner = (s'.step .next).2.scanner := by
      rw [step, step, h]
    rw [List.replicate_succ, run_cons, run_cons, ih hstep, step, step, h]

/-- What is kept stays kept. -/
theorem saved_prefix_after (s : ScanSession) (requests : List ScanRequest) :
    s.saved <+: (s.after requests).saved := by
  induction requests generalizing s with
  | nil => exact List.prefix_rfl
  | cons request requests ih =>
    refine List.IsPrefix.trans ?_ (ih (s.step request).2)
    cases request with
    | next => exact List.prefix_rfl
    | save => exact List.prefix_append _ _
    | list | pushBack | restore =>
      rw [step]
      split <;> exact List.prefix_rfl

/-- **Whatever is read ahead**, the kept scanner comes back as it was. -/
theorem scanner_after_restore (s : ScanSession) (ahead : List ScanRequest) :
    (s.after (.save :: ahead ++ [.restore s.saved.length])).scanner = s.scanner := by
  obtain ⟨more, hmore⟩ := saved_prefix_after (s.step .save).2 ahead
  have hkept : (s.after (.save :: ahead)).saved[s.saved.length]? = some s.scanner := by
    show ((s.step .save).2.after ahead).saved[s.saved.length]? = some s.scanner
    rw [← hmore, step, List.append_assoc, List.getElem?_append_right (Nat.le_refl _),
      Nat.sub_self]
    rfl
  rw [after, List.foldl_append, ← after]
  show ((s.after (.save :: ahead)).step (.restore s.saved.length)).2.scanner = s.scanner
  rw [step, hkept]

end ScanSession

/-! ## The parser -/

namespace Parser

variable {text : List Char} {k : Nat} {p : State}

/-- Consuming a token leaves the ones behind it. -/
theorem upcoming_take_of_drop (h : p.upcoming = (tokensOf text).drop k) :
    p.take.upcoming = (tokensOf text).drop (k + 1) := by
  have htake : p.take.upcoming = p.upcoming.drop 1 := by
    rw [State.take]
    split
    · next hnil => rw [hnil]; rfl
    · next hcons => rw [hcons]; rfl
  rw [htake, h, List.drop_drop]

/-- The parser reads the tokens of the list but for the end. -/
theorem scan_eq_tokensOf (text : List Char) :
    Token.scan text false = tokensOf text ++ [.endOfFile (Text.byteLength text)] := by
  obtain ⟨front, heq, hfront⟩ := (Cursor.tokens_laidOut false (Cursor.atStart text)).eq_append
  have hlength : (Cursor.atStart text).textLength = Text.byteLength text := Nat.zero_add _
  have hscan : Token.scan text false = front ++ [.endOfFile (Text.byteLength text)] :=
    hlength ▸ heq
  have hall : ∀ t ∈ front, (!t.isEnd) = true := fun t ht => by rw [hfront t ht]; rfl
  have htokens : tokensOf text = front := by
    rw [tokensOf, hscan, List.filter_append, List.filter_eq_self.2 hall]
    exact List.append_nil _
  rw [hscan, htokens]

/-- **The current token is that of the list**, by the number of those before it. -/
theorem current_of_drop (h : p.upcoming = (tokensOf text).drop k) :
    p.current (.ofText text) = Token.nth text false k := by
  rw [Token.nth, scan_eq_tokensOf, State.current]
  split
  · next hnil =>
    rw [hnil, eq_comm, List.drop_eq_nil_iff] at h
    rw [List.getElem?_append_right h]
    cases k - (tokensOf text).length <;> rfl
  · next t ts hcons =>
    rw [hcons] at h
    have hlt : k < (tokensOf text).length := by
      by_contra hle
      rw [List.drop_eq_nil_of_le (Nat.le_of_not_lt hle)] at h
      cases h
    rw [List.drop_eq_getElem_cons hlt] at h
    rw [List.getElem?_append_left hlt, List.getElem?_eq_getElem hlt]
    exact (List.cons.inj h).1

/-- **The parser at a place in the list of tokens.** Consuming a token gives the one with
the number of the place and leads to the next place. Looking ahead, at the kind of the next
token or at whether a declaration, a cast or a typed binding starts here, leads nowhere. -/
structure StandsAt (text : List Char) (k : Nat) (p : State) : Prop where
  current : (exec advance (.ofText text) p).1 = Token.nth text false k
  moves : (exec advance (.ofText text) p).2.upcoming = (tokensOf text).drop (k + 1)
  peek : exec nextKind (.ofText text) p = ((Token.nth text false (k + 1)).kind, p)
  declaration : (exec startsDeclaration (.ofText text) p).2 = p
  cast : (exec startsCast (.ofText text) p).2 = p
  binding : (exec startsTypedBinding (.ofText text) p).2 = p

theorem StandsAt.of_drop (h : p.upcoming = (tokensOf text).drop k) : StandsAt text k p where
  current := current_of_drop h
  moves := upcoming_take_of_drop h
  peek := by
    rw [← current_of_drop (upcoming_take_of_drop h), State.kind_current]
    rfl
  declaration := startsDeclaration_runs.2.1
  cast := startsCast_runs.2.1
  binding := startsTypedBinding_runs.2.1

end Parser

/-- **Taking back and going back are moves of one cursor over the tokens of a text.** If
tokens are taken back only right after they were given, all replies of a session are those
of the walk over the list of tokens. So where a session is after such requests, neither
reading a token and taking it back nor reading ahead from a kept state and going back to it
changes what is read next. And the parser, in whatever state it has some of the tokens
still to read, stands in the same list and looks ahead without moving. -/
theorem ScanSession.run_walks (source : List Char) (comments : Bool)
    (requests : List ScanRequest)
    (hback : (ScanSession.start source comments).takesBackAtOnce false requests = true) :
    let s := (ScanSession.start source comments).after requests
    (ScanSession.start source comments).run requests
        = TokenWalk.start.run (Token.nth source comments) requests
      ∧ (∀ n, (s.after [.next, .pushBack]).run (List.replicate n .next)
        = s.run (List.replicate n .next))
      ∧ (∀ ahead n, (s.after (.save :: ahead ++ [.restore s.saved.length])).run
          (List.replicate n .next) = s.run (List.replicate n .next))
      ∧ ∀ (k : Nat) (p : Parser.State), p.upcoming = (Parser.tokensOf source).drop k →
        Parser.StandsAt source k p := by
  intro s
  obtain ⟨hreplies, w, given, hs⟩ := (start_follows source comments).run hback
  refine ⟨hreplies, fun n => ?_, fun ahead n => ?_, fun k p hp => .of_drop hp⟩
  · -- the two scanners may differ, but both stand before the same token
    have hpeek := hs.peek.run (takesBackAtOnce_replicate_next _ _ n)
    have hstay := hs.run (takesBackAtOnce_replicate_next _ _ n)
    exact hpeek.1.trans hstay.1.symm
  · exact run_next_congr (scanner_after_restore s ahead) n

/-- A session that takes back a word and the end of the text, and goes back to where it
began after its listing is over. -/
theorem ScanSession.run_walks_word :
    let requests : List ScanRequest :=
      [.save, .next, .pushBack, .list, .list, .pushBack, .list, .restore 0, .next]
    let start := ScanSession.start "a".toList false
    let s := start.after requests
    start.takesBackAtOnce false requests = true
      ∧ start.run requests = TokenWalk.start.run (Token.nth "a".toList false) requests
      ∧ (∀ n, (s.after [.next, .pushBack]).run (List.replicate n .next)
        = s.run (List.replicate n .next))
      ∧ (∀ ahead n, (s.after (.save :: ahead ++ [.restore s.saved.length])).run
          (List.replicate n .next) = s.run (List.replicate n .next))
      ∧ ∀ (k : Nat) (p : Parser.State), p.upcoming = (Parser.tokensOf "a".toList).drop k →
        Parser.StandsAt "a".toList k p := by
  intro requests start s
  have hback : start.takesBackAtOnce false requests = true := by cbv
  exact ⟨hback, ScanSession.run_walks "a".toList false requests hback⟩

end ScriptLens
