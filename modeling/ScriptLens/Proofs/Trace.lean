import ScriptLens.Proofs.TokenOrder
import ScriptLens.Proofs.TypeSlots

/-!
# What a run of the parser consists of

Whatever the parser parses, it does it in steps of few kinds: it consumes a
token, reports that something is absent, or completes a node of the nodes that
were completed since it began. `Passes r s ns s'` says that such steps lead from
the state `s` to the state `s'` and leave the nodes `ns`, in source order;
`Completes r s n s'` says that they leave the single node `n`, which began where
they did and accounts for all of them.

Neither relation knows the grammar. They are what spans, the numbering of nodes
and the list of problems depend on, whatever the construct is, so each of these
is settled by one induction on them. The first is here: a run only ever moves ahead
(`Passes.later`).

## What a node has to be

A construct is only completed of parts that fit it (`Payload.PartsFit`), and what it says
has to be borne out by the tokens that the run consumes (`Attested`): the brace of a block
is one of them, its word is spelled by one of them, and its list covers what stands in it.
The functions of the parser see to that when they complete a node; a fact about the nodes
of a text is then read off this one step.

## Where a node begins

A node begins where its construct begins. Two kinds of nodes are completed at
another offset, that of their operator, and reach back because a node covers its
parts: `Starts` allows any start between the two ends of the run, as long as
some part begins where the run does.
-/

namespace ScriptLens

namespace Payload

/-- The word that a construct is: a name, or the name of a type. -/
def word? : Payload Node → Option String
  | .identifier name => some name
  | .typeName (.named name) _ => some name
  | _ => none

/-- The list between parentheses that a construct has: parameters, or arguments. -/
def list? : Payload Node → Option (ArgumentList Node)
  | .functionDeclaration _ _ _ _ parameters _ => some parameters
  | .call _ arguments => some arguments
  | .newObject _ arguments => arguments
  | _ => none

/-- The items of the list of a construct are parts of it. -/
theorem mem_children_of_mem_list? {payload : Payload Node} {list : ArgumentList Node} {n : Node}
    (h : payload.list? = some list) (hn : n ∈ list.items) : n ∈ payload.children := by
  unfold list? at h
  split at h
  · obtain rfl := Option.some.inj h
    simp [children, hn]
  · obtain rfl := Option.some.inj h
    simp [children, hn]
  · simp [children, h, hn]
  · cases h

end Payload

namespace Parser

namespace State

/-- The number of problems found so far. -/
def reports (s : State) : Nat := s.diagnostics.size

/-- The kinds of the tokens that are not consumed yet. -/
def kinds (s : State) : List TokenKind := s.upcoming.map Token.kind

/-- **The upcoming tokens are in order** behind the last consumed one. -/
def Fits (r : Setting) (s : State) : Prop :=
  Token.InOrder s.previousEnd s.upcoming r.length

theorem upcoming_ne_nil {s : State} (h : s.kind ≠ .endOfFile) : s.upcoming ≠ [] := by
  intro hnil
  exact h (by rw [kind, hnil])

theorem take_eq {s : State} {t : Token} {ts : List Token} (h : s.upcoming = t :: ts) :
    s.take = { s with upcoming := ts, previousEnd := t.span.stop } := by
  rw [take]
  split
  · next heq => simp [heq] at h
  · next heq =>
    obtain ⟨rfl, rfl⟩ := List.cons.inj (heq.symm.trans h)
    rfl

theorem upcoming_take {s : State} {t : Token} {ts : List Token} (h : s.upcoming = t :: ts) :
    s.take.upcoming = ts := by
  rw [take_eq h]

theorem kinds_eq {s : State} (h : s.kind ≠ .endOfFile) : s.kinds = s.kind :: s.take.kinds := by
  obtain ⟨t, ts, hts⟩ := List.exists_cons_of_ne_nil (upcoming_ne_nil h)
  rw [kinds, kinds, upcoming_take hts, kind, hts]
  rfl

/-- Consuming a token leaves fewer. -/
theorem length_take {s : State} {kind : TokenKind} (h : s.kind = kind)
    (hk : kind ≠ .endOfFile) : s.take.upcoming.length < s.upcoming.length := by
  obtain ⟨t, ts, hts⟩ := List.exists_cons_of_ne_nil (upcoming_ne_nil (h ▸ hk))
  rw [upcoming_take hts, hts]
  exact Nat.lt_succ_self _

theorem length_take_mark {s : State} {mark : Punctuation} (h : s.kind = .punctuation mark) :
    s.take.upcoming.length < s.upcoming.length :=
  length_take h nofun

theorem current_mem (r : Setting) {s : State} (h : s.kind ≠ .endOfFile) :
    s.current r ∈ s.upcoming := by
  obtain ⟨t, ts, hts⟩ := List.exists_cons_of_ne_nil (upcoming_ne_nil h)
  rw [current, hts]
  exact List.mem_cons_self

theorem kind_current (r : Setting) (s : State) : (s.current r).kind = s.kind := by
  rw [current, kind]
  split <;> rfl

theorem start_current (r : Setting) (s : State) : (s.current r).span.start = s.position r := by
  rw [current, position]
  split <;> rfl

@[simp] theorem reports_take (s : State) : s.take.reports = s.reports := by
  rw [take]
  split <;> rfl

@[simp] theorem reports_note (s : State) (d : ParseDiagnostic) :
    (s.note d).reports = s.reports + 1 :=
  Array.size_push _

end State

/-! ## Moving ahead -/

/-- **A later state of the same parse**: some of the tokens are consumed, and the
construct is at the same depth. -/
structure Later (s s' : State) : Prop where
  consumed : ∃ tokens, s.upcoming = tokens ++ s'.upcoming
    ∧ s'.previousEnd = Token.endOf s.previousEnd tokens
  reports : s.reports ≤ s'.reports
  depth : s'.depth = s.depth

namespace Later

variable {r : Setting} {s s₁ s' : State}

theorem refl (s : State) : Later s s := ⟨⟨[], rfl, rfl⟩, Nat.le_refl _, rfl⟩

theorem trans (h : Later s s₁) (h' : Later s₁ s') : Later s s' := by
  obtain ⟨ts, hup, hend⟩ := h.consumed
  obtain ⟨ts', hup', hend'⟩ := h'.consumed
  refine ⟨⟨ts ++ ts', ?_, ?_⟩, Nat.le_trans h.reports h'.reports, h'.depth.trans h.depth⟩
  · rw [hup, hup', List.append_assoc]
  · rw [hend', hend, Token.endOf, Token.endOf, Token.endOf, List.foldl_append]

theorem take (s : State) (h : s.upcoming ≠ []) : Later s s.take := by
  obtain ⟨t, ts, hts⟩ := List.exists_cons_of_ne_nil h
  rw [State.take_eq hts]
  exact ⟨⟨[t], hts, rfl⟩, Nat.le_refl _, rfl⟩

theorem note (s : State) (d : ParseDiagnostic) : Later s (s.note d) :=
  ⟨⟨[], rfl, rfl⟩, by simp, rfl⟩

theorem count (s : State) : Later s s.count := ⟨⟨[], rfl, rfl⟩, Nat.le_refl _, rfl⟩

/-- What moves ahead one construct further in moves ahead. -/
theorem leave (h : Later s.enter s') : Later s s'.leave := by
  refine ⟨h.consumed, h.reports, ?_⟩
  show s'.depth - 1 = s.depth
  rw [h.depth]
  rfl

theorem upcoming_subset (h : Later s s') : s'.upcoming ⊆ s.upcoming := by
  obtain ⟨past, hup, -⟩ := h.consumed
  rw [hup]
  exact List.subset_append_right _ _

theorem length_le (h : Later s s') : s'.upcoming.length ≤ s.upcoming.length := by
  obtain ⟨ts, hup, -⟩ := h.consumed
  rw [hup, List.length_append]
  exact Nat.le_add_left _ _

theorem fits (h : Later s s') (hs : s.Fits r) : s'.Fits r := by
  obtain ⟨ts, hup, hend⟩ := h.consumed
  rw [State.Fits, hup] at hs
  rw [State.Fits, hend]
  exact hs.append_right

end Later

namespace State.Fits

variable {r : Setting} {s s' : State}

/-- The last consumed token ends before the current one starts. -/
theorem previousEnd_le (h : s.Fits r) : s.previousEnd ≤ s.position r := by
  unfold Fits at h
  rw [position]
  split
  · next heq =>
    rw [heq] at h
    exact h
  · next heq =>
    rw [heq] at h
    exact h.1

/-- At the end of the text no token is left. -/
theorem upcoming_eq_nil (h : s.Fits r) (hkind : s.kind = .endOfFile) : s.upcoming = [] := by
  unfold Fits at h
  rw [kind] at hkind
  split at hkind
  · next heq => exact heq
  · next heq =>
    rw [heq] at h
    exact absurd hkind h.2.2.1

theorem position_le_length (h : s.Fits r) : s.position r ≤ r.length := by
  unfold Fits at h
  rw [position]
  split
  · exact Nat.le_refl _
  · next heq =>
    rw [heq] at h
    exact Nat.le_trans (Nat.le_of_lt h.2.1) h.2.2.2.le

/-- Consuming a token moves the position to its end or behind it. -/
theorem position_lt_of_consumed (h : s.Fits r) {t : Token} {ts : List Token}
    (hup : s.upcoming = t :: ts ++ s'.upcoming)
    (hend : s'.previousEnd = Token.endOf s.previousEnd (t :: ts)) :
    s.position r < s'.previousEnd := by
  unfold Fits at h
  rw [hup] at h
  have hstart : s.position r = t.span.start := by rw [position, hup]; rfl
  have hle : t.span.stop ≤ Token.endOf t.span.stop ts := h.2.2.2.le_endOf
  rw [hstart, hend]
  exact Nat.lt_of_lt_of_le h.2.1 hle

theorem position_lt_previousEnd (h : s.Fits r) (hl : Later s s')
    (hlt : s'.upcoming.length < s.upcoming.length) : s.position r < s'.previousEnd := by
  obtain ⟨ts, hup, hend⟩ := hl.consumed
  cases ts with
  | nil =>
    rw [hup] at hlt
    exact absurd hlt (Nat.lt_irrefl _)
  | cons t ts => exact h.position_lt_of_consumed hup hend

theorem position_lt_previousEnd_take {kind : TokenKind} (h : s.Fits r) (hkind : s.kind = kind)
    (hk : kind ≠ .endOfFile) : s.position r < s.take.previousEnd :=
  h.position_lt_previousEnd (Later.take s (upcoming_ne_nil (hkind ▸ hk))) (length_take hkind hk)

theorem position_lt (h : s.Fits r) (hl : Later s s')
    (hlt : s'.upcoming.length < s.upcoming.length) : s.position r < s'.position r :=
  Nat.lt_of_lt_of_le (h.position_lt_previousEnd hl hlt) (hl.fits h).previousEnd_le

theorem previousEnd_mono (h : s.Fits r) (hl : Later s s') : s.previousEnd ≤ s'.previousEnd := by
  obtain ⟨ts, hup, hend⟩ := hl.consumed
  rw [Fits, hup] at h
  exact hend ▸ h.le_endOf

theorem position_le (h : s.Fits r) (hl : Later s s') : s.position r ≤ s'.position r := by
  obtain ⟨ts, hup, hend⟩ := hl.consumed
  cases ts with
  | nil =>
    rw [position, position, hup]
    exact Nat.le_refl _
  | cons t ts =>
    exact Nat.le_of_lt
      (Nat.lt_of_lt_of_le (h.position_lt_of_consumed hup hend) (hl.fits h).previousEnd_le)

/-- Where the position stays, no token is consumed. -/
theorem upcoming_eq (h : s.Fits r) (hl : Later s s') (heq : s'.position r = s.position r) :
    s'.upcoming = s.upcoming := by
  obtain ⟨ts, hup, hend⟩ := hl.consumed
  cases ts with
  | nil => exact hup.symm
  | cons t ts =>
    have hlt := h.position_lt_of_consumed hup hend
    have hle := (hl.fits h).previousEnd_le
    omega

/-- The upcoming tokens start at the position or behind it. -/
theorem position_le_start (h : s.Fits r) {t : Token} (ht : t ∈ s.upcoming) :
    s.position r ≤ t.span.start := by
  unfold Fits at h
  rw [position]
  split
  · next heq =>
    rw [heq] at ht
    cases ht
  · next heq =>
    rw [heq] at h ht
    rcases List.mem_cons.1 ht with rfl | ht
    · exact Nat.le_refl _
    · exact Nat.le_trans (Nat.le_of_lt h.2.1) (h.2.2.2.mem ht).1

end State.Fits

/-! ## Places in a text -/

/-- **A place between tokens**: some of the tokens are consumed and the others are
upcoming. Every state that a parse of these tokens comes to is at such a place. -/
def State.At (tokens : List Token) (s : State) : Prop :=
  ∃ past, tokens = past ++ s.upcoming ∧ s.previousEnd = Token.endOf 0 past

namespace State.At

variable {r : Setting} {s s' : State} {tokens : List Token}

theorem ofTokens (tokens : List Token) : (State.ofTokens tokens).At tokens := ⟨[], rfl, rfl⟩

theorem later (h : s.At tokens) (hl : Later s s') : s'.At tokens := by
  obtain ⟨past, heq, hend⟩ := h
  obtain ⟨ts, hup, hend'⟩ := hl.consumed
  refine ⟨past ++ ts, by rw [heq, hup, List.append_assoc], ?_⟩
  rw [hend', hend, Token.endOf, Token.endOf, Token.endOf, List.foldl_append]

theorem fits (h : s.At tokens) (hin : Token.InOrder 0 tokens r.length) : s.Fits r := by
  obtain ⟨past, heq, hend⟩ := h
  rw [heq] at hin
  rw [Fits, hend]
  exact hin.append_right

end State.At

/-! ## The steps of a run -/

/-- Where a node may be said to start that a run from `s` to `s'` completes of the
nodes `ns`. -/
def Starts (r : Setting) (s : State) (start : Nat) (ns : List Node) (s' : State) : Prop :=
  start = s.position r
    ∨ s.position r ≤ start ∧ start ≤ s'.position r ∧ ∃ n ∈ ns, n.span.start = s.position r

variable {r : Setting}

/-- **A node with a closing brace of its own**: where the node ends, a closing brace of the
text ends, and it stands behind all parts of the node. -/
def EndsWithBrace (tokens : List Token) (n : Node) : Prop :=
  ∃ t ∈ tokens, t.kind = .punctuation .closeBrace ∧ t.span.stop = n.span.stop
    ∧ ∀ c ∈ n.children, c.span.stop ≤ t.span.start

/-- **A word that some tokens spell**: a token of the kind of an identifier is that word, or
is it behind `::`. Where no name follows, `::` alone is a word too. -/
def WordOf (tokens : List Token) (word : String) : Prop :=
  word = "::" ∨ ∃ t ∈ tokens, t.kind = .identifier
    ∧ (word = t.lexeme.text ∨ word = "::" ++ t.lexeme.text)

/-- **A list that a run goes through**: it lies in what the run consumes, and its items start
inside of it. -/
structure GoesThrough (r : Setting) (s : State) (list : ArgumentList Node) (s' : State) :
    Prop where
  start_le : s.position r ≤ list.span.start
  start_lt_stop : list.span.start < list.span.stop
  stop_le : list.span.stop ≤ s'.previousEnd ∨ ∃ n ∈ list.items, list.span.stop = n.span.stop
  le_start : ∀ n ∈ list.items, list.span.start ≤ n.span.start

/-- **A parameter without a name**, which reaches up to where a run stands: a placeholder is
there instead of the name. -/
structure Unnamed (r : Setting) (s : State) (n : Node) : Prop where
  stop_eq : n.span.stop = s.position r
  name : ∃ type name, n.payload = .parameter type name false ∧ name.kind = .missing
    ∧ name.span = .emptyAt (s.position r)

/-- **An item that reaches over the end of its list**: it is the last one and has no name, the
list ends with the last token before it, and the item with the next one. -/
def ReachesOver (r : Setting) (s : State) (list : ArgumentList Node) (n : Node) (s' : State) :
    Prop :=
  list.items.getLast? = some n
    ∧ ∃ s₁, Later s s₁ ∧ Later s₁ s' ∧ list.span.stop = s₁.previousEnd ∧ Unnamed r s₁ n

theorem GoesThrough.mono {s₀ s s' s₁ : State} {list : ArgumentList Node}
    (h : GoesThrough r s list s') (hs₀ : s₀.Fits r) (hl : Later s₀ s) (hl' : Later s s')
    (hl₁ : Later s' s₁) : GoesThrough r s₀ list s₁ := by
  refine ⟨Nat.le_trans (hs₀.position_le hl) h.start_le, h.start_lt_stop, ?_, h.le_start⟩
  exact h.stop_le.imp_left fun hle =>
    Nat.le_trans hle (((hl.trans hl').fits hs₀).previousEnd_mono hl₁)

theorem ReachesOver.mono {s₀ s s' s₁ : State} {list : ArgumentList Node} {n : Node}
    (h : ReachesOver r s list n s') (hl : Later s₀ s) (hl₁ : Later s' s₁) :
    ReachesOver r s₀ list n s₁ := by
  obtain ⟨hlast, s₂, hbefore, hafter, hstop, hn⟩ := h
  exact ⟨hlast, s₂, hl.trans hbefore, hafter.trans hl₁, hstop, hn⟩

/-- **The list of a construct covers its items**, unless a parameter reaches over its end. -/
def CoversItems (r : Setting) (s : State) (payload : Payload Node) (s' : State) : Prop :=
  ∀ list, payload.list? = some list → GoesThrough r s list s'
    ∧ ∀ n ∈ list.items, n.span.stop ≤ list.span.stop
      ∨ payload.kind = .functionDeclaration ∧ ReachesOver r s list n s'

/-- **What bears out a node** that a run from `s` to `s'` completes: a block has its brace, a
word is one of the text, and a list covers its items. -/
structure Attested (r : Setting) (s : State) (start : Nat) (payload : Payload Node)
    (s' : State) : Prop where
  brace : payload.kind = .block → EndsWithBrace s.upcoming
    ⟨s'.nodeCount, spanOver start s'.previousEnd payload.children, payload⟩
  word : ∀ word, payload.word? = some word → WordOf s.upcoming word
  list : CoversItems r s payload s'

mutual

/-- **Steps that leave nodes**: from one state to another, with the nodes that
are completed in between and are no part of one another. -/
inductive Passes (r : Setting) : State → List Node → State → Prop
  | nil (s : State) : Passes r s [] s
  /-- A token is consumed. -/
  | take {s s' : State} {ns : List Node} :
    s.upcoming ≠ [] → Passes r s.take ns s' → Passes r s ns s'
  /-- Something is absent. -/
  | report {s s' : State} {ns : List Node} (message : String) :
    Passes r (s.note ⟨s.position r, 0, message⟩) ns s' → Passes r s ns s'
  /-- A node is completed. -/
  | child {s s₁ s' : State} {n : Node} {ns : List Node} :
    Completes r s n s₁ → Passes r s₁ ns s' → Passes r s (n :: ns) s'

/-- **Steps that complete one node.** -/
inductive Completes (r : Setting) : State → Node → State → Prop
  /-- A placeholder for a construct that is absent. -/
  | missing {s : State} (message : String) (expected : Option Expected) :
    Completes r s ⟨s.nodeCount, .emptyAt (s.position r), .missing message expected⟩
      (s.note ⟨s.position r, 0, message⟩).count
  /-- A placeholder for a token that cannot stand where it stands. -/
  | wrong {s : State} {t : Token} {ts : List Token} (message : String)
      (expected : Option Expected) :
    s.upcoming = t :: ts →
      Completes r s ⟨s.take.nodeCount, t.span, .wrong message expected⟩
        (s.take.note ⟨t.span.start, t.span.length, message⟩).count
  /-- A construct of the nodes that its parts left, which fit it. The tokens bear it out. -/
  | finish {s s' : State} {start : Nat} {payload : Payload Node} :
    payload.kind.isSentinel = false → payload.PartsFit → Attested r s start payload s' →
    Passes r s payload.children s' → Starts r s start payload.children s' →
      Completes r s ⟨s'.nodeCount, spanOver start s'.previousEnd payload.children, payload⟩
        s'.count
  /-- A block that is still open at the end of the text. -/
  | openBlock {s s' : State} {statements : List Node} :
    Passes r s statements s' → s'.upcoming = [] →
      Completes r s
        ⟨s'.nodeCount, ⟨(spanOver (s.position r) s'.previousEnd statements).start,
          max (spanOver (s.position r) s'.previousEnd statements).stop r.length⟩,
          .block statements⟩ s'.count
  /-- A construct one level further in. -/
  | nested {s s' : State} {n : Node} :
    s.depth < nestingLimit → Completes r s.enter n s' → Completes r s n s'.leave

end

theorem Passes.append {s s₁ s' : State} {ns ms : List Node} :
    Passes r s ns s₁ → Passes r s₁ ms s' → Passes r s (ns ++ ms) s'
  | .nil _, h => h
  | .take hne hp, h => .take hne (hp.append h)
  | .report message hp, h => .report message (hp.append h)
  | .child hc hp, h => .child hc (hp.append h)

theorem Completes.passes {s s' : State} {n : Node} (h : Completes r s n s') :
    Passes r s [n] s' :=
  .child h (.nil s')

mutual

/-- **Steps only move ahead.** -/
theorem Passes.later {s s' : State} {ns : List Node} : Passes r s ns s' → Later s s'
  | .nil s => .refl s
  | .take hne hp => (Later.take _ hne).trans hp.later
  | .report _ hp => (Later.note _ _).trans hp.later
  | .child hc hp => hc.later.trans hp.later

theorem Completes.later {s s' : State} {n : Node} : Completes r s n s' → Later s s'
  | .missing _ _ => (Later.note _ _).trans (.count _)
  | .wrong _ _ hup =>
    (Later.take _ (by rw [hup]; exact List.cons_ne_nil _ _)).trans
      ((Later.note _ _).trans (.count _))
  | .finish _ _ _ hp _ => hp.later.trans (.count _)
  | .openBlock hp _ => hp.later.trans (.count _)
  | .nested _ hc => hc.later.leave

end

end Parser

end ScriptLens
