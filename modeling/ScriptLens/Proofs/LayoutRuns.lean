import ScriptLens.Proofs.Layout

/-!
# Runs that lay out names and scopes

Every construct that the parser completes is laid out as `Laid` says, and blocks are
inside each other only as deeply as statements may be. Both come from one pass over
the functions that parse declarations and statements; this is what the pass needs.

Most of the functions only put parts together that can stand anywhere. For these nothing
has to be known of the states in between but that the parser moves ahead, and the
judgement `Keeps` says no more than that: from every place in a text with room for what
is inside, the step moves ahead and gives a value that satisfies `Q`.

## Depth

Only statements count as nested. A declaration in a class does not, nor does the body
of a function inside its declaration, and still blocks are bounded: a block stands in
a statement or is the body of a function, and the statements in it are one level
further in (`blocksAt`).
-/

namespace ScriptLens.Parser

open Node

variable {α β : Type} {r : Setting} {tokens : List Token} {bound depth limit : Nat}
  {s s' : State} {n : Node} {i : Inner}

/-! ## Places in a text -/

/-- **A place in a text** with room for what is inside a construct, at some depth. -/
structure Ground (r : Setting) (tokens : List Token) (bound depth : Nat) (s : State) : Prop where
  inOrder : Token.InOrder 0 tokens r.length
  place : s.At tokens
  room : Room r bound s
  depth_eq : s.depth = depth

namespace Ground

theorem later (h : Ground r tokens bound depth s) (hl : Later s s') :
    Ground r tokens bound depth s' :=
  ⟨h.inOrder, h.place.later hl, h.room.later hl, hl.depth.trans h.depth_eq⟩

theorem take {kind : TokenKind} (h : Ground r tokens (bound + 1) depth s) (hkind : s.kind = kind)
    (hk : kind ≠ .endOfFile) : Ground r tokens bound depth s.take :=
  have hl := Later.take s (State.upcoming_ne_nil (hkind ▸ hk))
  ⟨h.inOrder, h.place.later hl, h.room.take hkind hk, hl.depth.trans h.depth_eq⟩

theorem weaken (h : Ground r tokens bound depth s) : Ground r tokens (bound + 1) depth s :=
  ⟨h.inOrder, h.place, h.room.weaken, h.depth_eq⟩

theorem enter (h : Ground r tokens bound depth s) : Ground r tokens bound (depth + 1) s.enter :=
  ⟨h.inOrder, h.place, h.room.enter, congrArg (· + 1) h.depth_eq⟩

/-- A brace that is the current token stands at the current position. -/
theorem braceAt (h : Ground r tokens bound depth s) (hkind : s.kind = .punctuation .openBrace) :
    BraceAt tokens (s.position r) := by
  obtain ⟨past, heq, -⟩ := h.place
  obtain ⟨t, ts, hup⟩ :=
    List.exists_cons_of_ne_nil (State.upcoming_ne_nil (s := s) (by rw [hkind]; nofun))
  refine ⟨t, by rw [heq, hup]; exact List.mem_append_right _ List.mem_cons_self, ?_, ?_⟩
  · rwa [State.kind, hup] at hkind
  · rw [State.position, hup]

/-- A brace between the last consumed token and the current one is the current one. -/
theorem kind_eq_of_braceAt (h : Ground r tokens bound depth s) {offset : Nat}
    (hlow : s.previousEnd ≤ offset) (hup : offset ≤ s.position r)
    (hbrace : BraceAt tokens offset) : s.kind = .punctuation .openBrace := by
  obtain ⟨t, ht, hkind, rfl⟩ := hbrace
  obtain ⟨past, heq, hend⟩ := h.place
  have hin := h.inOrder
  rw [heq] at hin ht
  rcases List.mem_append.1 ht with ht | ht
  · have hbefore := hin.append_left.mem ht
    omega
  · have hfits := h.room.fits
    unfold State.Fits at hfits
    cases hupcoming : s.upcoming with
    | nil =>
      rw [hupcoming] at ht
      cases ht
    | cons u us =>
      rw [hupcoming] at ht hfits
      rcases List.mem_cons.1 ht with rfl | ht
      · rwa [State.kind, hupcoming]
      · have hbehind := (hfits.2.2.2.mem ht).1
        have hwidth := hfits.2.1
        rw [State.position, hupcoming] at hup
        exact absurd hup (Nat.not_le.2 (Nat.lt_of_lt_of_le hwidth hbehind))

end Ground

theorem Later.previousEnd_le (h : Later s s') (hs : s.Fits r) : s.previousEnd ≤ s'.previousEnd := by
  obtain ⟨ts, hup, hend⟩ := h.consumed
  rw [State.Fits, hup] at hs
  rw [hend]
  exact hs.le_endOf

/-- Consuming a token moves the end of what is consumed behind the position. -/
theorem Later.position_lt_previousEnd (h : Later s s') (hs : s.Fits r)
    (hlt : s'.upcoming.length < s.upcoming.length) : s.position r < s'.previousEnd := by
  obtain ⟨ts, hup, hend⟩ := h.consumed
  cases ts with
  | nil =>
    rw [hup] at hlt
    exact absurd hlt (Nat.lt_irrefl _)
  | cons t ts => exact hs.position_lt_of_consumed hup hend

/-- Where no token is consumed, the current one stays. -/
theorem Later.kind_eq (h : Later s s') (hle : s.upcoming.length ≤ s'.upcoming.length) :
    s'.kind = s.kind := by
  obtain ⟨ts, hup, -⟩ := h.consumed
  rw [hup, List.length_append] at hle
  obtain rfl : ts = [] := List.length_eq_zero_iff.1 (by omega)
  rw [State.kind, State.kind, hup]
  rfl

theorem State.Fits.position_lt_take {kind : TokenKind} (hs : s.Fits r) (hkind : s.kind = kind)
    (hk : kind ≠ .endOfFile) : s.position r < s.take.position r :=
  hs.position_lt (Later.take s (State.upcoming_ne_nil (hkind ▸ hk))) (State.length_take hkind hk)

/-- The nodes that a step leaves start at its position or behind it. -/
theorem Gives.position_le_start {ns : List Node} {L : Language TokenKind}
    (h : Gives r s ns L s') (hs : s.Fits r) (hn : n ∈ ns) : s.position r ≤ n.span.start :=
  ((h.passes.inOrder hs).1.mem hn).1

/-- A construct that consumes a token is not empty. -/
theorem Parses.start_lt_stop {P : Grammar.Phrase} (h : Parses r P s n s') (hs : s.Fits r)
    (hlt : s'.upcoming.length < s.upcoming.length) : n.span.start < n.span.stop := by
  have hspan := h.completes.span hs
  rw [hspan.start_eq]
  exact Nat.lt_of_lt_of_le (h.later.position_lt_previousEnd hs hlt) hspan.previousEnd_le

/-- Before a token that no absent construct can stand before, a construct has
consumed something. -/
theorem Parses.position_lt {P : Grammar.Phrase} (h : Parses r P s n s') (hs : s.Fits r)
    (hP : mustMove P s'.kind = true) : s.position r < s'.position r := by
  rcases Nat.lt_or_ge s'.upcoming.length s.upcoming.length with hlt | hge
  · exact hs.position_lt h.later hlt
  · rw [h.later.kind_eq hge] at hP
    exact absurd (h.moves hP) (Nat.not_lt.2 hge)

/-! ## Steps from any place -/

/-- A step that only moves ahead. -/
class Advances (m : Parse α) : Prop where
  later : ∀ r s, Later s (exec m r s).2

section Advances

theorem Later.of_take (s : State) : Later s s.take := by
  cases hup : s.upcoming with
  | nil =>
    rw [State.take, hup]
    exact .refl s
  | cons t ts => exact .take s (by rw [hup]; exact List.cons_ne_nil _ _)

instance : Advances currentKind := ⟨fun _ s => .refl s⟩
instance : Advances position := ⟨fun _ s => .refl s⟩
instance : Advances startsDeclaration := ⟨fun _ s => .refl s⟩
instance : Advances advance := ⟨fun _ s => .of_take s⟩
instance {mark : Punctuation} : Advances (seesMark mark) := ⟨fun _ s => .refl s⟩
instance : Advances seesEnd := ⟨fun _ s => .refl s⟩
instance {message : String} : Advances (reportHere message) := ⟨fun _ s => .note s _⟩

instance {kind : TokenKind} : Advances (accept kind) := by
  refine ⟨fun r s => ?_⟩
  rw [exec_accept]
  split
  · exact .of_take s
  · exact .refl s

instance {kind : TokenKind} : Advances (require kind) := by
  refine ⟨fun r s => ?_⟩
  rw [exec_require]
  split
  · exact .of_take s
  · exact .note s _

instance {mark : Punctuation} : Advances (acceptMark mark) := inferInstanceAs (Advances (accept _))
instance {word : Keyword} : Advances (acceptWord word) := inferInstanceAs (Advances (accept _))
instance {mark : Punctuation} : Advances (requireMark mark) :=
  inferInstanceAs (Advances (require _))

end Advances

/-- **From every place a step moves ahead** and gives a value that satisfies `Q`. -/
def Keeps (r : Setting) (tokens : List Token) (bound depth : Nat) (m : Parse α) (Q : α → Prop) :
    Prop :=
  ∀ s, Ground r tokens bound depth s → Runs m m r s fun a s' => Later s s' ∧ Q a

namespace Keeps

variable {m m' : Parse α} {f : α → Parse β} {P : α → Prop} {Q : β → Prop}

theorem pure {a : α} (h : P a) : Keeps r tokens bound depth (pure a) P :=
  fun s _ => .pure ⟨.refl s, h⟩

theorem bind (h : Keeps r tokens bound depth m P)
    (k : ∀ a, P a → Keeps r tokens bound depth (f a) Q) :
    Keeps r tokens bound depth (m >>= f) Q := by
  intro s hs
  refine (h s hs).bind fun a s₁ ⟨hlater, ha⟩ => (k a ha s₁ (hs.later hlater)).mono ?_
  exact fun b s₂ ⟨hlater', hb⟩ => ⟨hlater.trans hlater', hb⟩

/-- A step of whose value nothing needs to be known comes first. -/
theorem skip [hm : Advances m] (k : ∀ a, Keeps r tokens bound depth (f a) Q) :
    Keeps r tokens bound depth (m >>= f) Q :=
  .bind (P := fun _ => True) (fun s _ => ⟨rfl, hm.later r s, trivial⟩) fun a _ => k a

theorem ite {c : Prop} [Decidable c] (hpos : Keeps r tokens bound depth m P)
    (hneg : Keeps r tokens bound depth m' P) :
    Keeps r tokens bound depth (if c then m else m') P := by
  split
  · exact hpos
  · exact hneg

theorem mono {P' : α → Prop} (h : Keeps r tokens bound depth m P) (hP : ∀ a, P a → P' a) :
    Keeps r tokens bound depth m P' :=
  fun s hs => (h s hs).mono fun a _ ha => ⟨ha.1, hP a ha.2⟩

/-- What a step gives from a certain place. -/
theorem run (h : Keeps r tokens bound depth m P) (hs : Ground r tokens bound depth s) :
    Runs m m r s fun a _ => P a :=
  (h s hs).mono fun _ _ ha => ha.2

/-- A step that is known to move ahead where there is room. -/
theorem of_yields (h : ∀ s, Room r bound s → Runs m m r s fun _ s' => Later s s')
    (hy : Yields m P) : Keeps r tokens bound depth m P :=
  fun s hs => ⟨rfl, (h s hs.room).2, hy r s⟩

end Keeps

section Steps

variable {m : Parse Node} {payload : Payload Node} {ns : List Node}

theorem wrong_keeps {message : String} {expected : Option Expected} :
    Keeps r tokens bound depth (wrong message expected) Silent :=
  .of_yields (fun _ _ => wrong_reports.mono fun _ _ h => h.1.later) wrong_quiet

/-- A construct without keys is finished of parts that can stand anywhere. -/
theorem finish_keeps {start : Nat} (hp : payload.kind.isPlain = true)
    (hquiet : payload.kind.hasQuietParts = true → Quiet payload.children)
    (hc : Forms tokens limit payload.children) :
    Keeps r tokens bound depth (finish start payload) (Formed tokens limit) :=
  fun s _ => ⟨rfl, .count s, .of_plain hp hc hquiet⟩

theorem optionally_keeps {test : Parse Bool} [Advances test]
    (h : Keeps r tokens bound depth m (Formed tokens limit)) :
    Keeps r tokens bound depth (optionally test m) fun o => Forms tokens limit o.toList :=
  .skip fun _ => .ite (h.bind fun _ hn => .pure (by simpa using hn)) (.pure (by simp))

theorem unlessAt_keeps {ends : TokenKind → Bool}
    (h : Keeps r tokens bound depth m (Formed tokens limit)) :
    Keeps r tokens bound depth (unlessAt ends m) fun o => Forms tokens limit o.toList :=
  .skip fun _ => .ite (.pure (by simp)) (h.bind fun _ hn => .pure (by simpa using hn))

theorem collect_keeps {step : Parse (List Node × Bool)} {Q : Node → Prop}
    (hsafe : i.safeguard = .standard)
    (hstep : Keeps r tokens bound depth step fun next => ∀ n ∈ next.1, Q n) :
    Keeps r tokens bound depth (i.collect step) fun ns => ∀ n ∈ ns, Q n := by
  unfold Inner.collect
  rw [hsafe]
  generalize i.bound + 1 = rounds
  induction rounds with
  | zero => exact .pure (by simp)
  | succ rounds ih =>
    refine hstep.bind fun next hnext => .ite (ih.bind fun ns hns => .pure ?_) (.pure hnext)
    exact List.forall_mem_append.2 ⟨hnext, hns⟩

theorem standstill_keeps {message : String} (hsafe : i.safeguard = .standard) :
    Keeps r tokens bound depth (i.safeguard.standstill message) (Formed tokens limit) := by
  rw [hsafe]
  exact wrong_keeps.mono fun _ => .of_silent

end Steps

/-! ## What is inside -/

/-- How many blocks can be inside each other in a construct that is parsed at a
depth. -/
def blocksAt (depth : Nat) : Nat := nestingLimit + 1 - depth

theorem blocksAt_succ_le (depth : Nat) : blocksAt (depth + 1) ≤ blocksAt depth :=
  Nat.sub_le_sub_left (Nat.le_succ _) _

/-- A block uses up a level. -/
theorem blocksAt_succ (hd : depth ≤ nestingLimit) : blocksAt (depth + 1) + 1 = blocksAt depth := by
  unfold blocksAt
  omega

/-- **What is inside a construct is laid out.** A statement counts as nested, so it has
one level less for blocks than a declaration in the same place. -/
structure Inner.Lays (r : Setting) (tokens : List Token) (bound : Nat) (i : Inner) : Prop where
  alike : Alike r bound i i
  quiet : i.Quiet
  safe : i.safeguard = .standard
  statement : ∀ depth ≤ nestingLimit,
    Keeps r tokens bound depth (i.parse .statement) (Formed tokens (blocksAt (depth + 1)))
  declaration : ∀ depth ≤ nestingLimit,
    Keeps r tokens bound depth (i.parse .declaration) (Formed tokens (blocksAt depth))

namespace Inner.Lays

theorem silent (H : i.Lays r tokens bound) {goal : Goal} (hgoal : goal.isQuiet = true) :
    Keeps r tokens bound depth (i.parse goal) Silent :=
  .of_yields (fun _ hs => (H.alike.parses goal hs).mono fun _ _ hn => hn.later) (H.quiet goal hgoal)

theorem expression (H : i.Lays r tokens bound) :
    Keeps r tokens bound depth (i.parse .expression) (Formed tokens (blocksAt depth)) :=
  (H.silent rfl).mono fun _ => .of_silent

/-- A statement as a part of a statement at the same depth. -/
theorem branch (H : i.Lays r tokens bound) (hd : depth ≤ nestingLimit) :
    Keeps r tokens bound depth (i.parse .statement) (Formed tokens (blocksAt depth)) :=
  (H.statement depth hd).mono fun _ hn => hn.mono (blocksAt_succ_le depth)

end Inner.Lays

end ScriptLens.Parser
