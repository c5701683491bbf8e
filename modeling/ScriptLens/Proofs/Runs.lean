import Mathlib.Computability.Language
import ScriptLens.Proofs.Grammar
import ScriptLens.Proofs.Spans

/-!
# Reasoning about steps of the parser

`Runs m m' r s Q` is the judgement that everything about the parser is proved
with: the steps `m` and `m'` have the same outcome from the state `s`, and the
outcome satisfies `Q`. The two steps are one and the same function of the
parser, given two different `Inner`s: where these differ only in what no run
comes to, the judgement says that it does not matter. Taken with one `Inner`
twice, it is an ordinary statement about a run.

The outcome of a step is described by `Gives r s ns L s'`. Whatever happens, the
step leaves the nodes `ns` behind (`Passes`). And if it reports nothing, the
kinds of the tokens it consumed form a word of the language `L`. A step that
reports a problem satisfies this for any `L`, so the two ways in which a required
token can turn out need no case distinction: `require_runs`. Languages are
multiplied as steps follow one another, and what a construct finishes is compared
with the rules of the grammar once, at its end: `finish_runs`.

## Room

A construct asks for the constructs inside it only with fewer tokens left than
their bound. `Room r bound s` says so, and every step keeps it.
-/

namespace ScriptLens.Parser

open Grammar

variable {α β : Type} {r : Setting} {s s₁ s' : State}

/-- The value of a step and the state it leads to. -/
def exec (m : Parse α) (r : Setting) (s : State) : α × State := (m.run r).run s

/-- The outcome of a step that follows one whose outcome is known. -/
theorem exec_bind_eq {m : Parse α} {f : α → Parse β} {a : α} (h : exec m r s = (a, s₁)) :
    exec (m >>= f) r s = exec (f a) r s₁ := by
  show exec (f (exec m r s).1) r (exec m r s).2 = _
  rw [h]

/-- **Two steps with the same outcome**, which satisfies `Q`. -/
def Runs (m m' : Parse α) (r : Setting) (s : State) (Q : α → State → Prop) : Prop :=
  exec m r s = exec m' r s ∧ Q (exec m r s).1 (exec m r s).2

namespace Runs

variable {m m' : Parse α} {f f' : α → Parse β} {P : α → State → Prop} {Q : β → State → Prop}

theorem bind (h : Runs m m' r s P) (k : ∀ a s₁, P a s₁ → Runs (f a) (f' a) r s₁ Q) :
    Runs (m >>= f) (m' >>= f') r s Q := by
  obtain ⟨heq, hP⟩ := h
  have hm : exec (m >>= f) r s = exec (f (exec m r s).1) r (exec m r s).2 := rfl
  rw [Runs, hm, exec_bind_eq heq.symm]
  exact k _ _ hP

/-- A step whose outcome is known comes first. -/
theorem step {a : α} (h : exec m r s = (a, s₁)) (k : Runs (f a) (f' a) r s₁ Q) :
    Runs (m >>= f) (m >>= f') r s Q := by
  rwa [Runs, exec_bind_eq h, exec_bind_eq h]

theorem pure {a : α} (h : P a s) : Runs (pure a) (pure a) r s P := ⟨rfl, h⟩

theorem mono {P' : α → State → Prop} (h : Runs m m' r s P) (hP : ∀ a s₁, P a s₁ → P' a s₁) :
    Runs m m' r s P' :=
  ⟨h.1, hP _ _ h.2⟩

theorem ite {b : Bool} {m₂ m₂' : Parse α} (htrue : b = true → Runs m m' r s P)
    (hfalse : b = false → Runs m₂ m₂' r s P) :
    Runs (if b then m else m₂) (if b then m' else m₂') r s P := by
  cases b with
  | true => exact htrue rfl
  | false => exact hfalse rfl

theorem ite_prop {c : Prop} [Decidable c] {m₂ m₂' : Parse α} (hpos : c → Runs m m' r s P)
    (hneg : ¬c → Runs m₂ m₂' r s P) :
    Runs (if c then m else m₂) (if c then m' else m₂') r s P := by
  by_cases h : c
  · rw [if_pos h, if_pos h]
    exact hpos h
  · rw [if_neg h, if_neg h]
    exact hneg h

theorem and {P' : α → State → Prop} (h : Runs m m' r s P) (h' : Runs m m' r s P') :
    Runs m m' r s fun a s' => P a s' ∧ P' a s' :=
  ⟨h.1, h.2, h'.2⟩

/-- The outcome of a step is the one it has. -/
theorem self (h : Runs m m' r s P) :
    Runs m m' r s fun a s' => exec m r s = (a, s') ∧ P a s' :=
  ⟨h.1, rfl, h.2⟩

end Runs

/-! ## What a step yields

Some facts are about the values that the parser's functions give and not about where
they leave the parser. `Yields m Q` says such a fact of a step, whatever the state. -/

/-- **Every run of a step gives a value** that satisfies `Q`. -/
def Yields (m : Parse α) (Q : α → Prop) : Prop := ∀ r s, Q (exec m r s).1

namespace Yields

variable {m m' : Parse α} {f : α → Parse β} {P : α → Prop} {Q : β → Prop}

theorem pure {a : α} (h : P a) : Yields (pure a) P := fun _ _ => h

theorem bind (h : Yields m P) (k : ∀ a, P a → Yields (f a) Q) : Yields (m >>= f) Q :=
  fun r s => k _ (h r s) r (exec m r s).2

/-- A step of whose value nothing needs to be known comes first. -/
theorem skip (k : ∀ a, Yields (f a) Q) : Yields (m >>= f) Q := fun r s => k _ r (exec m r s).2

theorem ite {c : Prop} [Decidable c] (hpos : Yields m P) (hneg : Yields m' P) :
    Yields (if c then m else m') P := by
  split
  · exact hpos
  · exact hneg

end Yields

/-- What a run comes to, and what it yields from any state. -/
theorem Runs.yields {m m' : Parse α} {P : α → State → Prop}
    {Q : α → Prop} (h : Runs m m' r s P) (hy : Yields m Q) :
    Runs m m' r s fun a s' => P a s' ∧ Q a :=
  ⟨h.1, h.2, hy r s⟩

/-- A repetition keeps what each round keeps. -/
theorem iterate_yields {σ : Type} {atBound : Parse Unit} {step : σ → Parse (σ × Bool)}
    {I : σ → Prop} (hstep : ∀ value, I value → Yields (step value) fun next => I next.1)
    (bound : Nat) {value : σ} (h : I value) : Yields (iterate atBound step bound value) I := by
  induction bound generalizing value with
  | zero => exact .skip fun _ => .pure h
  | succ bound ih => exact (hstep value h).bind fun next hnext => .ite (ih hnext) (.pure hnext)

/-- A repetition that lists nodes gives nodes as each round does. -/
theorem collect_yields {atBound : Parse Unit} {step : Parse (List Node × Bool)}
    {Q : Node → Prop} (hstep : Yields step fun next => ∀ n ∈ next.1, Q n) (bound : Nat) :
    Yields (collect atBound step bound) fun ns => ∀ n ∈ ns, Q n := by
  induction bound with
  | zero => exact .skip fun _ => .pure nofun
  | succ bound ih =>
    refine hstep.bind fun next hnext => .ite (ih.bind fun ns hns => .pure ?_) (.pure hnext)
    exact List.forall_mem_append.2 ⟨hnext, hns⟩

/-! What holds of every placeholder holds of what is given in place of a construct. -/

section Placeholders

variable {Q : Node → Prop} {message : String}

theorem missing_yields {expected : Option Expected}
    (h : ∀ n : Node, n.kind.isSentinel = true → Q n) : Yields (missing message expected) Q :=
  fun _ _ => h _ rfl

theorem wrong_yields {expected : Option Expected}
    (h : ∀ n : Node, n.kind.isSentinel = true → Q n) : Yields (wrong message expected) Q :=
  .skip fun _ => .ite (missing_yields h) fun _ _ => h _ rfl

theorem missingOrWrong_yields {expected : Expected}
    (h : ∀ n : Node, n.kind.isSentinel = true → Q n) :
    Yields (missingOrWrong message expected) Q :=
  .skip fun _ => .ite (missing_yields h) (wrong_yields h)

theorem nested_yields {m : Parse Node} (h : ∀ n : Node, n.kind.isSentinel = true → Q n)
    (hm : Yields m Q) : Yields (nested m) Q :=
  .skip fun _ => .ite (wrong_yields h)
    (.skip fun _ => hm.bind fun _ hn => .skip fun _ => .pure hn)

end Placeholders

/-- A construct that is finished is what it was finished as. -/
theorem finish_yields {start : Nat} {payload : Payload Node} :
    Yields (finish start payload) fun n => n.payload = payload :=
  fun _ _ => rfl

/-! ## Steps that only look

Each of them leaves the state as it is, and what follows goes on with what it
saw. -/

section Look

variable {Q : β → State → Prop}

theorem Runs.current {f f' : Token → Parse β}
    (k : Runs (f (s.current r)) (f' (s.current r)) r s Q) :
    Runs (Parser.current >>= f) (Parser.current >>= f') r s Q :=
  step (m := Parser.current) rfl k

theorem Runs.currentKind {f f' : TokenKind → Parse β}
    (k : Runs (f s.kind) (f' s.kind) r s Q) :
    Runs (Parser.currentKind >>= f) (Parser.currentKind >>= f') r s Q :=
  step (m := Parser.currentKind) rfl k

theorem Runs.nextKind {f f' : TokenKind → Parse β}
    (k : Runs (f s.take.kind) (f' s.take.kind) r s Q) :
    Runs (Parser.nextKind >>= f) (Parser.nextKind >>= f') r s Q :=
  step (m := Parser.nextKind) rfl k

theorem Runs.position {f f' : Nat → Parse β}
    (k : Runs (f (s.position r)) (f' (s.position r)) r s Q) :
    Runs (Parser.position >>= f) (Parser.position >>= f') r s Q :=
  step (m := Parser.position) rfl k

theorem Runs.get {f f' : State → Parse β} (k : Runs (f s) (f' s) r s Q) :
    Runs (MonadState.get >>= f) (MonadState.get >>= f') r s Q :=
  step (m := MonadState.get) rfl k

theorem Runs.read {f f' : Setting → Parse β} (k : Runs (f r) (f' r) r s Q) :
    Runs (MonadReader.read >>= f) (MonadReader.read >>= f') r s Q :=
  step (m := MonadReader.read) rfl k

theorem Runs.sees {kind : TokenKind} {f f' : Bool → Parse β}
    (yes : s.kind = kind → Runs (f true) (f' true) r s Q)
    (no : s.kind ≠ kind → Runs (f false) (f' false) r s Q) :
    Runs (Parser.sees kind >>= f) (Parser.sees kind >>= f') r s Q := by
  refine step (m := Parser.sees kind) (a := s.kind == kind) rfl ?_
  by_cases h : s.kind = kind
  · rw [beq_iff_eq.2 h]
    exact yes h
  · rw [beq_eq_false_iff_ne.2 h]
    exact no h

theorem exec_accept (kind : TokenKind) :
    exec (Parser.accept kind) r s = if s.kind = kind then (true, s.take) else (false, s) := by
  by_cases h : s.kind = kind
  · have hsees : exec (Parser.sees kind) r s = (true, s) := by rw [← beq_iff_eq.2 h]; rfl
    rw [if_pos h, Parser.accept, exec_bind_eq hsees]
    rfl
  · have hsees : exec (Parser.sees kind) r s = (false, s) := by
      rw [← beq_eq_false_iff_ne.2 h]
      rfl
    rw [if_neg h, Parser.accept, exec_bind_eq hsees]
    rfl

theorem exec_require (kind : TokenKind) :
    exec (Parser.require kind) r s = if s.kind = kind then (true, s.take)
      else (false, s.note ⟨s.position r, 0, expectedMessage kind⟩) := by
  have haccept := exec_accept (r := r) (s := s) kind
  by_cases h : s.kind = kind
  · rw [if_pos h] at haccept ⊢
    rw [Parser.require, exec_bind_eq haccept]
    rfl
  · rw [if_neg h] at haccept ⊢
    rw [Parser.require, exec_bind_eq haccept]
    rfl

theorem Runs.accept {kind : TokenKind} {f f' : Bool → Parse β}
    (yes : s.kind = kind → Runs (f true) (f' true) r s.take Q)
    (no : s.kind ≠ kind → Runs (f false) (f' false) r s Q) :
    Runs (Parser.accept kind >>= f) (Parser.accept kind >>= f') r s Q := by
  by_cases h : s.kind = kind
  · exact step (by rw [exec_accept, if_pos h]) (yes h)
  · exact step (by rw [exec_accept, if_neg h]) (no h)

/-- Where a required token is absent, this is recorded. -/
theorem Runs.require {kind : TokenKind} {f f' : Bool → Parse β}
    (yes : s.kind = kind → Runs (f true) (f' true) r s.take Q)
    (no : s.kind ≠ kind →
      Runs (f false) (f' false) r (s.note ⟨s.position r, 0, expectedMessage kind⟩) Q) :
    Runs (Parser.require kind >>= f) (Parser.require kind >>= f') r s Q := by
  by_cases h : s.kind = kind
  · exact step (by rw [exec_require, if_pos h]) (yes h)
  · exact step (by rw [exec_require, if_neg h]) (no h)

end Look

/-! ## What a step leaves behind -/

/-- The words that a rule of the grammar allows. -/
def words (rule : List TokenKind → Prop) : Language TokenKind := {ks | rule ks}

/-- **The outcome of a step**: the nodes it leaves and, unless it reports a
problem, the language that the kinds of the consumed tokens belong to. -/
structure Gives (r : Setting) (s : State) (ns : List Node) (L : Language TokenKind)
    (s' : State) : Prop where
  passes : Passes r s ns s'
  spells : s'.reports ≤ s.reports → ∃ ks ∈ L, s.kinds = ks ++ s'.kinds

namespace Gives

variable {ns ms : List Node} {L M : Language TokenKind}

theorem nil (s : State) : Gives r s [] 1 s := ⟨.nil s, fun _ => ⟨[], rfl, rfl⟩⟩

theorem later (h : Gives r s ns L s') : Later s s' := h.passes.later

/-- One step after another. -/
theorem and (h : Gives r s ns L s₁) (h' : Gives r s₁ ms M s') :
    Gives r s (ns ++ ms) (L * M) s' := by
  refine ⟨h.passes.append h'.passes, fun hquiet => ?_⟩
  have hle := h.later.reports
  have hle' := h'.later.reports
  obtain ⟨ks, hL, hks⟩ := h.spells (Nat.le_trans hle' hquiet)
  obtain ⟨ks', hM, hks'⟩ := h'.spells (Nat.le_trans hquiet hle)
  exact ⟨ks ++ ks', ⟨ks, hL, ks', hM, rfl⟩, by rw [hks, hks', List.append_assoc]⟩

/-- A step that leaves no nodes comes after another. -/
theorem skip (h : Gives r s ns L s₁) (h' : Gives r s₁ [] M s') : Gives r s ns (L * M) s' := by
  have hand := h.and h'
  rwa [List.append_nil] at hand

theorem mono (h : Gives r s ns L s') (hL : ∀ ks ∈ L, ks ∈ M) : Gives r s ns M s' := by
  refine ⟨h.passes, fun hquiet => ?_⟩
  obtain ⟨ks, hks, heq⟩ := h.spells hquiet
  exact ⟨ks, hL ks hks, heq⟩

/-- A step that reports a problem may have consumed anything. -/
theorem of_report (h : Passes r s ns s') (hlt : s.reports < s'.reports) : Gives r s ns L s' :=
  ⟨h, fun hquiet => absurd hlt (Nat.not_lt.2 hquiet)⟩

theorem report (s : State) (message : String) :
    Gives r s [] L (s.note ⟨s.position r, 0, message⟩) :=
  of_report (.report message (.nil _)) (by simp)

theorem take {kind : TokenKind} (h : s.kind = kind) (hk : kind ≠ .endOfFile) :
    Gives r s [] {[kind]} s.take := by
  subst h
  exact ⟨.take (State.upcoming_ne_nil hk) (.nil _),
    fun _ => ⟨[s.kind], rfl, State.kinds_eq hk⟩⟩

theorem mark {mark : Punctuation} (h : s.kind = .punctuation mark) :
    Gives r s [] {[.punctuation mark]} s.take :=
  take h nofun

/-- **A part and a comma**, after which a list of parts goes on. This is a step of
every repetition with commas, whatever the list is. -/
theorem comma {n : Node} {rule : List TokenKind → Prop}
    {list : List Node → List TokenKind → Prop} (hn : Gives r s [n] (words rule) s₁)
    (hk : s₁.kind = .punctuation .comma)
    (hcons : ∀ {ns ks ms}, rule ks → list ns ms →
      list (n :: ns) (ks ++ .punctuation .comma :: ms)) :
    Later s s₁.take ∧ s₁.take.upcoming.length < s.upcoming.length
      ∧ ∀ ns s₂, Gives r s₁.take ns (words (list ns)) s₂ →
        Gives r s ([n] ++ ns) (words (list ([n] ++ ns))) s₂ := by
  have hmark := Gives.mark (r := r) hk
  refine ⟨hn.later.trans hmark.later, ?_, fun ns s₂ hns => (hn.and (hmark.and hns)).mono ?_⟩
  · exact Nat.lt_of_lt_of_le (State.length_take_mark hk) hn.later.length_le
  · rintro _ ⟨ks, hks, _, ⟨_, rfl, ms, hms, rfl⟩, rfl⟩
    exact hcons hks hms

end Gives

/-- **Room for what is inside a construct**: the upcoming tokens are in order and
fewer than the bound. -/
structure Room (r : Setting) (bound : Nat) (s : State) : Prop where
  fits : s.Fits r
  lt : s.upcoming.length < bound

namespace Room

variable {bound : Nat}

theorem later (h : Room r bound s) (hl : Later s s') : Room r bound s' :=
  ⟨hl.fits h.fits, Nat.lt_of_le_of_lt hl.length_le h.lt⟩

theorem gives {ns : List Node} {L : Language TokenKind} (h : Room r bound s)
    (hg : Gives r s ns L s') : Room r bound s' :=
  h.later hg.later

/-- Consuming a token makes room for what is inside. -/
theorem take {kind : TokenKind} (h : Room r (bound + 1) s) (hkind : s.kind = kind)
    (hk : kind ≠ .endOfFile) : Room r bound s.take := by
  have hlater := Later.take s (State.upcoming_ne_nil (hkind ▸ hk))
  exact ⟨hlater.fits h.fits,
    Nat.lt_of_lt_of_le (State.length_take hkind hk) (Nat.le_of_lt_succ h.lt)⟩

theorem weaken (h : Room r bound s) : Room r (bound + 1) s := ⟨h.fits, Nat.lt_succ_of_lt h.lt⟩

theorem enter (h : Room r bound s) : Room r bound s.enter := ⟨h.fits, h.lt⟩

end Room

/-! ## Constructs -/

/-- Whether a construct consumes a token where it is asked for before a token of
a kind. A statement does at any token, a block at its brace, and any other
construct where the token cannot follow it. -/
def mustMove : Phrase → TokenKind → Bool
  | .element, kind | .statement, kind => kind != .endOfFile
  | .block, kind => kind == .punctuation .openBrace
  | _, kind => !isClosing kind

/-- **A construct is parsed**: a node is completed, which is a tree of the phrase
unless a problem is reported. -/
structure Parses (r : Setting) (P : Phrase) (s : State) (n : Node) (s' : State) : Prop where
  completes : Completes r s n s'
  derives : s'.reports ≤ s.reports → ∃ ks, Derives P n ks ∧ s.kinds = ks ++ s'.kinds
  moves : mustMove P s.kind = true → s'.upcoming.length < s.upcoming.length

namespace Parses

variable {P P' : Phrase} {n : Node}

theorem later (h : Parses r P s n s') : Later s s' := h.completes.later

theorem gives (h : Parses r P s n s') : Gives r s [n] (words (Derives P n)) s' :=
  ⟨h.completes.passes, h.derives⟩

/-- A tree of a phrase is one of another phrase that contains it. -/
theorem mono (h : Parses r P s n s') (hd : ∀ ks, Derives P n ks → Derives P' n ks)
    (hm : mustMove P' s.kind = true → mustMove P s.kind = true) : Parses r P' s n s' := by
  refine ⟨h.completes, fun hquiet => ?_, fun hmove => h.moves (hm hmove)⟩
  obtain ⟨ks, hks, heq⟩ := h.derives hquiet
  exact ⟨ks, hd ks hks, heq⟩

end Parses

/-- **Constructs are parsed one after the other**, each of which consumes a
token. -/
inductive ParsesEach (r : Setting) (P : Phrase) : State → List Node → State → Prop
  | nil (s : State) : ParsesEach r P s [] s
  | cons {s s₁ s' : State} {n : Node} {ns : List Node} :
    Parses r P s n s₁ → s₁.upcoming.length < s.upcoming.length → ParsesEach r P s₁ ns s' →
      ParsesEach r P s (n :: ns) s'

namespace ParsesEach

variable {P : Phrase} {ns : List Node}

theorem gives (h : ParsesEach r P s ns s') : Gives r s ns (words (Many (Derives P) ns)) s' := by
  induction h with
  | nil s => exact (Gives.nil s).mono fun ks hks => hks ▸ .nil
  | cons hn _ _ ih =>
    refine (hn.gives.and ih).mono ?_
    rintro _ ⟨ks, hks, ms, hms, rfl⟩
    exact .cons hks hms

theorem later (h : ParsesEach r P s ns s') : Later s s' := h.gives.later

/-- Without constructs nothing happens, and with them tokens are consumed. -/
theorem eq_or_lt (h : ParsesEach r P s ns s') :
    ns = [] ∧ s' = s ∨ s'.upcoming.length < s.upcoming.length := by
  cases h with
  | nil => exact .inl ⟨rfl, rfl⟩
  | cons _ hlt hrest => exact .inr (Nat.lt_of_le_of_lt hrest.later.length_le hlt)

end ParsesEach

theorem mustMove_endOfFile (P : Phrase) : mustMove P .endOfFile = false := by
  cases P <;> rfl

/-- Whether nodes of a kind are finished behind whatever was parsed for them. Placeholders
never are, a block is finished behind its brace, what joins operands has to fit them, what
asks for types has to have them, a word has to be one of the text, and a list has to cover its
items. -/
def endsFreely : NodeKind → Bool
  | .missing | .wrong | .block | .binary | .conditional => false
  | .identifier | .typeName | .call | .newObject => false
  | kind => !kind.asksForTypes

theorem isSentinel_of_endsFreely {kind : NodeKind} (h : endsFreely kind = true) :
    kind.isSentinel = false := by
  cases kind <;> first | rfl | cases h

theorem ne_block_of_endsFreely {kind : NodeKind} (h : endsFreely kind = true) :
    kind ≠ .block := by
  rintro rfl
  cases h

theorem isOperand_of_endsFreely {kind : NodeKind} (h : endsFreely kind = true) :
    kind.isOperand = true := by
  cases kind <;> first | rfl | cases h

theorem asksForTypes_of_endsFreely {kind : NodeKind} (h : endsFreely kind = true) :
    kind.asksForTypes = false := by
  cases kind <;> first | rfl | cases h

theorem word?_of_endsFreely {payload : Payload Node} (h : endsFreely payload.kind = true) :
    payload.word? = none := by
  cases payload <;> first | rfl | cases h

theorem list?_of_endsFreely {payload : Payload Node} (h : endsFreely payload.kind = true) :
    payload.list? = none := by
  cases payload <;> first | rfl | cases h

/-- **What a construct that consists of certain parts needs to be finished** of what was
consumed since `s`: it is neither a placeholder nor a block, its word and its list are borne
out, and its parts fit. -/
structure Finishes (r : Setting) (s : State) (payload : Payload Node) (s₁ : State) : Prop where
  not_sentinel : payload.kind.isSentinel = false
  not_block : payload.kind ≠ .block
  word : ∀ word, payload.word? = some word → WordOf s.upcoming word
  list : CoversItems r s payload s₁
  fits : payload.PartsFit

namespace Finishes

variable {payload : Payload Node}

theorem free (h : endsFreely payload.kind = true) : Finishes r s payload s₁ := by
  refine ⟨isSentinel_of_endsFreely h, ne_block_of_endsFreely h, ?_, ?_,
    .of_isOperand (isOperand_of_endsFreely h), .of_asksForTypes (asksForTypes_of_endsFreely h)⟩
  · rw [word?_of_endsFreely h]
    nofun
  · rw [CoversItems, list?_of_endsFreely h]
    nofun

theorem attested (h : Finishes r s payload s₁) (start : Nat) : Attested r s start payload s₁ :=
  ⟨fun hkind => absurd hkind h.not_block, h.word, h.list⟩

end Finishes

section Complete

variable {P : Phrase} {message : String} {expected : Option Expected}

/-- **A construct is finished** that consists of what was left since `s`. -/
theorem finishes_runs {start : Nat} {payload : Payload Node} {L : Language TokenKind}
    (h : Gives r s payload.children L s₁) (hp : Finishes r s payload s₁)
    (hstart : Starts r s start payload.children s₁)
    (hm : mustMove P s.kind = true → s₁.upcoming.length < s.upcoming.length)
    (hd : ∀ id span, ∀ ks ∈ L, Derives P ⟨id, span, payload⟩ ks) :
    Runs (finish start payload) (finish start payload) r s₁ (Parses r P s) := by
  refine ⟨rfl, .finish hp.not_sentinel hp.fits (hp.attested start) h.passes hstart,
    fun hquiet => ?_, hm⟩
  obtain ⟨ks, hks, heq⟩ := h.spells hquiet
  exact ⟨ks, hd _ _ ks hks, heq⟩

theorem finish_runs {start : Nat} {payload : Payload Node} {L : Language TokenKind}
    (h : Gives r s payload.children L s₁) (hp : endsFreely payload.kind = true)
    (hstart : Starts r s start payload.children s₁)
    (hm : mustMove P s.kind = true → s₁.upcoming.length < s.upcoming.length)
    (hd : ∀ id span, ∀ ks ∈ L, Derives P ⟨id, span, payload⟩ ks) :
    Runs (finish start payload) (finish start payload) r s₁ (Parses r P s) :=
  finishes_runs h (.free hp) hstart hm hd

/-- A construct is finished that a token of a known kind starts. -/
theorem finishes_after_runs {kind : TokenKind} {start : Nat} {payload : Payload Node}
    {L : Language TokenKind} (hkind : s.kind = kind) (hk : kind ≠ .endOfFile)
    (h : Gives r s.take payload.children L s₁) (hp : Finishes r s payload s₁)
    (hstart : start = s.position r)
    (hd : ∀ id span, ∀ ks ∈ L, Derives P ⟨id, span, payload⟩ (kind :: ks)) :
    Runs (finish start payload) (finish start payload) r s₁ (Parses r P s) := by
  refine finishes_runs ((Gives.take hkind hk).and h) hp (.inl hstart) (fun _ => ?_) ?_
  · exact Nat.lt_of_le_of_lt h.later.length_le (State.length_take hkind hk)
  · rintro id span _ ⟨_, rfl, ks, hks, rfl⟩
    exact hd id span ks hks

theorem finish_after_runs {kind : TokenKind} {start : Nat} {payload : Payload Node}
    {L : Language TokenKind} (hkind : s.kind = kind) (hk : kind ≠ .endOfFile)
    (h : Gives r s.take payload.children L s₁) (hp : endsFreely payload.kind = true)
    (hstart : start = s.position r)
    (hd : ∀ id span, ∀ ks ∈ L, Derives P ⟨id, span, payload⟩ (kind :: ks)) :
    Runs (finish start payload) (finish start payload) r s₁ (Parses r P s) :=
  finishes_after_runs hkind hk h (.free hp) hstart hd

/-- Finishing a construct only counts it. -/
theorem finish_counts {start : Nat} {payload : Payload Node} :
    Runs (finish start payload) (finish start payload) r s fun _ s' => s' = s.count :=
  ⟨rfl, rfl⟩

theorem finish_spans {start : Nat} {payload : Payload Node} :
    Runs (finish start payload) (finish start payload) r s fun n s' =>
      s' = s.count ∧ n.payload = payload
        ∧ n.span = spanOver start s.previousEnd payload.children :=
  ⟨rfl, rfl, rfl, rfl⟩

/-- **An operator is applied** to a node that was completed since `s`, in a state
`s₁` in which the operator is yet to be consumed. -/
structure Applied (r : Setting) (P : Phrase) (s s₁ : State) (n : Node) (s' : State) : Prop where
  parses : Parses r P s n s'
  later : Later s₁ s'
  shorter : s'.upcoming.length < s₁.upcoming.length

/-- A construct is finished that consists of a left operand, an operator and what
follows. It starts at its left operand or at its operator. -/
theorem apply_runs {P' : Phrase} {kind : TokenKind} {start : Nat} {payload : Payload Node}
    {left : Node} {rest : List Node} {L : Language TokenKind} {s₂ : State} (hs : s.Fits r)
    (hleft : Parses r P' s left s₁) (hkind : s₁.kind = kind) (hk : kind ≠ .endOfFile)
    (h : Gives r s₁.take rest L s₂) (hp : Finishes r s payload s₂)
    (hc : payload.children = left :: rest)
    (hstart : start = left.span.start ∨ start = s₁.position r)
    (hd : ∀ id span ks, Derives P' left ks → ∀ ms ∈ L,
      Derives P ⟨id, span, payload⟩ (ks ++ kind :: ms)) :
    Runs (finish start payload) (finish start payload) r s₂ (Applied r P s s₁) := by
  have hafter := (Gives.take (r := r) hkind hk).and h
  have hshort := Nat.lt_of_le_of_lt h.later.length_le (State.length_take hkind hk)
  -- the left operand starts where the run does, so the node does, at whichever of the two
  -- places it is said to start
  have hspan := (hleft.completes.span hs).start_eq
  have hparts : Gives r s payload.children (words (Derives P' left) * ({[kind]} * L)) s₂ := by
    rw [hc]
    exact hleft.gives.and hafter
  have hle : s₁.position r ≤ s₂.position r :=
    (hleft.later.fits hs).position_le hafter.later
  have hstart' : Starts r s start payload.children s₂ := by
    rcases hstart with rfl | rfl
    · exact .inl hspan
    · exact .inr ⟨hs.position_le hleft.later, hle, left, by simp [hc], hspan⟩
  refine ((finishes_runs (P := P) hparts hp hstart' (fun _ => ?_) ?_).and finish_counts).mono ?_
  · exact Nat.lt_of_lt_of_le hshort hleft.later.length_le
  · rintro id span _ ⟨ks, hks, _, ⟨_, rfl, ms, hms, rfl⟩, rfl⟩
    exact hd id span ks hks ms hms
  · rintro n s' ⟨hn, rfl⟩
    exact ⟨hn, hafter.later.trans (.count _), hshort⟩

/-- A placeholder comes with a report, so nothing is to be derived. -/
theorem Parses.of_report {n : Node} (h : Completes r s n s') (hlt : s.reports < s'.reports)
    (hm : mustMove P s.kind = true → s'.upcoming.length < s.upcoming.length) :
    Parses r P s n s' :=
  ⟨h, fun hquiet => absurd hlt (Nat.not_lt.2 hquiet), hm⟩

/-- A construct is absent that need not consume anything here. -/
theorem missing_runs (hm : mustMove P s.kind = false) :
    Runs (missing message expected) (missing message expected) r s (Parses r P s) := by
  have hlt : s.reports < (s.note ⟨s.position r, 0, message⟩).count.reports := by
    show s.reports < (s.note ⟨s.position r, 0, message⟩).reports
    simp
  exact ⟨rfl, .of_report (.missing message expected) hlt (by rw [hm]; nofun)⟩

theorem exec_wrong {t : Token} {ts : List Token} (hup : s.upcoming = t :: ts)
    (hk : s.kind ≠ .endOfFile) :
    exec (wrong message expected) r s
      = (⟨s.take.nodeCount, t.span, .wrong message expected⟩,
        (s.take.note ⟨t.span.start, t.span.length, message⟩).count) := by
  have hsees : exec seesEnd r s = (false, s) := by
    rw [← beq_eq_false_iff_ne.2 hk]
    rfl
  have hcurrent : s.current r = t := by rw [State.current, hup]
  have hadvance : exec advance r s = (t, s.take) := by
    rw [← hcurrent]
    rfl
  rw [wrong, exec_bind_eq hsees]
  exact exec_bind_eq hadvance

/-- A token is wrong, unless there is none. This is reported. -/
theorem wrong_reports :
    Runs (wrong message expected) (wrong message expected) r s fun n s' =>
      Completes r s n s' ∧ s.reports < s'.reports
        ∧ (s.kind ≠ .endOfFile → s'.upcoming.length < s.upcoming.length) := by
  by_cases hk : s.kind = .endOfFile
  · have hsees : exec seesEnd r s = (true, s) := by
      rw [← beq_iff_eq.2 hk]
      rfl
    have hlt : s.reports < (s.note ⟨s.position r, 0, message⟩).reports := by simp
    rw [Runs, wrong, exec_bind_eq hsees]
    exact ⟨rfl, .missing message expected, hlt, fun hne => absurd hk hne⟩
  · obtain ⟨t, ts, hup⟩ := List.exists_cons_of_ne_nil (State.upcoming_ne_nil hk)
    have hlt : s.reports < (s.take.note ⟨t.span.start, t.span.length, message⟩).reports := by
      simp
    rw [Runs, exec_wrong hup hk]
    exact ⟨rfl, .wrong message expected hup, hlt, fun _ => State.length_take rfl hk⟩

/-- A token that is wrong is the last one consumed. -/
theorem wrong_ends (hk : s.kind ≠ .endOfFile) :
    Runs (wrong message expected) (wrong message expected) r s fun n s' =>
      n.span.stop ≤ s'.previousEnd := by
  obtain ⟨t, ts, hup⟩ := List.exists_cons_of_ne_nil (State.upcoming_ne_nil hk)
  have hend : s.take.previousEnd = t.span.stop := by rw [State.take_eq hup]
  rw [Runs, exec_wrong hup hk]
  exact ⟨rfl, Nat.le_of_eq hend.symm⟩

theorem wrong_runs :
    Runs (wrong message expected) (wrong message expected) r s (Parses r P s) := by
  refine wrong_reports.mono fun n s' ⟨hcompletes, hlt, hmove⟩ => ?_
  refine .of_report hcompletes hlt fun hmust => hmove fun heq => ?_
  rw [heq, mustMove_endOfFile] at hmust
  cases hmust

/-- A construct does not start here. -/
theorem missingOrWrong_runs {expected : Expected}
    (hm : mustMove P s.kind = !isClosing s.kind) :
    Runs (missingOrWrong message expected) (missingOrWrong message expected) r s
      (Parses r P s) := by
  refine .currentKind (.ite (fun hclosing => missing_runs ?_) fun _ => wrong_runs)
  rw [hm, hclosing]
  rfl

/-- A construct is parsed one level further in, or is too deep. -/
theorem nested_runs {m m' : Parse Node} (h : Runs m m' r s.enter (Parses r P s.enter)) :
    Runs (nested m) (nested m') r s (Parses r P s) := by
  refine .get (.ite_prop (fun _ => wrong_runs) fun hdepth => ?_)
  have henter : exec (modify State.enter) r s = ((), s.enter) := rfl
  refine .step henter (h.bind fun n s₁ hn => ?_)
  have hleave : exec (modify State.leave) r s₁ = ((), s₁.leave) := rfl
  refine .step hleave ?_
  exact .pure ⟨.nested (Nat.not_le.1 hdepth) hn.completes, hn.derives, hn.moves⟩

end Complete

/-! ## Tokens and parts -/

section Parts

variable {kind : TokenKind} {rule : Node → List TokenKind → Prop} {m m' : Parse Node}

/-- A token of a known kind is consumed. -/
theorem advance_runs (h : s.kind = kind) (hk : kind ≠ .endOfFile) :
    Runs advance advance r s
      fun t s' => t = s.current r ∧ s' = s.take ∧ Gives r s [] {[kind]} s' :=
  ⟨rfl, rfl, rfl, .take h hk⟩

/-- **A required token** is consumed or its absence is recorded. -/
theorem require_runs (hk : kind ≠ .endOfFile) :
    Runs (require kind) (require kind) r s fun _ s' => Gives r s [] {[kind]} s' := by
  rw [Runs, exec_require]
  split
  · next h => exact ⟨rfl, .take h hk⟩
  · exact ⟨rfl, .report s _⟩

theorem requireMark_runs {mark : Punctuation} :
    Runs (requireMark mark) (requireMark mark) r s
      fun _ s' => Gives r s [] {[.punctuation mark]} s' :=
  require_runs nofun

/-- A part that a token announces. -/
theorem optionally_accept_runs (hk : kind ≠ .endOfFile)
    (h : s.kind = kind →
      Runs m m' r s.take fun n s' => Gives r s.take [n] (words (rule n)) s') :
    Runs (optionally (accept kind) m) (optionally (accept kind) m') r s
      fun o s' => Gives r s o.toList (words (Optional rule [kind] o)) s' := by
  refine .accept (fun hkind => ?_) fun _ => .pure ?_
  · refine (h hkind).bind fun n s₁ hn => .pure (((Gives.take hkind hk).and hn).mono ?_)
    rintro _ ⟨_, rfl, ks, hks, rfl⟩
    exact .some hks
  · exact (Gives.nil s).mono fun ks hks => hks ▸ .none

/-- A part that a token has to announce. -/
theorem optionally_require_runs (hk : kind ≠ .endOfFile)
    (h : s.kind = kind →
      Runs m m' r s.take fun n s' => Gives r s.take [n] (words (rule n)) s') :
    Runs (optionally (require kind) m) (optionally (require kind) m') r s
      fun o s' => Gives r s o.toList
        (words fun ks => ∃ n ms, o = some n ∧ rule n ms ∧ ks = kind :: ms) s' := by
  refine .require (fun hkind => ?_) fun _ => .pure (.report s _)
  refine (h hkind).bind fun n s₁ hn => .pure (((Gives.take hkind hk).and hn).mono ?_)
  rintro _ ⟨_, rfl, ks, hks, rfl⟩
  exact ⟨n, ks, rfl, hks, rfl⟩

theorem sees_runs :
    Runs (sees kind) (sees kind) r s fun b s' => s' = s ∧ (b = true → s.kind = kind) :=
  ⟨rfl, rfl, beq_iff_eq.1⟩

theorem reportHere_runs {message : String} :
    Runs (reportHere message) (reportHere message) r s fun _ s' => Gives r s [] 0 s' :=
  ⟨rfl, .report s message⟩

/-- A part that is there if a test succeeds which only looks. -/
theorem optionally_look_runs {m m' : Parse α} {test : Parse Bool} {T : Prop}
    {Q : α → State → Prop} (ht : Runs test test r s fun b s' => s' = s ∧ (b = true → T))
    (h : T → Runs m m' r s Q) :
    Runs (optionally test m) (optionally test m') r s
      fun o s' => (o = none ∧ s' = s) ∨ ∃ a, o = some a ∧ Q a s' := by
  refine ht.bind ?_
  rintro b _ ⟨rfl, hb⟩
  refine .ite (fun htrue => ?_) fun _ => .pure (.inl ⟨rfl, rfl⟩)
  exact (h (hb htrue)).bind fun a s₂ ha => .pure (.inr ⟨a, rfl, ha⟩)

/-- A part that is absent before the tokens that end it. -/
theorem unlessAt_runs {ends : TokenKind → Bool}
    (h : ends s.kind = false → Runs m m' r s fun n s' => Gives r s [n] (words (rule n)) s') :
    Runs (unlessAt ends m) (unlessAt ends m') r s
      fun o s' => Gives r s o.toList (words (Optional rule [] o)) s'
        ∧ (o = none → ends s'.kind = true) := by
  refine .currentKind (.ite (fun hends => .pure ⟨?_, fun _ => hends⟩) fun hends => ?_)
  · exact (Gives.nil s).mono fun ks hks => hks ▸ .none
  · exact (h hends).bind fun n s₁ hn => .pure ⟨hn.mono fun ks hks => .some hks, nofun⟩

/-- Parts between braces. -/
theorem braced_runs {parts parts' : Parse (List Node)} {W : List Node → Language TokenKind}
    (h : s.kind = .punctuation .openBrace →
      Runs parts parts' r s.take fun ns s' => Gives r s.take ns (W ns) s') :
    Runs (braced parts) (braced parts') r s fun ns s' => Gives r s ns
      ({[.punctuation .openBrace]} * (W ns * {[.punctuation .closeBrace]})) s' := by
  refine .require (fun hkind => ?_) fun _ => .pure (.report s _)
  refine (h hkind).bind fun ns s₁ hns => ?_
  refine requireMark_runs.bind fun _ s₂ hclose => .pure ?_
  exact (Gives.mark hkind).and (hns.skip hclose)

end Parts

/-! ## Recursion and repetition -/

/-- The phrase that a goal of the recursion is. -/
def Goal.phrase : Goal → Phrase
  | .expression => .expression
  | .binary level => .binary level
  | .unary => .unary
  | .type => .type
  | .statement => .statement
  | .declaration => .declaration

/-- What a goal of the recursion comes to. An expression of binary operators has none at
its top that does not belong to it, and after it no operator follows that does. And where a
type is asked for, nothing else is given. -/
structure Goal.Done (r : Setting) (goal : Goal) (s : State) (n : Node) (s' : State) : Prop where
  parses : Parses r goal.phrase s n s'
  level : ∀ level, goal = .binary level → n.Tighter level ∧ binaryLevel s'.kind ≤ level
  fillsType : goal = .type → n.kind.fillsType = true

/-- **A round of a repetition**, by whether it says that there is another one. -/
inductive Round (goes stops : Prop) : Bool → Prop
  | again : goes → Round goes stops true
  | stop : stops → Round goes stops false

/-- **Two ways to parse what is inside a construct**, which do the same with fewer
tokens left than a bound that neither of them exceeds. -/
structure Alike (r : Setting) (bound : Nat) (i j : Inner) : Prop where
  bound_left : bound ≤ i.bound
  bound_right : bound ≤ j.bound
  done : ∀ goal s, Room r bound s → Runs (i.parse goal) (j.parse goal) r s (goal.Done r s)

namespace Alike

variable {bound size : Nat} {i j : Inner}

theorem parses (H : Alike r bound i j) (goal : Goal) (hs : Room r bound s) :
    Runs (i.parse goal) (j.parse goal) r s (Parses r goal.phrase s) :=
  (H.done goal s hs).mono fun _ _ h => h.parses

/-- A part that is parsed as a goal of the recursion. -/
theorem gives (H : Alike r bound i j) (goal : Goal) (hs : Room r bound s) :
    Runs (i.parse goal) (j.parse goal) r s
      fun n s' => Gives r s [n] (words (Derives goal.phrase n)) s' :=
  (H.done goal s hs).mono fun _ _ h => h.parses.gives

/-- A type that is parsed as a goal of the recursion. -/
theorem type (H : Alike r bound i j) (hs : Room r bound s) :
    Runs (i.parse .type) (j.parse .type) r s
      fun n s' => Parses r .type s n s' ∧ n.kind.fillsType = true :=
  (H.done .type s hs).mono fun _ _ h => ⟨h.parses, h.fillsType rfl⟩

/-- **A repetition that changes a value.** Its bound is not met, because it goes on
only with fewer tokens left. -/
theorem iterate {σ : Type} (H : Alike r bound i j) {step step' : σ → Parse (σ × Bool)}
    (I Q : σ → State → Prop) (hle : size ≤ bound + 1) {value : σ} (hs : Room r size s)
    (hI : I value s)
    (hstep : ∀ value s, Room r size s → I value s →
      Runs (step value) (step' value) r s fun next s' =>
        Round (Later s s' ∧ s'.upcoming.length < s.upcoming.length ∧ I next.1 s')
          (Q next.1 s') next.2) :
    Runs (i.iterate value step) (j.iterate value step') r s Q := by
  -- by induction on one bound, for any other: both exceed the number of tokens left, and a
  -- round that is not the last takes one off all three
  have key : ∀ k k' value s, s.upcoming.length < k → s.upcoming.length < k' → Room r size s →
      I value s → Runs (Parser.iterate i.safeguard.repetition step k value)
        (Parser.iterate j.safeguard.repetition step' k' value) r s Q := by
    intro k
    induction k with
    | zero => exact fun _ _ _ hlt => absurd hlt (Nat.not_lt_zero _)
    | succ k ih =>
      rintro (_ | k') value s hlt hlt' hs hI
      · exact absurd hlt' (Nat.not_lt_zero _)
      refine (hstep value s hs hI).bind ?_
      rintro ⟨value, _⟩ s₁ (⟨hlater, hshort, hI'⟩ | hdone)
      swap
      · exact .pure hdone
      exact ih k' value s₁ (Nat.lt_of_lt_of_le hshort (Nat.le_of_lt_succ hlt))
        (Nat.lt_of_lt_of_le hshort (Nat.le_of_lt_succ hlt')) (hs.later hlater) hI'
  have hlt := Nat.lt_of_lt_of_le hs.lt hle
  exact key _ _ value s (Nat.lt_of_lt_of_le hlt (Nat.succ_le_succ H.bound_left))
    (Nat.lt_of_lt_of_le hlt (Nat.succ_le_succ H.bound_right)) hs hI

/-- **A repetition that lists nodes.** Its bound is not met, because it goes on only
with fewer tokens left. -/
theorem collect (H : Alike r bound i j) {step step' : Parse (List Node × Bool)}
    (W : State → List Node → State → Prop) (hle : size ≤ bound + 1) (hs : Room r size s)
    (hstep : ∀ s, Room r size s →
      Runs step step' r s fun next s' =>
        Round (Later s s' ∧ s'.upcoming.length < s.upcoming.length
            ∧ ∀ ns s₂, W s' ns s₂ → W s (next.1 ++ ns) s₂)
          (W s next.1 s') next.2) :
    Runs (i.collect step) (j.collect step') r s (W s) := by
  -- the same induction; what the later rounds leave is put behind the nodes of this one
  have key : ∀ k k' s, s.upcoming.length < k → s.upcoming.length < k' → Room r size s →
      Runs (Parser.collect i.safeguard.repetition step k)
        (Parser.collect j.safeguard.repetition step' k') r s (W s) := by
    intro k
    induction k with
    | zero => exact fun _ _ hlt => absurd hlt (Nat.not_lt_zero _)
    | succ k ih =>
      rintro (_ | k') s hlt hlt' hs
      · exact absurd hlt' (Nat.not_lt_zero _)
      refine (hstep s hs).bind ?_
      rintro ⟨nodes, _⟩ s₁ (⟨hlater, hshort, hW⟩ | hdone)
      swap
      · exact .pure hdone
      have hrest := ih k' s₁ (Nat.lt_of_lt_of_le hshort (Nat.le_of_lt_succ hlt))
        (Nat.lt_of_lt_of_le hshort (Nat.le_of_lt_succ hlt')) (hs.later hlater)
      exact hrest.bind fun ns s₂ hns => .pure (hW ns s₂ hns)
  have hlt := Nat.lt_of_lt_of_le hs.lt hle
  exact key _ _ s (Nat.lt_of_lt_of_le hlt (Nat.succ_le_succ H.bound_left))
    (Nat.lt_of_lt_of_le hlt (Nat.succ_le_succ H.bound_right)) hs

/-- One or more parts with commas between them, of each of which something is known. -/
theorem series_of (H : Alike r bound i j) {item item' : Parse Node}
    {rule : Node → List TokenKind → Prop} {Q : Node → Prop} (hs : Room r bound s)
    (hitem : ∀ s, Room r bound s →
      Runs item item' r s fun n s' => Gives r s [n] (words (rule n)) s' ∧ Q n) :
    Runs (i.collect do let part ← item; return ([part], ← acceptMark .comma))
      (j.collect do let part ← item'; return ([part], ← acceptMark .comma)) r s
      fun ns s' => Gives r s ns (words (Series rule ns)) s' ∧ ∀ n ∈ ns, Q n := by
  refine H.collect (fun s ns s' => Gives r s ns (words (Series rule ns)) s' ∧ ∀ n ∈ ns, Q n)
    (Nat.le_succ _) hs fun s hs => ?_
  refine (hitem s hs).bind fun n s₁ ⟨hn, hQ⟩ => ?_
  refine .accept (fun hk => .pure (.again ?_)) fun _ => .pure (.stop ?_)
  · have hcons : ∀ {ns ks ms}, rule n ks → Series rule ns ms →
        Series rule (n :: ns) (ks ++ .punctuation .comma :: ms) := .cons
    obtain ⟨hlater, hshort, hrest⟩ := hn.comma hk @hcons
    exact ⟨hlater, hshort, fun ns s₂ hns =>
      ⟨hrest ns s₂ hns.1, List.forall_mem_cons.2 ⟨hQ, hns.2⟩⟩⟩
  · exact ⟨hn.mono fun ks hks => .single hks, List.forall_mem_singleton.2 hQ⟩

/-- One or more parts with commas between them. -/
theorem series (H : Alike r bound i j) {item item' : Parse Node}
    {rule : Node → List TokenKind → Prop} (hs : Room r bound s)
    (hitem : ∀ s, Room r bound s →
      Runs item item' r s fun n s' => Gives r s [n] (words (rule n)) s') :
    Runs (i.collect do let part ← item; return ([part], ← acceptMark .comma))
      (j.collect do let part ← item'; return ([part], ← acceptMark .comma)) r s
      fun ns s' => Gives r s ns (words (Series rule ns)) s' :=
  (H.series_of hs fun s hs => (hitem s hs).mono fun _ _ hn => ⟨hn, trivial⟩).mono
    fun _ _ h => h.1

end Alike

end ScriptLens.Parser
