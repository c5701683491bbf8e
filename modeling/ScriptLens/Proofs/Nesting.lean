import ScriptLens.Proofs.Rescan
import ScriptLens.Proofs.ScopeBuilding

/-!
# How deeply constructs may be nested

A statement, a type or an expression inside another one is refused where that is too
deep, so no more than `nestingLimit` blocks are ever inside each other: every way to a
block inside a block is by a statement.

Classes are another matter. A class that is the member of a class is parsed as a
declaration and not as a statement, and nothing counts the classes around it. So classes
are nested as deeply as a text says (`parse_nestedClasses`), and the parser, which
descends into each of them, is not bounded.
-/

namespace ScriptLens

namespace Parser

variable {r : Setting} {s : State} {safeguard : Safeguard} {bound k : Nat}
  {tokens rest : List Token}

/-! ## Tokens of classes inside each other -/

/-- The tokens of `k` classes inside each other, and what follows them. -/
inductive ClassTokens : Nat → List Token → List Token → Prop
  | nil (rest : List Token) : ClassTokens 0 rest rest
  | cons {k : Nat} {keyword word opening closing : Span} {name : String}
    {inside rest : List Token} :
    ClassTokens k inside (⟨.punctuation .closeBrace, closing⟩ :: rest) →
      ClassTokens (k + 1)
        (⟨.keyword .classKw, keyword⟩ :: ⟨.identifier name, word⟩
          :: ⟨.punctuation .openBrace, opening⟩ :: inside) rest

theorem ClassTokens.le_length (h : ClassTokens k tokens rest) : k ≤ tokens.length := by
  induction h with
  | nil => exact Nat.zero_le _
  | cons _ ih =>
    simp only [List.length_cons]
    omega

theorem ClassTokens.filter_isEnd (h : ClassTokens k tokens rest) :
    ClassTokens k (tokens.filter (!·.isEnd)) (rest.filter (!·.isEnd)) := by
  induction h with
  | nil rest => exact .nil _
  | cons _ ih => exact .cons ih

/-! ## Steps whose outcome is known -/

theorem exec_sees {kind : TokenKind} (h : s.kind = kind) :
    exec (sees kind) r s = (true, s) := by
  rw [← beq_iff_eq.2 h]
  rfl

theorem exec_modifiers {inner : Inner} {span : Span}
    (hs : s.upcoming = ⟨.keyword .classKw, span⟩ :: rest) :
    exec (modifiers inner) r s = ([], s) := by
  obtain ⟨upcoming, previousEnd, diagnostics, nodeCount, depth⟩ := s
  cases hs
  rfl

theorem exec_declaredName {name : String} {span : Span}
    (hs : s.upcoming = ⟨.identifier name, span⟩ :: rest) :
    ∃ n, exec declaredName r s = (n, s.take.count) := by
  obtain ⟨upcoming, previousEnd, diagnostics, nodeCount, depth⟩ := s
  cases hs
  exact ⟨_, rfl⟩

/-- A repetition goes on. -/
theorem exec_collect_again {atBound : Parse Unit} {step : Parse (List Node × Bool)}
    {ns ms : List Node} {s' : State} (s₁ : State) (hstep : exec step r s = ((ns, true), s₁))
    (hrest : exec (collect atBound step bound) r s₁ = (ms, s')) :
    exec (collect atBound step (bound + 1)) r s = (ns ++ ms, s') := by
  rw [collect, exec_bind_eq hstep]
  show exec (do return ns ++ (← collect atBound step bound)) r s₁ = _
  rw [exec_bind_eq hrest]
  rfl

/-- A repetition ends. -/
theorem exec_collect_done {atBound : Parse Unit} {step : Parse (List Node × Bool)}
    {ns : List Node} {s' : State} (hstep : exec step r s = ((ns, false), s')) :
    exec (collect atBound step (bound + 1)) r s = (ns, s') := by
  rw [collect, exec_bind_eq hstep]
  rfl

theorem exec_nested {m : Parse Node} {n : Node} {s' : State} (hdepth : s.depth < nestingLimit)
    (h : exec m r s.enter = (n, s')) : exec (nested m) r s = (n, s'.leave) := by
  have hget : exec get r s = (s, s) := rfl
  have henter : exec (modify State.enter : Parse Unit) r s = ((), s.enter) := rfl
  rw [nested, exec_bind_eq hget, if_neg (Nat.not_le.2 hdepth), exec_bind_eq henter,
    exec_bind_eq h]
  rfl

/-! ## Classes -/

section Members

variable {parse : Goal → Parse Node} {n : Node} {ns : List Node} {s₁ s' : State}

/-- The members of a class end at its closing brace. -/
theorem exec_classMembers_nil {span : Span}
    (hs : s.upcoming = ⟨.punctuation .closeBrace, span⟩ :: rest) :
    exec (classMembers ⟨bound, safeguard, parse⟩) r s = ([], s) := by
  obtain ⟨upcoming, previousEnd, diagnostics, nodeCount, depth⟩ := s
  cases hs
  rfl

/-- A class is a member of a class, and is parsed at the depth of that class. -/
theorem exec_classMembers_cons {span : Span}
    (hs : s.upcoming = ⟨.keyword .classKw, span⟩ :: rest)
    (hn : exec (parse .declaration) r s = (n, s₁))
    (hns : exec (classMembers ⟨bound, safeguard, parse⟩) r s₁ = (ns, s')) :
    exec (classMembers ⟨bound + 1, safeguard, parse⟩) r s = (n :: ns, s') := by
  have hstep : exec (classMembers ⟨bound + 1, safeguard, parse⟩) r s
      = exec (do
          let n ← parse .declaration
          let ns ← classMembers ⟨bound, safeguard, parse⟩
          return [n] ++ ns) r s := by
    obtain ⟨upcoming, previousEnd, diagnostics, nodeCount, depth⟩ := s
    cases hs
    rfl
  rw [hstep, exec_bind_eq hn, exec_bind_eq hns]
  rfl

end Members

/-- A class whose members are known, from its keyword on. -/
theorem exec_declaration_class {inner : Inner} {ns : List Node} {s₂ : State}
    {keyword word opening closing : Span} {name : String} {inside : List Token}
    (hs : s.upcoming = ⟨.keyword .classKw, keyword⟩ :: ⟨.identifier name, word⟩
      :: ⟨.punctuation .openBrace, opening⟩ :: inside)
    (hmembers : exec (classMembers inner) r s.take.take.count.take = (ns, s₂))
    (hclose : s₂.upcoming = ⟨.punctuation .closeBrace, closing⟩ :: rest)
    (hrest : ∀ t ∈ rest.head?, t.kind ≠ .punctuation .semicolon) :
    ∃ id span name, exec (declaration inner) r s
      = (⟨id, span, .classDeclaration [] [] name ns⟩, s₂.take.count) := by
  have hposition : exec position r s = (s.position r, s) := rfl
  have hsees : exec (sees (.keyword .classKw)) r s = (true, s) :=
    exec_sees (by rw [State.kind, hs]; rfl)
  have hadvance : exec advance r s = (s.current r, s.take) := rfl
  have hword : s.take.upcoming = ⟨.identifier name, word⟩ :: ⟨.punctuation .openBrace, opening⟩
      :: inside := by
    simp [State.take, hs]
  obtain ⟨name, hname⟩ := exec_declaredName (r := r) hword
  have hopen : s.take.take.count.kind = .punctuation .openBrace := by
    simp [State.take, State.count, State.kind, hs, Token.kind, Lexeme.kind]
  have hbraced : exec (braced (classMembers inner)) r s.take.take.count = (ns, s₂.take) := by
    have hopen' : exec (requireMark .openBrace) r s.take.take.count
        = (true, s.take.take.count.take) := by
      rw [requireMark, exec_require, if_pos hopen]
    have hclose' : exec (requireMark .closeBrace) r s₂ = (true, s₂.take) := by
      rw [requireMark, exec_require, if_pos]
      rw [State.kind, hclose]
      rfl
    rw [braced, exec_bind_eq hopen', if_pos rfl, exec_bind_eq hmembers, exec_bind_eq hclose']
    rfl
  have hnext : exec (acceptMark .semicolon) r s₂.take = (false, s₂.take) := by
    rw [acceptMark, exec_accept, if_neg]
    rw [State.take, hclose]
    cases rest with
    | nil =>
      intro heq
      cases heq
    | cons t rest => exact hrest t rfl
  rw [declaration, exec_bind_eq hposition, exec_bind_eq (exec_modifiers hs), exec_bind_eq hsees,
    if_pos rfl, classDeclaration, exec_bind_eq hadvance, exec_bind_eq hname,
    exec_bind_eq hbraced, exec_bind_eq hnext]
  exact ⟨_, _, name, rfl⟩

/-- A class inside which there are `k` more has a node with `k + 1` classes around and
at it. -/
theorem exists_count_class (id : Nat) (span : Span) (name : Node) {ns : List Node}
    (h : k = 0 ∨ ∃ n ∈ ns, ∃ x ∈ n.sites [], x.count .classDeclaration = k) :
    ∃ x ∈ Node.sites [] ⟨id, span, .classDeclaration [] [] name ns⟩,
      x.count .classDeclaration = k + 1 := by
  rcases h with rfl | ⟨n, hn, x, hx, rfl⟩
  · exact ⟨_, Node.mem_sites_self _ _, rfl⟩
  · refine ⟨_, Node.below_mem_sites (List.mem_cons_of_mem _ hn) hx, ?_⟩
    rw [Site.count_below]
    rfl

/-- What a step leaves that reports nothing: the tokens that follow. -/
structure Quietly (s s' : State) (rest : List Token) : Prop where
  upcoming : s'.upcoming = rest
  diagnostics : s'.diagnostics = s.diagnostics
  depth : s'.depth = s.depth

/-- **Classes inside each other are parsed** without a problem, at any depth. By
induction on their number; only the bound on tokens goes down. -/
theorem exec_classMembers (h : ClassTokens k tokens rest) (hs : s.upcoming = tokens)
    {closing : Span} {after : List Token}
    (hrest : rest = ⟨.punctuation .closeBrace, closing⟩ :: after) (hbound : k ≤ bound) :
    ∃ ns s', exec (classMembers (.ofBound safeguard bound)) r s = (ns, s')
      ∧ Quietly s s' rest
      ∧ (k = 0 ∨ ∃ n ∈ ns, ∃ x ∈ n.sites [], x.count .classDeclaration = k) := by
  induction h generalizing s bound closing after with
  | nil rest =>
    refine ⟨[], s, exec_classMembers_nil (hs.trans hrest), ⟨hs, rfl, rfl⟩, .inl rfl⟩
  | @cons k keyword word opening closing' name inside rest hinside ih =>
    obtain ⟨bound, rfl⟩ := Nat.exists_eq_succ_of_ne_zero
      (Nat.ne_of_gt (Nat.lt_of_lt_of_le (Nat.succ_pos k) hbound))
    have hinside : s.take.take.count.take.upcoming = inside := by
      simp [State.take, State.count, hs]
    obtain ⟨ns, s₂, hmembers, hquiet, hdeep⟩ := ih hinside rfl (Nat.le_of_succ_le_succ hbound)
    have hafter : ∀ t ∈ rest.head?, t.kind ≠ .punctuation .semicolon := by
      rw [hrest]
      intro t ht heq
      cases ht
      cases heq
    obtain ⟨id, span, name, hclass⟩ :=
      exec_declaration_class (r := r) hs hmembers hquiet.upcoming hafter
    have hnext : s₂.take.count.upcoming = rest := by
      simp [State.take, State.count, hquiet.upcoming]
    refine ⟨_, _, exec_classMembers_cons hs hclass (exec_classMembers_nil (hnext.trans hrest)),
      ⟨hnext, ?_, ?_⟩, .inr ⟨_, List.mem_cons_self, ?_⟩⟩
    · simp [State.take, State.count, hquiet.upcoming, hquiet.diagnostics, hs]
    · simp [State.take, State.count, hquiet.upcoming, hquiet.depth, hs]
    · exact exists_count_class _ _ _ hdeep

/-! ## The whole text -/

/-- A statement that starts with `class` is a declaration. -/
theorem exec_statementBody {inner : Inner} {span : Span}
    (hs : s.upcoming = ⟨.keyword .classKw, span⟩ :: rest) :
    exec (statementBody inner) r s = exec (declaration inner) r s := by
  obtain ⟨upcoming, previousEnd, diagnostics, nodeCount, depth⟩ := s
  cases hs
  rfl

/-- A class at the top of a text. -/
theorem exec_topLevelElement {inner : Inner} {span : Span} {n : Node} {s' : State}
    (hs : s.upcoming = ⟨.keyword .classKw, span⟩ :: rest) (hdepth : s.depth < nestingLimit)
    (h : exec (declaration inner) r s.enter = (n, s')) :
    exec (topLevelElement inner) r s = (n, s'.leave) := by
  have hkind : exec currentKind r s = (.keyword .classKw, s) := by
    show (s.kind, s) = _
    rw [State.kind, hs]
    rfl
  have hbody : exec (statementBody inner) r s.enter = (n, s') := by
    rw [exec_statementBody (by exact hs), h]
  rw [topLevelElement, exec_bind_eq hkind]
  exact exec_nested hdepth hbody

/-- A text of one element. -/
theorem exec_topLevelElements {parse : Goal → Parse Node} {n : Node} {s' : State}
    (hs : s.kind ≠ .endOfFile) (hs' : s'.kind = .endOfFile)
    (h : exec (topLevelElement ⟨bound + 1, safeguard, parse⟩) r s = (n, s')) :
    exec (topLevelElements ⟨bound + 1, safeguard, parse⟩) r s = ([n], s') := by
  have hposition : ∀ s : State, exec position r s = (s.position r, s) := fun _ => rfl
  have hend : exec seesEnd r s' = (true, s') := exec_sees hs'
  have hgoes : exec seesEnd r s = (false, s) := by
    rw [← beq_eq_false_iff_ne.2 hs]
    rfl
  rw [topLevelElements, Inner.collect]
  show exec (collect _ _ (bound + 1 + 1)) r s = ([n] ++ [], s')
  refine exec_collect_again s' ?_ (exec_collect_done ?_)
  · rw [exec_bind_eq hgoes, if_neg Bool.false_ne_true, exec_bind_eq (hposition s), exec_bind_eq h,
      exec_bind_eq (hposition s'), exec_bind_eq hend, if_neg (by simp)]
    rfl
  · rw [exec_bind_eq hend]
    rfl

/-- **A text that is one class, with classes inside each other**, is parsed without a
problem. -/
theorem exec_sourceFile (fileName : String) (h : ClassTokens (k + 1) tokens [])
    (hs : s.upcoming = tokens) (hdepth : s.depth < nestingLimit) (hbound : k < bound) :
    ∃ n s', exec (sourceFile (.ofBound .standard bound) fileName) r s = (n, s')
      ∧ s'.diagnostics = s.diagnostics
      ∧ ∃ x ∈ n.sites [], x.count .classDeclaration = k + 1 := by
  cases h with
  | @cons _ keyword word opening closing name inside _ hinside =>
    obtain ⟨bound, rfl⟩ := Nat.exists_eq_succ_of_ne_zero (Nat.ne_of_gt (Nat.zero_lt_of_lt hbound))
    have hinside' : s.enter.take.take.count.take.upcoming = inside := by
      simp [State.enter, State.take, State.count, hs]
    obtain ⟨ns, s₂, hmembers, hquiet, hdeep⟩ : ∃ ns s', exec (classMembers
        (.ofBound .standard (bound + 1))) r s.enter.take.take.count.take = (ns, s') ∧ _ ∧ _ :=
      exec_classMembers hinside hinside' rfl (Nat.le_of_lt hbound)
    have hupcoming := hquiet.upcoming
    obtain ⟨id, span, name, hclass⟩ :=
      exec_declaration_class (r := r) (s := s.enter) hs hmembers hupcoming (by simp)
    have hkind : s.kind ≠ .endOfFile := by
      rw [State.kind, hs]
      intro heq
      cases heq
    have hend : s₂.take.count.leave.kind = .endOfFile := by
      simp [State.kind, State.leave, State.take, State.count, hupcoming]
    have helements : exec (topLevelElements (.ofBound .standard (bound + 1))) r s = _ :=
      exec_topLevelElements hkind hend (exec_topLevelElement hs hdepth hclass)
    obtain ⟨x, hx, hcount⟩ := exists_count_class id span name hdeep
    rw [Nat.succ_eq_add_one, sourceFile, exec_bind_eq helements]
    refine ⟨_, _, rfl, ?_, _, Node.below_mem_sites (List.mem_singleton.2 rfl) hx, ?_⟩
    · show s₂.take.count.diagnostics = s.diagnostics
      simp [State.take, State.count, State.enter, hupcoming, hquiet.diagnostics, hs]
    · rw [Site.count_below, hcount]
      rfl

end Parser

/-- The text of `k` classes inside each other, before more text. -/
def nestedClasses : Nat → List Char → List Char
  | 0, rest => rest
  | k + 1, rest =>
    'c' :: 'l' :: 'a' :: 's' :: 's' :: ' ' :: 'A' :: '\x7b' :: nestedClasses k ('\x7d' :: rest)

namespace Cursor

variable {c : Cursor} {offset : Nat} {char : Char} {rest : List Char}

/-- The tokens from a cursor on, where no comment follows the blanks. -/
theorem tokens_eq_cons {lexeme : Lexeme} {length : Nat}
    (hskip : c.skipBlanks = ⟨offset, char :: rest⟩)
    (hread : Reading.first char rest = ⟨lexeme, length⟩) (hcomment : lexeme.isComment = false)
    (hend : lexeme ≠ .endOfFile) :
    ∃ span offset', c.tokens false
      = ⟨lexeme, span⟩ :: tokens false ⟨offset', (char :: rest).drop length⟩ := by
  have hnext : c.next false = read offset char rest :=
    next_of_skipBlanks hskip (by rw [hread]; exact hcomment)
  have hend' : ¬(c.next false).1.isEnd = true := by
    rw [hnext, read, hread]
    simpa [Token.isEnd] using hend
  rw [tokens, dif_neg hend', hnext, read, hread]
  exact ⟨_, _, rfl⟩

end Cursor

/-- The tokens of the head of a class, whatever follows. -/
theorem tokens_class_head (offset : Nat) (rest : List Char) :
    ∃ keyword word opening offset',
      Cursor.tokens false
          ⟨offset, 'c' :: 'l' :: 'a' :: 's' :: 's' :: ' ' :: 'A' :: '\x7b' :: rest⟩
        = ⟨.keyword .classKw, keyword⟩ :: ⟨.identifier "A", word⟩
          :: ⟨.punctuation .openBrace, opening⟩ :: Cursor.tokens false ⟨offset', rest⟩ := by
  have hclass : Reading.first 'c' ('l' :: 'a' :: 's' :: 's' :: ' ' :: 'A' :: '\x7b' :: rest)
      = ⟨.keyword .classKw, 5⟩ := rfl
  have hname : Reading.first 'A' ('\x7b' :: rest) = ⟨.identifier "A", 1⟩ := rfl
  have hbrace : Reading.first '\x7b' rest = ⟨.punctuation .openBrace, 1⟩ := rfl
  obtain ⟨keyword, o, h⟩ := Cursor.tokens_eq_cons
    (rfl : Cursor.skipBlanks ⟨offset, 'c' :: _⟩ = _) hclass rfl nofun
  obtain ⟨word, o', h'⟩ := Cursor.tokens_eq_cons
    (rfl : Cursor.skipBlanks ⟨o, ' ' :: 'A' :: '\x7b' :: rest⟩ = _) hname rfl nofun
  obtain ⟨opening, o'', h''⟩ := Cursor.tokens_eq_cons
    (rfl : Cursor.skipBlanks ⟨o', '\x7b' :: rest⟩ = _) hbrace rfl nofun
  refine ⟨keyword, word, opening, o'', ?_⟩
  rw [h]
  simp only [List.drop_succ_cons, List.drop_zero] at h' h'' ⊢
  rw [h', h'']

theorem tokens_nestedClasses (k offset : Nat) (rest : List Char) :
    ∃ offset', Parser.ClassTokens k (Cursor.tokens false ⟨offset, nestedClasses k rest⟩)
      (Cursor.tokens false ⟨offset', rest⟩) := by
  induction k generalizing offset rest with
  | zero => exact ⟨offset, .nil _⟩
  | succ k ih =>
    obtain ⟨keyword, word, opening, o, hhead⟩ :=
      tokens_class_head offset (nestedClasses k ('\x7d' :: rest))
    obtain ⟨o', hinside⟩ := ih o ('\x7d' :: rest)
    have hbrace : Reading.first '\x7d' rest = ⟨.punctuation .closeBrace, 1⟩ := rfl
    obtain ⟨closing, o'', hclose⟩ := Cursor.tokens_eq_cons
      (rfl : Cursor.skipBlanks ⟨o', '\x7d' :: rest⟩ = _) hbrace rfl nofun
    rw [hclose] at hinside
    rw [nestedClasses, hhead]
    exact ⟨o'', .cons hinside⟩

/-- **Classes are nested as deeply as a text says**, and no problem is reported. -/
theorem parse_nestedClasses (fileName : String) (k : Nat) :
    (SourceTree.parse fileName (nestedClasses (k + 1) [])).diagnostics = []
      ∧ ∃ x ∈ (SourceTree.parse fileName (nestedClasses (k + 1) [])).root.sites [],
        x.count .classDeclaration = k + 1 := by
  obtain ⟨offset, hscan⟩ := tokens_nestedClasses (k + 1) 0 []
  rw [Cursor.tokens_nil] at hscan
  have htokens : Parser.ClassTokens (k + 1) (Parser.tokensOf (nestedClasses (k + 1) [])) [] :=
    hscan.filter_isEnd
  obtain ⟨n, s', hrun, hdiagnostics, hdeep⟩ := Parser.exec_sourceFile
    (r := .ofText (nestedClasses (k + 1) []))
    (s := .ofTokens (Parser.tokensOf (nestedClasses (k + 1) []))) fileName htokens rfl
    (show 0 < Parser.nestingLimit by decide) htokens.le_length
  have hparse : SourceTree.parse fileName (nestedClasses (k + 1) [])
      = ⟨fileName, nestedClasses (k + 1) [], n, s'.diagnostics.toList⟩ := by
    have heq : Parser.run .standard fileName (nestedClasses (k + 1) []) = (n, s') := hrun
    rw [SourceTree.parse, SourceTree.parseWith, heq]
  rw [hparse, hdiagnostics]
  exact ⟨rfl, hdeep⟩

/-- **How deeply constructs are nested**: blocks no more than `nestingLimit` times, and
classes without any limit. -/
theorem nesting_of_blocks_and_classes (fileName : String) :
    (∀ text, ∀ x ∈ (SourceTree.parse fileName text).root.sites [],
      x.count .block ≤ Parser.nestingLimit)
      ∧ ∀ limit, ∃ text, (SourceTree.parse fileName text).diagnostics = []
        ∧ ∃ x ∈ (SourceTree.parse fileName text).root.sites [],
          limit < x.count .classDeclaration := by
  refine ⟨fun text => (Parser.run_formed fileName text).blocks, fun limit => ?_⟩
  obtain ⟨hdiagnostics, x, hx, hcount⟩ := parse_nestedClasses fileName limit
  exact ⟨_, hdiagnostics, x, hx, by rw [hcount]; exact Nat.lt_succ_self limit⟩

/-- One class more than constructs may be nested, in a text without a problem. -/
theorem classes_beyond_limit :
    (SourceTree.parse "classes" (nestedClasses 257 [])).diagnostics = []
      ∧ ∃ x ∈ (SourceTree.parse "classes" (nestedClasses 257 [])).root.sites [],
        Parser.nestingLimit < x.count .classDeclaration := by
  obtain ⟨hdiagnostics, x, hx, hcount⟩ := parse_nestedClasses "classes" 256
  exact ⟨hdiagnostics, x, hx, by rw [hcount]; decide⟩

end ScriptLens
