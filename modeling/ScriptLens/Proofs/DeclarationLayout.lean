import ScriptLens.Proofs.LayoutRuns

/-!
# Blocks and declarations are laid out

The constructs with keys are blocks, classes, functions, variables, parameters and
bindings. Where their keys are depends on the tokens that stand between the parts: a
class whose name is followed by a brace does not end with the name, and of a function
something stands before its parenthesis. So each of them is run from a given state, next
to what `Parses` knows of the same run. A lemma `.._shape` says which parts such a run
gives, and the lemma `.._formed` after it that they make a construct which is laid out.
-/

namespace ScriptLens.Parser

open Node

variable {r : Setting} {tokens : List Token} {bound depth limit : Nat} {s s₁ s' : State}
  {n name : Node} {i : Inner}

/-! ## Blocks -/

theorem statementsUntil_keeps {ends : TokenKind → Bool} (H : i.Lays r tokens bound)
    (hd : depth ≤ nestingLimit) :
    Keeps r tokens bound depth (statementsUntil i ends) (Forms tokens (blocksAt (depth + 1))) := by
  refine collect_keeps H.safe (.skip fun _ => .ite (.pure nofun) (.skip fun _ => ?_))
  refine (H.statement depth hd).bind fun n hn => .skip fun _ => .skip fun _ => .ite ?_ ?_
  · exact (standstill_keeps H.safe).bind fun m hm => .pure (by simpa using ⟨hn, hm⟩)
  · exact .pure (by simpa using hn)

/-- A block is its statements behind its brace. -/
theorem block_shape (H : i.Lays r tokens bound) (hs : Ground r tokens (bound + 1) depth s)
    (hd : depth ≤ nestingLimit) (hkind : s.kind = .punctuation .openBrace) :
    Runs (block i) (block i) r s fun n _ => ∃ ns, n.payload = .block ns
      ∧ Forms tokens (blocksAt (depth + 1)) ns ∧ ∀ c ∈ ns, s.position r < c.span.start := by
  refine .position (.require (fun _ => ?_) fun hnot => absurd hkind hnot)
  have hs' := hs.take hkind nofun
  refine ((statementsUntil_runs H.alike hs'.room).and (statementsUntil_keeps H hd _ hs')).bind ?_
  rintro ns s₁ ⟨⟨hns, -⟩, -, hforms⟩
  have hbehind : ∀ c ∈ ns, s.position r < c.span.start := fun c hc =>
    Nat.lt_of_lt_of_le (hs.room.fits.position_lt_take hkind nofun)
      (hns.gives.position_le_start hs'.room.fits hc)
  have hdone : ∀ span s₂, Runs (complete span (.block ns)) (complete span (.block ns)) r s₂
      fun n _ => ∃ ns, n.payload = .block ns ∧ Forms tokens (blocksAt (depth + 1)) ns
        ∧ ∀ c ∈ ns, s.position r < c.span.start :=
    fun _ _ => ⟨rfl, ns, rfl, hforms, hbehind⟩
  refine .require (fun _ => ?_) fun _ => ?_
  all_goals exact .get (.read (.step rfl (.ite (fun _ => hdone _ _) fun _ => hdone _ _)))

theorem block_formed (H : i.Lays r tokens bound) (hs : Ground r tokens (bound + 1) depth s)
    (hd : depth ≤ nestingLimit) (hkind : s.kind = .punctuation .openBrace) :
    Runs (block i) (block i) r s fun n _ => Formed tokens (blocksAt depth) n := by
  refine ((block_runs H.alike hs.room hkind).and (block_shape H hs hd hkind)).mono ?_
  rintro ⟨id, span, payload⟩ s' ⟨hparses, ns, heq, hforms, hbehind⟩
  obtain rfl : payload = .block ns := heq
  have hstart : span.start = s.position r := (hparses.completes.span hs.room.fits).start_eq
  have hlt := hparses.start_lt_stop hs.room.fits (hparses.moves (by rw [hkind]; rfl))
  refine ⟨?_, rfl⟩
  rw [← blocksAt_succ hd]
  refine .of_block (.of_block ?_ hlt ?_ fun c hc => (hforms c hc).isFree)
    fun c hc => (hforms c hc).toSound
  · rw [hstart]
    exact hs.braceAt hkind
  · rw [hstart]
    exact hbehind

theorem requiredBlock_formed (H : i.Lays r tokens bound) (hs : Ground r tokens (bound + 1) depth s)
    (hd : depth ≤ nestingLimit) :
    Runs (requiredBlock i) (requiredBlock i) r s fun n _ => Formed tokens (blocksAt depth) n :=
  .sees (fun hkind => block_formed H hs hd hkind) fun _ => ⟨rfl, .of_silent (missing_quiet r s)⟩

/-! ## Names -/

/-- **A name is read**, or there is none. -/
structure Named (r : Setting) (s : State) (name : Node) (s' : State) : Prop where
  parses : Parses r .name s name s'
  silent : name.Silent
  kind_eq : name.identifierText?.isSome = true → s.kind = .identifier

theorem missingOrWrong_identifierText? {message : String} {expected : Expected} :
    Yields (missingOrWrong message expected) fun n => n.identifierText? = none :=
  .skip fun _ => .ite (fun _ _ => rfl) (.skip fun _ => .ite (fun _ _ => rfl) fun _ _ => rfl)

theorem declaredName_named : Runs declaredName declaredName r s (Named r s) := by
  have hkind : Runs declaredName declaredName r s fun name _ =>
      name.identifierText?.isSome = true → s.kind = .identifier := by
    refine .current ?_
    split
    · next text htext =>
      refine ⟨rfl, fun _ => ?_⟩
      rw [← State.kind_current r s, Token.kind, htext]
      rfl
    · refine ⟨rfl, fun h => ?_⟩
      rw [missingOrWrong_identifierText? r s] at h
      cases h
  refine ((declaredName_runs.and hkind).yields declaredName_quiet).mono fun n s' h => ?_
  exact ⟨h.1.1, h.2, h.1.2⟩

namespace Named

theorem later (h : Named r s name s') : Later s s' := h.parses.later

theorem start_eq (h : Named r s name s') (hs : s.Fits r) : name.span.start = s.position r :=
  (h.parses.completes.span hs).start_eq

/-- A name that is there is not empty. -/
theorem wide (h : Named r s name s') (hs : s.Fits r) : Wide name := by
  intro hident
  exact h.parses.start_lt_stop hs (h.parses.moves (by rw [h.kind_eq hident]; rfl))

/-- A name that is there stands behind the type before it, which is then not absent. -/
theorem position_lt {type : Node} (h : Named r s₁ name s') (htype : Parses r .type s type s₁)
    (hs : s.Fits r) (hident : name.identifierText?.isSome = true) :
    s.position r < name.span.start := by
  rw [h.start_eq (htype.later.fits hs)]
  exact htype.position_lt hs (by rw [h.kind_eq hident]; rfl)

end Named

/-! ## Parameters and bindings -/

theorem parameter_shape (H : i.Lays r tokens bound) (hs : Ground r tokens (bound + 1) depth s) :
    Runs (parameter i) (parameter i) r s fun n _ => n.Silent ∨ ∃ type name variadic,
      n.payload = .parameter type name variadic ∧ Quiet [type, name] ∧ Wide name
        ∧ (name.identifierText?.isSome = true → s.position r < name.span.start) := by
  have hdots : Yields (finish (s.position r) .ellipsis) Silent := finish_quiet rfl quiet_nil
  refine .position (.accept (fun _ => ⟨rfl, .inl (hdots r s.take)⟩) fun _ => ?_)
  refine (skipModifiers_runs H.alike hs.room).bind fun _ s₁ ⟨hmods, _⟩ => ?_
  have hs₁ := hs.later hmods.later
  refine ((type_runs H.alike hs₁.room).yields (type_quiet H.quiet)).bind ?_
  rintro type s₂ ⟨htype, hsilent⟩
  have hs₂ := hs₁.later htype.later
  refine declaredName_named.bind fun name s₃ hname => ?_
  have hbehind := fun hident => Nat.lt_of_le_of_lt (hs.room.fits.position_le hmods.later)
    (hname.position_lt htype hs₁.room.fits hident)
  have hquiet : Quiet [type, name] := by simpa using ⟨hsilent, hname.silent⟩
  exact .accept (fun _ => ⟨rfl, .inr ⟨_, _, _, rfl, hquiet, hname.wide hs₂.room.fits, hbehind⟩⟩)
    fun _ => ⟨rfl, .inr ⟨_, _, _, rfl, hquiet, hname.wide hs₂.room.fits, hbehind⟩⟩

theorem parameter_formed (H : i.Lays r tokens bound) (hs : Ground r tokens (bound + 1) depth s) :
    Runs (parameter i) (parameter i) r s fun n s' =>
      Parses r .parameter s n s' ∧ Formed tokens limit n := by
  refine ((parameter_runs H.alike hs.room).and (parameter_shape H hs)).mono ?_
  rintro n s' ⟨hparses, hsilent | ⟨type, name, variadic, heq, hquiet, hwide, hbehind⟩⟩
  · exact ⟨hparses, .of_silent hsilent⟩
  refine ⟨hparses, ?_⟩
  have hspan := hparses.completes.span hs.room.fits
  have hself := (forall_mem_postorder.1 hspan.wellNested).2
  obtain ⟨id, span, payload⟩ := n
  obtain rfl : payload = .parameter type name variadic := heq
  refine ⟨.of_quiet (.of_parameter hquiet hwide ?_ ?_) hquiet nofun, rfl⟩
  · rw [show span.start = s.position r from hspan.start_eq]
    exact hbehind
  · exact (hself.covers name (by simp [children, Payload.children])).2

theorem parameters_keeps (limit : Nat) (H : i.Lays r tokens bound) :
    Keeps r tokens bound depth (parameters i) (Forms tokens limit) := by
  refine collect_keeps H.safe (.skip fun _ => .ite (.pure nofun) (.skip fun _ => ?_))
  refine .bind (P := Formed tokens limit) (fun s hs => ?_) fun n hn => ?_
  · exact (parameter_formed H hs.weaken).mono fun n s' h => ⟨h.1.later, h.2⟩
  refine .skip fun _ => .ite (.pure (by simpa using hn)) (.skip fun _ => .ite ?_ ?_)
  · refine wrong_keeps.bind fun m hm => .pure ?_
    simpa using ⟨hn, Formed.of_silent hm⟩
  · exact .pure (by simpa using hn)

theorem binding_shape (H : i.Lays r tokens bound) (hs : Ground r tokens (bound + 1) depth s) :
    Runs (binding i) (binding i) r s fun n _ => ∃ type name, n.payload = .binding type name
      ∧ Quiet (type.toList ++ [name]) ∧ Wide name := by
  refine .position (.bind (optionally_look_runs startsTypedBinding_runs fun _ =>
    (type_runs H.alike hs.room).yields (type_quiet H.quiet)) fun o s₁ ho => ?_)
  have hs₁ : Ground r tokens (bound + 1) depth s₁ := by
    rcases ho with ⟨-, rfl⟩ | ⟨type, -, htype, -⟩
    · exact hs
    · exact hs.later htype.later
  have hquiet : Quiet o.toList := by
    rcases ho with ⟨rfl, -⟩ | ⟨type, rfl, -, hsilent⟩
    · exact quiet_nil
    · simpa using hsilent
  refine declaredName_named.bind fun name s₂ hname => ⟨rfl, o, name, rfl, ?_, ?_⟩
  · exact quiet_append.2 ⟨hquiet, by simpa using hname.silent⟩
  · exact hname.wide hs₁.room.fits

/-- A binding is sound, but it cannot stand anywhere. -/
theorem binding_sound (limit : Nat) (H : i.Lays r tokens bound)
    (hs : Ground r tokens (bound + 1) depth s) :
    Runs (binding i) (binding i) r s fun n s' =>
      Parses r .binding s n s' ∧ Sound tokens limit n ∧ n.kind = .binding := by
  refine ((binding_runs H.alike hs.room).and (binding_shape H hs)).mono ?_
  rintro n s' ⟨hparses, type, name, heq, hquiet, hwide⟩
  have hspan := hparses.completes.span hs.room.fits
  have hself := (forall_mem_postorder.1 hspan.wellNested).2
  obtain ⟨id, span, payload⟩ := n
  obtain rfl : payload = .binding type name := heq
  have hcovers := hself.covers name (by simp [children, Payload.children])
  refine ⟨hparses, .of_quiet (.of_binding hquiet hwide hcovers.1 hcovers.2) hquiet ?_, rfl⟩
  intro heq
  cases heq

/-! ## Variables -/

/-- **A variable of a declaration** that starts at an offset. -/
structure IsVariable (lower : Nat) (d : Node) : Prop where
  kind_eq : d.kind = .variableDeclarator
  quiet : Quiet d.children
  name : ∀ name, ScopeTree.declaratorName? d = some name →
    Wide name ∧ (name.identifierText?.isSome = true → lower < name.span.start)

theorem declarator_shape {lower : Nat} (H : i.Quiet) (hname : name.Silent) (hwide : Wide name)
    (hlower : name.identifierText?.isSome = true → lower < name.span.start) :
    Yields (declarator i name) (IsVariable lower) := by
  refine (optionally_yields (H .expression rfl)).bind fun value hvalue r s => ?_
  refine ⟨rfl, quiet_cons.2 ⟨hname, quiet_toList.2 hvalue⟩, fun name' heq => ?_⟩
  rw [← Option.some.inj heq]
  exact ⟨hwide, hlower⟩

theorem moreDeclarators_shape {lower : Nat} (H : i.Lays r tokens bound)
    (hs : Room r (bound + 1) s) (hlower : lower ≤ s.position r) :
    Runs (moreDeclarators i) (moreDeclarators i) r s fun ns _ => ∀ d ∈ ns, IsVariable lower d := by
  refine (H.alike.collect (fun s ns _ => lower ≤ s.position r → ∀ d ∈ ns, IsVariable lower d)
    (Nat.le_refl _) hs fun s hs => ?_).mono fun _ _ h => h hlower
  refine .accept (fun hcomma => ?_) fun _ => .pure (.stop fun _ _ hd => nomatch hd)
  have hmark := Gives.mark (r := r) hcomma
  have hs' := hs.gives hmark
  refine declaredName_named.bind fun name s₁ hname => ?_
  have hvariable : Yields (declarator i name) fun d =>
      lower ≤ s.position r → IsVariable lower d := by
    intro r' s' hle
    refine declarator_shape H.quiet hname.silent (hname.wide hs'.fits) (fun _ => ?_) r' s'
    rw [hname.start_eq hs'.fits]
    exact Nat.lt_of_le_of_lt hle (hs.fits.position_lt_take hcomma nofun)
  refine ((declarator_runs H.alike hs'.fits (hs'.gives hname.parses.gives) hname.parses).yields
    hvariable).bind fun d s₂ ⟨hd, hvariable⟩ => .pure (.again ?_)
  have hlater := hmark.later.trans hd.later
  refine ⟨hlater, ?_, fun ns s₃ hns hle => ?_⟩
  · exact Nat.lt_of_le_of_lt hd.later.length_le (State.length_take_mark hcomma)
  · have hle' := Nat.le_trans hle (hs.fits.position_le hlater)
    exact List.forall_mem_append.2 ⟨by simpa using hvariable hle, hns hle'⟩

/-! ## Classes -/

/-- What stands between braces stands behind the opening one; without it there is
nothing. -/
theorem braced_shape {parts : Parse (List Node)} {L : List Node → Language TokenKind}
    {Q : Node → Prop} (hs : Ground r tokens bound depth s)
    (hruns : s.kind = .punctuation .openBrace →
      Runs parts parts r s.take fun ns s' => Gives r s.take ns (L ns) s' ∧ ∀ n ∈ ns, Q n) :
    Runs (braced parts) (braced parts) r s fun ns s' => Later s s'
      ∧ (∀ c ∈ ns, s.position r < c.span.start ∧ Q c)
      ∧ (s.kind = .punctuation .openBrace → s.position r < s'.previousEnd) := by
  refine .require (fun hkind => ?_) fun hkind => .pure ⟨.note s _, nofun, fun h => absurd h hkind⟩
  have hfits := hs.room.fits
  have hmark := Gives.mark (r := r) hkind
  refine (hruns hkind).bind fun ns s₁ ⟨hns, hQ⟩ => ?_
  refine requireMark_runs.bind fun _ s₂ hclose => .pure ?_
  have hlater := hmark.later.trans (hns.later.trans hclose.later)
  refine ⟨hlater, fun c hc => ⟨?_, hQ c hc⟩, fun _ => ?_⟩
  · exact Nat.lt_of_lt_of_le (hfits.position_lt_take hkind nofun)
      (hns.position_le_start (hmark.later.fits hfits) hc)
  · refine hlater.position_lt_previousEnd hfits ?_
    exact Nat.lt_of_le_of_lt (hns.later.trans hclose.later).length_le
      (State.length_take_mark hkind)

theorem classMembers_keeps (H : i.Lays r tokens bound) (hd : depth ≤ nestingLimit) :
    Keeps r tokens bound depth (classMembers i) (Forms tokens (blocksAt depth)) := by
  refine collect_keeps H.safe (.skip fun _ => .skip fun _ => .ite (.pure nofun) ?_)
  refine .skip fun _ => .ite ?_ (.skip fun _ => .ite (.pure nofun) ?_)
  · exact (H.declaration depth hd).bind fun n hn => .pure (by simpa using hn)
  · exact wrong_keeps.bind fun n hn => .pure (by simpa using Formed.of_silent hn)

/-- **A class from its word on**: its name stands behind the word and its members
behind a brace, and if a brace follows the name, the class does not end there. -/
structure ClassShape (r : Setting) (tokens : List Token) (limit : Nat) (s : State) (name : Node)
    (members : List Node) (s' : State) : Prop where
  silent : name.Silent
  wide : Wide name
  behind : s.position r < name.span.start
  brace : BraceAt tokens name.span.stop → name.span.stop < s'.previousEnd
  apart : ∀ c ∈ members, name.span.stop < c.span.start
  forms : Forms tokens limit members

theorem classDeclaration_shape {start : Nat} {modifiers : List Node} (H : i.Lays r tokens bound)
    (hs : Ground r tokens (bound + 1) depth s) (hd : depth ≤ nestingLimit)
    (hkind : s.kind = .keyword .classKw) :
    Runs (classDeclaration i start modifiers) (classDeclaration i start modifiers) r s
      fun n s' => ∃ flags name members,
        n.payload = .classDeclaration modifiers flags name members
          ∧ ClassShape r tokens (blocksAt depth) s name members s' := by
  have hs₁ := hs.take hkind nofun
  refine .step rfl (declaredName_named.bind fun name s₂ hname => ?_)
  have hs₂ := hs₁.later hname.later
  have hspan := hname.parses.completes.span hs₁.room.fits
  have hinside : s₂.kind = .punctuation .openBrace →
      Runs (classMembers i) (classMembers i) r s₂.take fun ns s' =>
        Gives r s₂.take ns (words (Grammar.Members (Grammar.Derives .declaration) ns)) s'
          ∧ ∀ n ∈ ns, Formed tokens (blocksAt depth) n := by
    intro hopen
    have hs₃ := hs₂.later (Gives.mark (r := r) hopen).later
    refine ((classMembers_runs H.alike hs₃.room).and (classMembers_keeps H hd _ hs₃)).mono ?_
    exact fun ns s' h => ⟨h.1, h.2.2⟩
  refine (braced_shape hs₂ hinside).bind fun members s₃ ⟨hlater, hmembers, hbrace⟩ => ?_
  have hshape : ∀ s₄, Later s₃ s₄ →
      ClassShape r tokens (blocksAt depth) s name members s₄.count := by
    intro s₄ hlater'
    refine ⟨hname.silent, hname.wide hs₁.room.fits, ?_, fun hat => ?_, fun c hc => ?_,
      fun c hc => (hmembers c hc).2⟩
    · rw [hspan.start_eq]
      exact hs.room.fits.position_lt_take hkind nofun
    · have hopen := hs₂.kind_eq_of_braceAt hspan.previousEnd_le hspan.stop_le hat
      refine Nat.lt_of_le_of_lt hspan.stop_le (Nat.lt_of_lt_of_le (hbrace hopen) ?_)
      exact hlater'.previousEnd_le (hs₂.later hlater).room.fits
    · exact Nat.lt_of_le_of_lt hspan.stop_le (hmembers c hc).1
  exact .accept (fun _ => ⟨rfl, _, name, members, rfl, hshape _ (.of_take s₃)⟩)
    fun _ => ⟨rfl, _, name, members, rfl, hshape _ (.refl s₃)⟩

theorem classDeclaration_formed {modifiers : List Node} (H : i.Lays r tokens bound)
    (hs : Ground r tokens (bound + 1) depth s) (hd : depth ≤ nestingLimit)
    (hmodifiers : ParsesEach r .modifier s modifiers s₁) (hquiet : Quiet modifiers)
    (hkind : s₁.kind = .keyword .classKw) :
    Runs (classDeclaration i (s.position r) modifiers)
      (classDeclaration i (s.position r) modifiers) r s₁
      fun n _ => Formed tokens (blocksAt depth) n := by
  have hs₁ := hs.later hmodifiers.later
  refine ((classDeclaration_runs H.alike hs₁.room hmodifiers hkind).and
    (classDeclaration_shape H hs₁ hd hkind)).mono ?_
  rintro n s' ⟨hparses, flags, name, members, heq, hshape⟩
  have hspan := hparses.completes.span hs.room.fits
  obtain ⟨hchildren, hself⟩ := forall_mem_postorder.1 hspan.wellNested
  obtain ⟨id, span, payload⟩ := n
  obtain rfl : payload = .classDeclaration modifiers flags name members := heq
  have hmem : name ∈ Node.children ⟨id, span, .classDeclaration modifiers flags name members⟩ :=
    List.mem_append_right _ List.mem_cons_self
  have hquiet' : Quiet (modifiers ++ [name]) := by simpa using ⟨hquiet, hshape.silent⟩
  have hstart : span.start < name.span.start := by
    rw [show span.start = s.position r from hspan.start_eq]
    exact Nat.lt_of_le_of_lt (hs.room.fits.position_le hmodifiers.later) hshape.behind
  refine ⟨.of_parts (.of_class hquiet' hshape.wide hstart ?_ (hself.covers name hmem).2 ?_
    hshape.apart fun c hc => (hshape.forms c hc).isFree) (fun c hc => ?_) hquiet'
    (fun c hc => (hshape.forms c hc).toSound) nofun, rfl⟩
  · exact (hchildren name hmem name name.mem_postorder_self).start_le_stop
  · exact fun hat => Nat.lt_of_lt_of_le (hshape.brace hat) hspan.previousEnd_le
  · simpa [children, Payload.children, or_assoc] using hc

/-! ## Functions -/

theorem parameterList_shape (limit : Nat) (H : i.Lays r tokens bound)
    (hs : Ground r tokens (bound + 1) depth s) (hopen : s.kind = .punctuation .openParen) :
    Runs (parameterList i) (parameterList i) r s fun list s' => Later s.take s'
      ∧ list.span.start = s.position r ∧ Forms tokens limit list.items
      ∧ ∀ c ∈ list.items, s.position r < c.span.start := by
  have hs₁ := hs.take hopen nofun
  have hitems : Runs (parameterList i) (parameterList i) r s fun list _ =>
      list.span.start = s.position r ∧ Forms tokens limit list.items := by
    refine .position (.step rfl ((parameters_keeps limit H _ hs₁).bind fun ns s₁ ⟨_, hns⟩ => ?_))
    exact requireMark_runs.bind fun _ s₂ _ => .get (.pure ⟨rfl, hns⟩)
  refine ((parameterList_runs H.alike hs.room hopen).and hitems).mono fun list s' h => ?_
  refine ⟨h.1.1.later, h.2.1, h.2.2, fun c hc => ?_⟩
  exact Nat.lt_of_lt_of_le (hs.room.fits.position_lt_take hopen nofun)
    (h.1.1.position_le_start hs₁.room.fits hc)

/-- A function with a body ends where the body does. -/
theorem functionBody_shape (H : i.Lays r tokens bound) (hs : Ground r tokens (bound + 1) depth s)
    (hd : depth ≤ nestingLimit) :
    Runs (functionBody i) (functionBody i) r s fun body s' => Later s s'
      ∧ Forms tokens (blocksAt depth) body.toList
      ∧ ∀ b ∈ body, s.position r ≤ b.span.start ∧ s'.previousEnd ≤ b.span.stop := by
  refine .sees (fun hkind => ?_) fun _ => requireMark_runs.bind fun _ s₁ hmark =>
    .pure ⟨hmark.later, by simp, nofun⟩
  refine ((block_runs H.alike hs.room hkind).and (block_formed H hs hd hkind)).bind ?_
  rintro b s₁ ⟨hparses, hformed⟩
  have hspan := hparses.completes.span hs.room.fits
  refine .pure ⟨hparses.later, by simpa using hformed, ?_⟩
  rintro _ ⟨⟩
  exact ⟨Nat.le_of_eq hspan.start_eq.symm, hspan.previousEnd_le⟩

/-- **A function from its parameters on.** -/
structure FunctionShape (r : Setting) (tokens : List Token) (limit : Nat) (s : State)
    (parameters : ArgumentList Node) (body : Option Node) (s' : State) : Prop where
  start_eq : parameters.span.start = s.position r
  consumed : s.position r < s'.previousEnd
  behind : ∀ c ∈ parameters.items ++ body.toList, s.position r < c.span.start
  forms : Forms tokens limit (parameters.items ++ body.toList)
  body_end : ∀ b ∈ body, s'.previousEnd ≤ b.span.stop

theorem functionDeclaration_shape {start : Nat} {modifiers : List Node} {type : Node}
    (H : i.Lays r tokens bound) (hs : Ground r tokens (bound + 1) depth s)
    (hd : depth ≤ nestingLimit) (hopen : s.kind = .punctuation .openParen) :
    Runs (functionDeclaration i start modifiers type name)
      (functionDeclaration i start modifiers type name) r s fun n s' => ∃ flags parameters body,
        n.payload = .functionDeclaration modifiers flags type name parameters body
          ∧ n.span.stop = (spanOver start s'.previousEnd n.children).stop
          ∧ FunctionShape r tokens (blocksAt depth) s parameters body s' := by
  have hs₁ := hs.take hopen nofun
  refine (parameterList_shape (blocksAt depth) H hs hopen).bind ?_
  rintro parameters s₂ ⟨hlater, hstart, hitems, hbehind⟩
  refine (functionBody_shape H (hs₁.later hlater).weaken hd).bind ?_
  rintro body s₃ ⟨hlater', hbody, hends⟩
  have hwhole : Later s s₃ := (Later.of_take s).trans (hlater.trans hlater')
  refine ⟨rfl, _, parameters, body, rfl, rfl, hstart, ?_, fun c hc => ?_, ?_, ?_⟩
  · refine hwhole.position_lt_previousEnd hs.room.fits ?_
    exact Nat.lt_of_le_of_lt (hlater.trans hlater').length_le (State.length_take_mark hopen)
  · rcases List.mem_append.1 hc with hc | hc
    · exact hbehind c hc
    · have hafter := hs₁.room.fits.position_le hlater
      have htake := hs.room.fits.position_lt_take hopen nofun
      exact Nat.lt_of_lt_of_le (Nat.lt_of_lt_of_le htake hafter)
        (hends c (Option.mem_toList.1 hc)).1
  · exact forms_append.2 ⟨hitems, hbody⟩
  · exact fun b hb => (hends b hb).2

section Declaration

variable {modifiers : List Node} {type : Node} {s₂ s₃ : State}

theorem functionDeclaration_formed (H : i.Lays r tokens bound)
    (hs : Ground r tokens (bound + 1) depth s) (hd : depth ≤ nestingLimit)
    (hmodifiers : ParsesEach r .modifier s modifiers s₁) (htype : Parses r .type s₁ type s₂)
    (hfills : type.kind.fillsType = true) (hquiet : Quiet (modifiers ++ [type]))
    (hname : Named r s₂ name s₃) (hopen : s₃.kind = .punctuation .openParen) :
    Runs (functionDeclaration i (s.position r) modifiers type name)
      (functionDeclaration i (s.position r) modifiers type name) r s₃
      fun n _ => Formed tokens (blocksAt depth) n := by
  have hs₁ := hs.later hmodifiers.later
  have hs₂ := hs₁.later htype.later
  have hs₃ := hs₂.later hname.later
  refine ((functionDeclaration_runs H.alike hs.room.fits hs₃.room hmodifiers htype hfills
    hname.parses hopen).and (functionDeclaration_shape H hs₃ hd hopen)).mono ?_
  rintro n s' ⟨hparses, flags, parameters, body, heq, hstop, hshape⟩
  have hspan := hparses.completes.span hs.room.fits
  have hpairwise := hspan.wellNested.pairwise_children
  obtain ⟨hchildren, hself⟩ := forall_mem_postorder.1 hspan.wellNested
  obtain ⟨id, span, payload⟩ := n
  obtain rfl : payload = .functionDeclaration modifiers flags type name parameters body := heq
  have hstart : span.start = s.position r := hspan.start_eq
  have hbefore := hs.room.fits.position_le hmodifiers.later
  have hnameSpan := hname.parses.completes.span hs₂.room.fits
  have hquiet' : Quiet (modifiers ++ [type, name]) := by
    rw [quiet_append, quiet_cons] at hquiet ⊢
    exact ⟨hquiet.1, hquiet.2.1, by simpa using hname.silent⟩
  refine ⟨.of_parts (.of_function hquiet' (hname.wide hs₂.room.fits) (fun hident => ?_) ?_ ?_ ?_
    (by rw [hshape.start_eq]; exact hshape.behind) (fun c hc => (hshape.forms c hc).isFree)
    fun b hb => ?_) (fun c hc => ?_) hquiet' (fun c hc => (hshape.forms c hc).toSound) nofun, rfl⟩
  · rw [hstart]
    exact Nat.lt_of_le_of_lt hbefore (hname.position_lt htype hs₁.room.fits hident)
  · rw [hshape.start_eq]
    exact hnameSpan.stop_le
  · -- the type or the name consumed something: nothing can be absent before a parenthesis
    rw [hstart, hshape.start_eq]
    refine Nat.lt_of_le_of_lt hbefore ?_
    have hle := hs₁.room.fits.position_le htype.later
    exact Nat.lt_of_le_of_lt hle (hname.parses.position_lt hs₂.room.fits (by rw [hopen]; rfl))
  · rw [hshape.start_eq]
    exact Nat.lt_of_lt_of_le hshape.consumed hspan.previousEnd_le
  · cases hb
    have hlast := List.pairwise_append.1 hpairwise
    have hmem : b ∈ Node.children ⟨id, span, .functionDeclaration modifiers flags type name
        parameters (some b)⟩ := List.mem_append_right _ (List.mem_singleton.2 rfl)
    have hwidth := (hchildren b hmem b b.mem_postorder_self).start_le_stop
    refine Nat.le_antisymm (hself.covers b hmem).2 ?_
    rw [show span.stop = _ from hstop]
    refine stop_spanOver_le (Nat.max_le.2 ⟨hshape.body_end b rfl, ?_⟩) fun c hc => ?_
    · rw [← hstart]
      exact Nat.le_trans (hself.covers b hmem).1 hwidth
    · rcases List.mem_append.1 hc with hc | hc
      · exact Nat.le_trans (hlast.2.2 c hc b (List.mem_singleton.2 rfl)) hwidth
      · rw [List.mem_singleton.1 hc]
  · simpa [children, Payload.children, or_assoc] using hc

theorem IsVariable.sound {lower : Nat} {d : Node} (h : IsVariable lower d) :
    Sound tokens limit d := by
  obtain ⟨id, span, payload⟩ := d
  obtain ⟨hkind, hquiet, -⟩ := h
  cases payload with
  | variableDeclarator name value => exact .of_quiet (.of_declarator hquiet) hquiet nofun
  | _ => cases hkind

theorem variableDeclaration_formed (H : i.Lays r tokens bound)
    (hs : Ground r tokens (bound + 1) depth s)
    (hmodifiers : ParsesEach r .modifier s modifiers s₁) (htype : Parses r .type s₁ type s₂)
    (hfills : type.kind.fillsType = true) (hquiet : Quiet (modifiers ++ [type]))
    (hname : Named r s₂ name s₃)
    (hmoved : isClosing s.kind = false → s₂.upcoming.length < s.upcoming.length) :
    Runs (variableDeclaration i (s.position r) modifiers type name)
      (variableDeclaration i (s.position r) modifiers type name) r s₃
      fun n _ => Formed tokens limit n := by
  have hs₁ := hs.later hmodifiers.later
  have hs₂ := hs₁.later htype.later
  have hs₃ := hs₂.later hname.later
  have hbefore := hs.room.fits.position_le hmodifiers.later
  have hshape : Runs (variableDeclaration i (s.position r) modifiers type name)
      (variableDeclaration i (s.position r) modifiers type name) r s₃ fun n _ =>
        ∃ flags declarators, n.payload = .variableDeclaration modifiers flags type declarators
          ∧ ∀ d ∈ declarators, IsVariable (s.position r) d := by
    have hfirst : Yields (declarator i name) (IsVariable (s.position r)) :=
      declarator_shape H.quiet hname.silent (hname.wide hs₂.room.fits) fun hident =>
        Nat.lt_of_le_of_lt hbefore (hname.position_lt htype hs₁.room.fits hident)
    refine ((declarator_runs H.alike hs₂.room.fits hs₃.room hname.parses).yields hfirst).bind ?_
    rintro first s₄ ⟨hparses, hvariable⟩
    have hs₄ := hs₂.later hparses.later
    have hlower := hs.room.fits.position_le
      (hmodifiers.later.trans (htype.later.trans hparses.later))
    refine (moreDeclarators_shape H hs₄.room hlower).bind fun more s₅ hmore => ?_
    refine requireMark_runs.bind fun _ s₆ _ => ⟨rfl, _, first :: more, rfl, ?_⟩
    exact List.forall_mem_cons.2 ⟨hvariable, hmore⟩
  refine ((variableDeclaration_runs H.alike hs₂.room hmodifiers htype hfills hname.parses
    hmoved).and hshape).mono ?_
  rintro ⟨id, span, payload⟩ s' ⟨hparses, flags, declarators, heq, hvariables⟩
  obtain rfl : payload = .variableDeclaration modifiers flags type declarators := heq
  have hspan := hparses.completes.span hs.room.fits
  have hstart : span.start = s.position r := hspan.start_eq
  refine ⟨.of_parts (.of_variables hspan.wellNested hquiet (fun d hd => ?_) fun d hd => ?_)
    (fun c hc => ?_) hquiet (fun d hd => (hvariables d hd).sound) nofun, rfl⟩
  · exact ⟨(hvariables d hd).kind_eq, (hvariables d hd).quiet⟩
  · rw [hstart]
    exact (hvariables d hd).name
  · simpa [children, Payload.children, or_assoc] using hc

end Declaration

theorem declaration_formed (H : i.Lays r tokens bound) (hs : Ground r tokens (bound + 1) depth s)
    (hd : depth ≤ nestingLimit) :
    Runs (declaration i) (declaration i) r s fun n _ => Formed tokens (blocksAt depth) n := by
  refine .position (((modifiers_runs H.alike hs.room).yields modifiers_quiet).bind ?_)
  rintro modifiers s₁ ⟨hmodifiers, hquiet⟩
  have hs₁ := hs.later hmodifiers.later
  refine .sees (fun hkind => classDeclaration_formed H hs hd hmodifiers hquiet hkind) fun _ => ?_
  refine (((type_runs H.alike hs₁.room).yields type_fills).yields (type_quiet H.quiet)).bind ?_
  rintro type s₂ ⟨⟨htype, hfills⟩, hsilent⟩
  have hquiet' : Quiet (modifiers ++ [type]) := by simpa using ⟨hquiet, hsilent⟩
  refine declaredName_named.bind fun name s₃ hname => ?_
  refine .sees
    (fun hopen => functionDeclaration_formed H hs hd hmodifiers htype hfills hquiet' hname hopen)
    fun _ => variableDeclaration_formed H hs hmodifiers htype hfills hquiet' hname
      fun hclosing => ?_
  rcases hmodifiers.eq_or_lt with ⟨-, rfl⟩ | hlt
  · exact htype.moves (by simp [mustMove, hclosing])
  · exact Nat.lt_of_le_of_lt htype.later.length_le hlt

end ScriptLens.Parser
