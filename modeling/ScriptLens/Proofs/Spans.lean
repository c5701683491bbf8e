import Mathlib.Data.List.Chain
import ScriptLens.Proofs.Trace

/-!
# Spans of nodes

A node covers its parts, and the parts of a node follow one another without
overlap. Both come from one fact about runs of the parser: the nodes that a run
leaves lie between the positions at which it begins and ends
(`Passes.inOrder`), and the node that a run completes starts exactly where the
run begins and ends at or behind the last token it consumed
(`Completes.span`). The second half of the latter is what makes a node account
for every token that was consumed for it.
-/

namespace ScriptLens

namespace Node

/-- **A node around its parts**: it ends no earlier than it starts, covers every
part, and each part ends before the next one starts. -/
structure Ordered (n : Node) : Prop where
  start_le_stop : n.span.start ≤ n.span.stop
  covers : ∀ c ∈ n.children, n.span.start ≤ c.span.start ∧ c.span.stop ≤ n.span.stop
  isChain : n.children.IsChain fun c c' => c.span.stop ≤ c'.span.start

/-- A tree all of whose nodes lie around their parts. -/
def WellNested (n : Node) : Prop := ∀ m ∈ n.postorder, m.Ordered

theorem WellNested.of_children {n : Node} (h : n.Ordered)
    (hc : ∀ c ∈ n.children, c.WellNested) : n.WellNested :=
  forall_mem_postorder.2 ⟨hc, h⟩

theorem WellNested.of_leaf {n : Node} (h : n.children = []) (hle : n.span.start ≤ n.span.stop) :
    n.WellNested :=
  .of_children ⟨hle, by simp [h], by simp [h]⟩ (by simp [h])

/-- **Nodes between two offsets**, which do not overlap and come in order. -/
def InOrder : Nat → List Node → Nat → Prop
  | lower, [], upper => lower ≤ upper
  | lower, n :: ns, upper =>
    lower ≤ n.span.start ∧ n.span.start ≤ n.span.stop ∧ InOrder n.span.stop ns upper

namespace InOrder

variable {lower lower' upper : Nat} {n : Node} {ns : List Node}

theorem le (h : InOrder lower ns upper) : lower ≤ upper := by
  induction ns generalizing lower with
  | nil => exact h
  | cons n ns ih => exact Nat.le_trans h.1 (Nat.le_trans h.2.1 (ih h.2.2))

theorem mono (hle : lower' ≤ lower) (h : InOrder lower ns upper) :
    InOrder lower' ns upper := by
  cases ns with
  | nil => exact Nat.le_trans hle h
  | cons n ns => exact ⟨Nat.le_trans hle h.1, h.2⟩

theorem mem (h : InOrder lower ns upper) (hn : n ∈ ns) :
    lower ≤ n.span.start ∧ n.span.start ≤ n.span.stop ∧ n.span.stop ≤ upper := by
  induction ns generalizing lower with
  | nil => simp at hn
  | cons m ns ih =>
    rcases List.mem_cons.1 hn with rfl | hn
    · exact ⟨h.1, h.2.1, h.2.2.le⟩
    · obtain ⟨hlow, hspan, hup⟩ := ih h.2.2 hn
      exact ⟨Nat.le_trans h.1 (Nat.le_trans h.2.1 hlow), hspan, hup⟩

/-- Nodes in order lie before the end of the last one. -/
theorem getLast {last : Node} (h : InOrder lower ns upper) (hlast : ns.getLast? = some last) :
    InOrder lower ns last.span.stop := by
  induction ns generalizing lower with
  | nil => cases hlast
  | cons n ns ih =>
    cases ns with
    | nil =>
      obtain rfl := Option.some.inj hlast
      exact ⟨h.1, h.2.1, Nat.le_refl _⟩
    | cons m ns => exact ⟨h.1, h.2.1, ih h.2.2 hlast⟩

theorem isChain (h : InOrder lower ns upper) :
    ns.IsChain fun c c' => c.span.stop ≤ c'.span.start := by
  induction ns generalizing lower with
  | nil => exact .nil
  | cons n ns ih =>
    cases ns with
    | nil => exact .singleton _
    | cons m ns => exact .cons_cons h.2.2.1 (ih h.2.2)

end InOrder

end Node

namespace Parser

/-! ## The span over parts -/

section SpanOver

variable {start previousEnd bound : Nat} {parts : List Node}

private theorem start_foldl_join (bound : Nat) (span : Span) (parts : List Node) :
    (parts.foldl (fun span part => span.join part.span) span).start ≤ span.start
      ∧ (∀ c ∈ parts,
        (parts.foldl (fun span part => span.join part.span) span).start ≤ c.span.start)
      ∧ (bound ≤ span.start → (∀ c ∈ parts, bound ≤ c.span.start) →
        bound ≤ (parts.foldl (fun span part => span.join part.span) span).start) := by
  induction parts generalizing span with
  | nil => simp
  | cons part parts ih =>
    obtain ⟨hself, hparts, hbound⟩ := ih (span.join part.span)
    have hjoin : (span.join part.span).start = min span.start part.span.start := rfl
    rw [hjoin] at hself hbound
    refine ⟨Nat.le_trans hself (Nat.min_le_left _ _), ?_, ?_⟩
    · intro c hc
      rcases List.mem_cons.1 hc with rfl | hc
      · exact Nat.le_trans hself (Nat.min_le_right _ _)
      · exact hparts c hc
    · intro hspan hall
      exact hbound (Nat.le_min.2 ⟨hspan, hall part List.mem_cons_self⟩)
        fun c hc => hall c (List.mem_cons_of_mem _ hc)

private theorem stop_foldl_join (bound : Nat) (span : Span) (parts : List Node) :
    span.stop ≤ (parts.foldl (fun span part => span.join part.span) span).stop
      ∧ (∀ c ∈ parts,
        c.span.stop ≤ (parts.foldl (fun span part => span.join part.span) span).stop)
      ∧ (span.stop ≤ bound → (∀ c ∈ parts, c.span.stop ≤ bound) →
        (parts.foldl (fun span part => span.join part.span) span).stop ≤ bound) := by
  induction parts generalizing span with
  | nil => simp
  | cons part parts ih =>
    obtain ⟨hself, hparts, hbound⟩ := ih (span.join part.span)
    have hjoin : (span.join part.span).stop = max span.stop part.span.stop := rfl
    rw [hjoin] at hself hbound
    refine ⟨Nat.le_trans (Nat.le_max_left _ _) hself, ?_, ?_⟩
    · intro c hc
      rcases List.mem_cons.1 hc with rfl | hc
      · exact Nat.le_trans (Nat.le_max_right _ _) hself
      · exact hparts c hc
    · intro hspan hall
      exact hbound (Nat.max_le.2 ⟨hspan, hall part List.mem_cons_self⟩)
        fun c hc => hall c (List.mem_cons_of_mem _ hc)

theorem start_spanOver_le : (spanOver start previousEnd parts).start ≤ start :=
  (start_foldl_join 0 _ parts).1

theorem start_spanOver_le_of_mem {c : Node} (hc : c ∈ parts) :
    (spanOver start previousEnd parts).start ≤ c.span.start :=
  (start_foldl_join 0 _ parts).2.1 c hc

theorem le_start_spanOver (hs : bound ≤ start) (hp : ∀ c ∈ parts, bound ≤ c.span.start) :
    bound ≤ (spanOver start previousEnd parts).start :=
  (start_foldl_join bound _ parts).2.2 hs hp

theorem le_stop_spanOver : max previousEnd start ≤ (spanOver start previousEnd parts).stop :=
  (stop_foldl_join 0 ⟨start, max previousEnd start⟩ parts).1

theorem le_stop_spanOver_of_mem {c : Node} (hc : c ∈ parts) :
    c.span.stop ≤ (spanOver start previousEnd parts).stop :=
  (stop_foldl_join 0 _ parts).2.1 c hc

theorem stop_spanOver_le (hs : max previousEnd start ≤ bound)
    (hp : ∀ c ∈ parts, c.span.stop ≤ bound) :
    (spanOver start previousEnd parts).stop ≤ bound :=
  (stop_foldl_join bound _ parts).2.2 hs hp

/-- What has no part behind its last token ends with it. -/
theorem stop_spanOver_le_previousEnd {upper : Nat} (h : Node.InOrder start parts upper)
    (hle : upper ≤ previousEnd) : (spanOver start previousEnd parts).stop ≤ previousEnd :=
  stop_spanOver_le (Nat.max_le.2 ⟨Nat.le_refl _, Nat.le_trans h.le hle⟩)
    fun _ hc => Nat.le_trans (h.mem hc).2.2 hle

end SpanOver

/-! ## Spans along a run -/

variable {r : Setting}

/-- What is known of the span of a node that a run from `s` to `s'` completes. -/
structure Spanned (r : Setting) (s : State) (n : Node) (s' : State) : Prop where
  start_eq : n.span.start = s.position r
  previousEnd_le : s'.previousEnd ≤ n.span.stop
  stop_le : n.span.stop ≤ s'.position r
  wellNested : n.WellNested

theorem Spanned.start_le_stop {s s' : State} {n : Node} (h : Spanned r s n s') :
    n.span.start ≤ n.span.stop :=
  (Node.forall_mem_postorder.1 h.wellNested).2.start_le_stop

theorem Spanned.count {s s' : State} {n : Node} (h : Spanned r s n s') :
    Spanned r s n s'.count :=
  ⟨h.start_eq, h.previousEnd_le, h.stop_le, h.wellNested⟩

/-- The span over the parts of a construct, and any span that ends later, up to
where the run ends. -/
theorem Spanned.of_parts {s s' : State} {id start stop : Nat} {payload : Payload Node}
    (hstart : Starts r s start payload.children s')
    (hin : Node.InOrder (s.position r) payload.children (s'.position r))
    (hc : ∀ c ∈ payload.children, c.WellNested)
    (hlow : (spanOver start s'.previousEnd payload.children).stop ≤ stop)
    (hup : stop ≤ s'.position r) :
    Spanned r s
      ⟨id, ⟨(spanOver start s'.previousEnd payload.children).start, stop⟩, payload⟩ s' := by
  have hge : s.position r ≤ start := by
    rcases hstart with rfl | ⟨hge, -, -⟩
    · exact Nat.le_refl _
    · exact hge
  have heq : (spanOver start s'.previousEnd payload.children).start = s.position r := by
    refine Nat.le_antisymm ?_ (le_start_spanOver hge fun c hc => (hin.mem hc).1)
    rcases hstart with rfl | ⟨-, -, c, hc, hcs⟩
    · exact start_spanOver_le
    · exact hcs ▸ start_spanOver_le_of_mem hc
  have hmax := Nat.le_trans le_stop_spanOver hlow
  refine ⟨heq, Nat.le_trans (Nat.le_max_left _ _) hmax, hup, .of_children ⟨?_, ?_, ?_⟩ hc⟩
  · rw [heq]
    exact Nat.le_trans hge (Nat.le_trans (Nat.le_max_right _ _) hmax)
  · intro c hc
    exact ⟨start_spanOver_le_of_mem hc, Nat.le_trans (le_stop_spanOver_of_mem hc) hlow⟩
  · exact hin.isChain

/-- The span over the parts of a construct ends where the run does, at the
latest. -/
theorem stop_spanOver_le_position {s s' : State} {start : Nat} {ns : List Node}
    (hs : s.Fits r) (hl : Later s s') (hstart : Starts r s start ns s')
    (hin : Node.InOrder (s.position r) ns (s'.position r)) :
    (spanOver start s'.previousEnd ns).stop ≤ s'.position r := by
  refine stop_spanOver_le (Nat.max_le.2 ⟨(hl.fits hs).previousEnd_le, ?_⟩)
    fun c hc => (hin.mem hc).2.2
  rcases hstart with rfl | ⟨-, hle, -⟩
  · exact hs.position_le hl
  · exact hle

mutual

/-- **The nodes that a run leaves are in order** between the positions at which
it begins and ends, and each is well nested. -/
theorem Passes.inOrder {s s' : State} {ns : List Node} :
    Passes r s ns s' → s.Fits r →
      Node.InOrder (s.position r) ns (s'.position r) ∧ ∀ n ∈ ns, n.WellNested
  | .nil _, _ => ⟨Nat.le_refl _, by simp⟩
  | .take hne hp, hs => by
    have hl := Later.take _ hne
    obtain ⟨hin, hall⟩ := hp.inOrder (hl.fits hs)
    exact ⟨hin.mono (hs.position_le hl), hall⟩
  | .report _ hp, hs => hp.inOrder hs
  | .child hc hp, hs => by
    have hspan := hc.span hs
    obtain ⟨hin, hall⟩ := hp.inOrder (hc.later.fits hs)
    refine ⟨⟨Nat.le_of_eq hspan.start_eq.symm, hspan.start_le_stop, hin.mono hspan.stop_le⟩, ?_⟩
    exact List.forall_mem_cons.2 ⟨hspan.wellNested, hall⟩

/-- **The span of a completed node** starts where its run begins and covers all
that the run consumed. -/
theorem Completes.span {s s' : State} {n : Node} :
    Completes r s n s' → s.Fits r → Spanned r s n s'
  | .missing _ _, hs =>
    ⟨rfl, hs.previousEnd_le, Nat.le_refl _, .of_leaf rfl (Nat.le_refl _)⟩
  | @Completes.wrong _ s t ts _ _ hup, hs => by
    have hpos : s.position r = t.span.start := by rw [State.position, hup]
    have hend : s.take.previousEnd = t.span.stop := by rw [State.take_eq hup]
    have hfits := (Later.take s (by rw [hup]; exact List.cons_ne_nil _ _)).fits hs
    have hle : t.span.stop ≤ s.take.position r := hend ▸ hfits.previousEnd_le
    rw [State.Fits, hup] at hs
    exact ⟨hpos.symm, Nat.le_of_eq hend, hle, .of_leaf rfl (Nat.le_of_lt hs.2.1)⟩
  | .finish _ _ _ hp hstart, hs => by
    obtain ⟨hin, hall⟩ := hp.inOrder hs
    exact (Spanned.of_parts hstart hin hall (Nat.le_refl _)
      (stop_spanOver_le_position hs hp.later hstart hin)).count
  | @Completes.openBlock _ _ s₁ statements hp hup, hs => by
    obtain ⟨hin, hall⟩ := hp.inOrder hs
    have hpos : s₁.position r = r.length := by rw [State.position, hup]
    have hle := stop_spanOver_le_position hs hp.later (.inl rfl) hin
    have hspan : Spanned r s ⟨s₁.nodeCount, _, .block statements⟩ s₁ :=
      .of_parts (.inl rfl) hin hall (Nat.le_max_left _ _)
        (Nat.max_le.2 ⟨hle, Nat.le_of_eq hpos.symm⟩)
    exact hspan.count
  | .nested _ hc, hs =>
    have h := hc.span hs
    ⟨h.start_eq, h.previousEnd_le, h.stop_le, h.wellNested⟩

end

/-- What a closing brace follows ends with it. -/
theorem Passes.endsWithBrace {s s' : State} {ns : List Node} {id : Nat} (h : Passes r s ns s')
    (hs : s.Fits r) (hkind : s'.kind = .punctuation .closeBrace) :
    EndsWithBrace s.upcoming
      ⟨id, spanOver (s.position r) s'.take.previousEnd ns, .block ns⟩ := by
  have hne : s'.kind ≠ .endOfFile := by
    rw [hkind]
    nofun
  obtain ⟨t, ts, hts⟩ := List.exists_cons_of_ne_nil (State.upcoming_ne_nil hne)
  have hbrace : t.kind = .punctuation .closeBrace := by rwa [State.kind, hts] at hkind
  have hpos : s'.position r = t.span.start := by rw [State.position, hts]
  have hend : s'.take.previousEnd = t.span.stop := by rw [State.take_eq hts]
  have hfits := h.later.fits hs
  rw [State.Fits, hts] at hfits
  have hlt : t.span.start < t.span.stop := hfits.2.1
  have hbehind : ∀ c ∈ ns, c.span.stop ≤ t.span.start := fun c hc =>
    hpos ▸ ((h.inOrder hs).1.mem hc).2.2
  have hstart : s.position r ≤ t.span.start := hpos ▸ hs.position_le h.later
  refine ⟨t, ?_, hbrace, Nat.le_antisymm ?_ ?_, hbehind⟩
  · obtain ⟨past, hup, -⟩ := h.later.consumed
    rw [hup, hts]
    exact List.mem_append_right _ List.mem_cons_self
  · rw [← hend]
    exact Nat.le_trans (Nat.le_max_left _ _) le_stop_spanOver
  · rw [hend]
    exact stop_spanOver_le (by omega) fun c hc => Nat.le_trans (hbehind c hc) (Nat.le_of_lt hlt)

end Parser

end ScriptLens
