import ScriptLens.Proofs.CarefulSteps
import ScriptLens.Proofs.Elements
import ScriptLens.Proofs.Numbering

/-!
# Stray characters in a text without problems

A path between angle brackets is the text itself, so any character can stand in it. Apart
from these paths, a text that is parsed without a problem has stray characters only where
the parser is not careful (`CarefulSteps`): as the name of a member, behind `->` or `.`,
and as an inherited name, behind `::`. There a stray character is taken for a name, which
it is nowhere else (`SourceTree.stray_member_accepted`).
-/

namespace ScriptLens

namespace Node

/-- **A token in the path of a system include.** -/
def IncludesRaw (n : Node) (t : Token) : Prop :=
  ∃ path, n.payload = .includeDirective path true
    ∧ path.span.start ≤ t.span.start ∧ t.span.stop ≤ path.span.stop

end Node

namespace Parser

variable {r : Setting} {bound : Nat} {s s' : State} {i : Inner} {n : Node}

/-! ## Directives -/

/-- Where all tokens that are consumed are allowed, there is nothing to be careful
about. -/
theorem Sweeps.of_allowed {allowed : Token → Prop} (h : Later s s')
    (hall : ∀ ts, s.upcoming = ts ++ s'.upcoming → s'.previousEnd = Token.endOf s.previousEnd ts →
      ∀ t ∈ ts, allowed t) : Sweeps allowed s s' := by
  obtain ⟨ts, hup, hend⟩ := h.consumed
  refine ⟨h, fun _ => ⟨ts, hup, fun before t after heq _ => .inl (hall ts hup hend t ?_)⟩⟩
  rw [heq]
  exact List.mem_append_right _ List.mem_cons_self

/-- What a construct consumes lies inside its node. -/
theorem Parses.within {P : Grammar.Phrase} (h : Parses r P s n s') (hs : s.Fits r) {ts : List Token}
    (hup : s.upcoming = ts ++ s'.upcoming) (hend : s'.previousEnd = Token.endOf s.previousEnd ts) :
    ∀ t ∈ ts, n.span.start ≤ t.span.start ∧ t.span.stop ≤ n.span.stop := by
  intro t ht
  have hspan := h.completes.span hs
  have hmem : t ∈ s.upcoming := by rw [hup]; exact List.mem_append_left _ ht
  refine ⟨hspan.start_eq ▸ hs.position_le_start hmem, ?_⟩
  refine Nat.le_trans ?_ hspan.previousEnd_le
  rw [State.Fits, hup] at hs
  rw [hend]
  exact (hs.append_left.mem ht).2.2

theorem CarefulAt.sweeps {m : Parse Node} (h : CarefulAt r s m) :
    Runs m m r s fun n s' => Sweeps n.IncludesRaw s s' :=
  ⟨rfl, Sweeps.mono h fun _ => False.elim⟩

/-- **The path of a system include is consumed whatever it is.** Any other directive
accepts no stray character. -/
theorem includeDirective_sweeps [i.IsCareful] (H : Alike r bound i i) (hs : Room r (bound + 1) s)
    (hkind : s.kind = .keyword .includeKw) :
    Runs (includeDirective i) (includeDirective i) r s fun n s' =>
      Sweeps n.IncludesRaw s s' := by
  by_cases hless : s.take.kind = .punctuation .less
  · have hs₁ := (hs.take hkind nofun).weaken
    refine .position (.step rfl (.currentKind ?_))
    rw [hless]
    refine (systemIncludePath_runs H hs₁ hless).bind fun path s₂ hpath => ?_
    refine (finish_counts.yields finish_yields).mono ?_
    rintro n _ ⟨rfl, hpayload⟩
    have htake : Sweeps n.IncludesRaw s s.take :=
      Sweeps.mono (CarefulAt.advance_of_kind (r := r) hkind nofun) fun _ => False.elim
    have hraw : Sweeps n.IncludesRaw s.take s₂ := .of_allowed hpath.later fun ts hup hend t ht =>
      ⟨path, hpayload, hpath.within hs₁.fits hup hend t ht⟩
    exact (htake.trans hraw).trans (.count s₂)
  · refine CarefulAt.sweeps (.look rfl (.consume_kind hkind nofun (.look rfl ?_)))
    split
    · exact .of
    · next h => exact absurd h hless
    · exact .of

instance [i.IsCareful] : Careful (inheritPath i) := by
  unfold inheritPath
  infer_instance

theorem topLevelElement_sweeps [i.IsCareful] (H : Alike r bound i i) (hs : Room r (bound + 1) s) :
    Runs (topLevelElement i) (topLevelElement i) r s fun n s' =>
      Sweeps n.IncludesRaw s s' := by
  refine .currentKind ?_
  split
  · next hkind => exact includeDirective_sweeps H hs hkind
  · next hkind => exact CarefulAt.sweeps (.look rfl (.consume_kind hkind nofun .of))
  · exact CarefulAt.sweeps .of

/-! ## The whole text -/

/-- **The elements of a text are swept one after the other.** -/
theorem Elements.sweeps [i.IsCareful] (H : Alike r bound i i) {ns : List Node}
    (h : Elements r i s ns s') (hs : Room r (bound + 1) s) :
    Sweeps (fun t => ∃ n ∈ ns, n.IncludesRaw t) s s' := by
  induction h with
  | nil s => exact .refl s
  | @cons s s₁ s' n ns hexec hparses _ ih =>
    have hfirst := (topLevelElement_sweeps H hs).2
    rw [hexec] at hfirst
    refine (hfirst.mono fun t ht => ?_).trans
      ((ih (hs.later hparses.later)).mono fun t ⟨m, hm, ht⟩ => ?_)
    · exact ⟨n, List.mem_cons_self, ht⟩
    · exact ⟨m, List.mem_cons_of_mem _ hm, ht⟩

/-- **All tokens of a text are swept.** -/
theorem run_sweeps (fileName : String) (text : List Char) :
    Sweeps (fun t => ∃ n ∈ (run .standard fileName text).1.fileStatements, n.IncludesRaw t)
        (.ofTokens (tokensOf text)) (run .standard fileName text).2
      ∧ (run .standard fileName text).2.upcoming = [] := by
  have hcareful := isCareful_ofBound (tokensOf text).length
  have hroom := room_ofTokens text
  obtain ⟨s', helements, hend, heq⟩ := run_elements fileName text
  have H : Alike (.ofText text) (tokensOf text).length (.ofBound .standard (tokensOf text).length)
      (.ofBound .standard (tokensOf text).length) :=
    alike_ofBound _ _ _ _ _ (Nat.le_refl _) (Nat.le_refl _)
  rw [heq]
  refine ⟨(helements.sweeps H hroom).trans (.count _), ?_⟩
  exact (helements.later.fits hroom.fits).upcoming_eq_nil hend

end Parser

/-- **Where stray characters are accepted.** In a text that is parsed without a problem, a
stray character lies in the path of a system include or stands right behind `->`, `.` or
`::`. -/
theorem SourceTree.stray_accepted (fileName : String) (text : List Char)
    (h : (SourceTree.parse fileName text).diagnostics = []) {before after : List Token} {t : Token}
    (ht : Parser.tokensOf text = before ++ t :: after) (hstray : t.lexeme.isStray = true) :
    (∃ n ∈ (SourceTree.parse fileName text).nodes, n.IncludesRaw t)
      ∨ ∃ mark ∈ before.getLast?, Parser.announcesName mark.kind = true := by
  obtain ⟨hsweeps, hend⟩ := Parser.run_sweeps fileName text
  have hsize : (Parser.run .standard fileName text).2.diagnostics.size = 0 := by
    rw [← Array.length_toList, List.length_eq_zero_iff]
    exact h
  obtain ⟨ts, hup, htidy⟩ := hsweeps.tidy (Nat.le_of_eq hsize)
  rw [hend, List.append_nil] at hup
  obtain rfl : Parser.tokensOf text = ts := hup
  refine (htidy before t after ht hstray).imp_left ?_
  rintro ⟨n, hn, hraw⟩
  exact ⟨n, Node.mem_postorder_of_mem_children hn n.mem_postorder_self, hraw⟩

/-- A stray character as the name of a member. -/
theorem SourceTree.stray_accepted_member :
    ∃ before t after, Parser.tokensOf "x.@;".toList = before ++ t :: after
      ∧ t.lexeme.isStray = true ∧ (SourceTree.parse "member" "x.@;".toList).diagnostics = []
      ∧ ((∃ n ∈ (SourceTree.parse "member" "x.@;".toList).nodes, n.IncludesRaw t)
        ∨ ∃ mark ∈ before.getLast?, Parser.announcesName mark.kind = true) := by
  have htokens : Parser.tokensOf "x.@;".toList
      = [⟨.identifier "x", ⟨0, 1⟩⟩, ⟨.punctuation .dot, ⟨1, 2⟩⟩]
        ++ ⟨.stray '@', ⟨2, 3⟩⟩ :: [⟨.punctuation .semicolon, ⟨3, 4⟩⟩] := by
    decide +kernel
  have hquiet : (SourceTree.parse "member" "x.@;".toList).diagnostics = [] := by decide +kernel
  exact ⟨_, _, _, htokens, rfl, hquiet, SourceTree.stray_accepted _ _ hquiet htokens rfl⟩

/-- **A stray character is accepted outside of every path**: behind a dot it is a name. -/
theorem SourceTree.stray_member_accepted :
    (SourceTree.parse "member" "x.@;".toList).diagnostics = []
      ∧ ∃ t ∈ Parser.tokensOf "x.@;".toList, t.lexeme.isStray = true
        ∧ ¬∃ n ∈ (SourceTree.parse "member" "x.@;".toList).nodes, n.kind = .includeDirective := by
  refine ⟨by decide +kernel, ⟨.stray '@', ⟨2, 3⟩⟩, by decide +kernel, rfl, ?_⟩
  -- the kinds of the nodes, one level after the other
  have hlevels : ∀ c ∈ (SourceTree.parse "member" "x.@;".toList).root.children,
      c.kind ≠ .includeDirective ∧ ∀ d ∈ c.children, d.kind ≠ .includeDirective
        ∧ ∀ e ∈ d.children, e.kind ≠ .includeDirective ∧ e.children.length = 0 := by
    decide +kernel
  have hnone : ∀ n ∈ (SourceTree.parse "member" "x.@;".toList).nodes,
      n.kind ≠ .includeDirective := by
    refine Node.forall_mem_postorder.2 ⟨fun c hc => ?_, by decide +kernel⟩
    obtain ⟨hstatement, hbelow⟩ := hlevels c hc
    refine Node.forall_mem_postorder.2 ⟨fun d hd => ?_, hstatement⟩
    obtain ⟨hmember, hnames⟩ := hbelow d hd
    refine Node.forall_mem_postorder.2 ⟨fun e he => ?_, hmember⟩
    obtain ⟨hname, hleaf⟩ := hnames e he
    refine Node.forall_mem_postorder.2 ⟨fun f hf => ?_, hname⟩
    rw [List.length_eq_zero_iff.1 hleaf] at hf
    cases hf
  exact fun ⟨n, hn, hkind⟩ => hnone n hn hkind

end ScriptLens
