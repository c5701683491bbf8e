import ScriptLens.Proofs.SourceRuns

/-!
# The elements of a text one by one

A directive or a statement at the top level is parsed from a state in which nothing is
known but the tokens that are left. What is true of the parse of one element can therefore
be carried to a whole text, element by element: that is an induction on `Elements`. And
what one element of a text is can be read off its own parse, the others only put something
before it and behind it (`Elements.exists_parse`).
-/

namespace ScriptLens.Parser

variable {r : Setting} {bound : Nat} {s s' : State} {i j : Inner} {n : Node} {ns : List Node}

/-- **Elements are parsed one after the other.** -/
inductive Elements (r : Setting) (i : Inner) : State → List Node → State → Prop
  | nil (s : State) : Elements r i s [] s
  | cons {s s₁ s' : State} {n : Node} {ns : List Node} :
    exec (topLevelElement i) r s = (n, s₁) → Parses r .element s n s₁ → Elements r i s₁ ns s' →
      Elements r i s (n :: ns) s'

namespace Elements

theorem later (h : Elements r i s ns s') : Later s s' := by
  induction h with
  | nil s => exact .refl s
  | cons _ hparses _ ih => exact hparses.later.trans ih

/-- The parse of one element, between those before it and those behind it. -/
theorem exists_parse (h : Elements r i s ns s') (hn : n ∈ ns) :
    ∃ before after s₁ s₂, ns = before ++ n :: after ∧ Elements r i s before s₁
      ∧ exec (topLevelElement i) r s₁ = (n, s₂) ∧ Parses r .element s₁ n s₂
      ∧ Elements r i s₂ after s' := by
  induction h with
  | nil _ => cases hn
  | @cons s s₁ s' m ns hexec hparses hrest ih =>
    rcases List.mem_cons.1 hn with rfl | hn
    · exact ⟨[], ns, s, s₁, rfl, .nil s, hexec, hparses, hrest⟩
    · obtain ⟨before, after, s₂, s₃, rfl, hbefore, hexec', hparses', hafter⟩ := ih hn
      exact ⟨m :: before, after, s₂, s₃, rfl, .cons hexec hparses hbefore, hexec', hparses',
        hafter⟩

end Elements

theorem topLevelElements_elements (H : Alike r bound i j) (hs : Room r (bound + 1) s) :
    Runs (topLevelElements i) (topLevelElements j) r s fun ns s' =>
      Elements r i s ns s' ∧ s'.kind = .endOfFile := by
  refine H.collect (fun s ns s' => Elements r i s ns s' ∧ s'.kind = .endOfFile) (Nat.le_refl _) hs
    fun s hs => ?_
  refine .sees (fun hend => .pure (.stop ⟨.nil s, hend⟩)) fun hend => .position ?_
  refine (topLevelElement_runs H hs).self.bind fun n s₁ ⟨hexec, hn⟩ => ?_
  have hmoved := hn.moves (bne_iff_ne.2 hend)
  refine .position (.step rfl (.ite (fun hstill => ?_) fun _ => .pure (.again ?_)))
  · have hpos := hs.fits.position_lt hn.later hmoved
    exact absurd (beq_iff_eq.1 (Bool.and_eq_true_iff.1 hstill).1) (Nat.ne_of_gt hpos)
  · exact ⟨hn.later, hmoved, fun ns s₂ ⟨hns, hlast⟩ => ⟨.cons hexec hn hns, hlast⟩⟩

/-- **A whole text is its elements**, up to its end. -/
theorem run_elements (fileName : String) (text : List Char) :
    ∃ s', Elements (.ofText text) (.ofBound .standard (tokensOf text).length)
        (.ofTokens (tokensOf text)) (run .standard fileName text).1.fileStatements s'
      ∧ s'.kind = .endOfFile ∧ (run .standard fileName text).2 = s'.count := by
  obtain ⟨-, helements, hend⟩ := topLevelElements_elements
    (alike_ofBound .standard .standard _ _ _ (Nat.le_refl _) (Nat.le_refl _)) (room_ofTokens text)
  exact ⟨_, helements, hend, rfl⟩

/-- **An element in the run over a text**: it is parsed from `s` to `s'`, where the elements
before it lead to `s`, and those behind it follow from `s'` on. -/
inductive ReadsElement (fileName : String) (text : List Char) : State → Node → State → Prop
  | mk {earlier later : List Node} {s s' last : State} {n : Node} :
    (run .standard fileName text).1.fileStatements = earlier ++ n :: later →
    Elements (.ofText text) (.ofBound .standard (tokensOf text).length)
      (.ofTokens (tokensOf text)) earlier s →
    exec (topLevelElement (.ofBound .standard (tokensOf text).length)) (.ofText text) s = (n, s') →
    Elements (.ofText text) (.ofBound .standard (tokensOf text).length) s' later last →
      ReadsElement fileName text s n s'

/-- **Every element of a text is read in its run**, from a state behind tokens of the text. -/
theorem exists_readsElement {fileName : String} {text : List Char}
    (hn : n ∈ (run .standard fileName text).1.fileStatements) :
    ∃ s s', ReadsElement fileName text s n s' ∧ Later (.ofTokens (tokensOf text)) s
      ∧ Parses (.ofText text) .element s n s' := by
  obtain ⟨last, helements, -⟩ := run_elements fileName text
  obtain ⟨earlier, later, s, s', heq, hearlier, hexec, hparses, hlater⟩ :=
    helements.exists_parse hn
  exact ⟨s, s', .mk heq hearlier hexec hlater, hearlier.later, hparses⟩

end ScriptLens.Parser
