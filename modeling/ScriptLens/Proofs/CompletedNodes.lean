import ScriptLens.Proofs.SourceRuns

/-!
# Every node was completed

A fact about one kind of nodes is read off the step that completes such a node, whatever is
around it (`Parser.CompletedWith`). That this says something of every node of a text is the
same induction for each of these facts, and stands here alone: below whatever a run completes,
every node was completed by a step of its own, between the same tokens
(`SourceTree.forall_nodes`).
-/

namespace ScriptLens

open Node

namespace Parser

variable {r : Setting} {tokens : List Token} {P : Node → Prop}

theorem State.At.upcoming_subset {s : State} (h : s.At tokens) : s.upcoming ⊆ tokens := by
  obtain ⟨past, rfl, -⟩ := h
  exact List.subset_append_right _ _

/-- **What every node has that is completed between given tokens**, by the step that completes
it. Nesting is no such step: it hands on the node that was completed inside. -/
structure CompletedWith (r : Setting) (tokens : List Token) (P : Node → Prop) : Prop where
  missing : ∀ id span message expected, P ⟨id, span, .missing message expected⟩
  wrong : ∀ id span message expected, P ⟨id, span, .wrong message expected⟩
  finish : ∀ {s s' : State} {start : Nat} {payload : Payload Node}, s.At tokens →
    payload.kind.isSentinel = false → payload.PartsFit → Attested r s start payload s' →
    Passes r s payload.children s' → Starts r s start payload.children s' →
      P ⟨s'.nodeCount, spanOver start s'.previousEnd payload.children, payload⟩
  openBlock : ∀ {s s' : State} {ns : List Node}, s.At tokens → Passes r s ns s' →
    s'.upcoming = [] →
      P ⟨s'.nodeCount, ⟨(spanOver (s.position r) s'.previousEnd ns).start,
        max (spanOver (s.position r) s'.previousEnd ns).stop r.length⟩, .block ns⟩

mutual

theorem Passes.forall_nodes {s s' : State} {ns : List Node} :
    Passes r s ns s' → CompletedWith r tokens P → s.At tokens →
      ∀ n ∈ ns, ∀ m ∈ n.postorder, P m
  | .nil _, _, _ => List.forall_mem_nil _
  | .take hne hp, h, hat => hp.forall_nodes h (hat.later (.take _ hne))
  | .report _ hp, h, hat => hp.forall_nodes h hat
  | .child hc hp, h, hat =>
    List.forall_mem_cons.2 ⟨hc.forall_nodes h hat, hp.forall_nodes h (hat.later hc.later)⟩

/-- **Every node below a node that a run completes** has what such a node is completed with. -/
theorem Completes.forall_nodes {s s' : State} {n : Node} :
    Completes r s n s' → CompletedWith r tokens P → s.At tokens → ∀ m ∈ n.postorder, P m
  | .missing _ _, h, _ =>
    forall_mem_postorder.2 ⟨List.forall_mem_nil _, h.missing _ _ _ _⟩
  | .wrong _ _ _, h, _ =>
    forall_mem_postorder.2 ⟨List.forall_mem_nil _, h.wrong _ _ _ _⟩
  | .finish hkind hfit hout hp hstart, h, hat =>
    forall_mem_postorder.2 ⟨hp.forall_nodes h hat, h.finish hat hkind hfit hout hp hstart⟩
  | .openBlock hp hup, h, hat =>
    forall_mem_postorder.2 ⟨hp.forall_nodes h hat, h.openBlock hat hp hup⟩
  | .nested _ hc, h, hat => hc.forall_nodes h hat

end

theorem ParsesSource.forall_nodes {s s' : State} {fileName : String} {root : Node}
    (hparses : ParsesSource r fileName s root s') (h : CompletedWith r tokens P)
    (hat : s.At tokens)
    (hroot : ∀ n statements, n.payload = .sourceFile fileName statements → P n) :
    ∀ m ∈ root.postorder, P m := by
  cases hparses with
  | mk hns _ =>
    exact forall_mem_postorder.2 ⟨hns.gives.passes.forall_nodes h hat, hroot _ _ rfl⟩

end Parser

/-- **Every node of a text** has what a node is completed with between the tokens of the text,
if the root has it too. -/
theorem SourceTree.forall_nodes {fileName : String} {text : List Char} {P : Node → Prop}
    (h : Parser.CompletedWith (.ofText text) (Parser.tokensOf text) P)
    (hroot : ∀ n statements, n.payload = .sourceFile fileName statements → P n) :
    ∀ n ∈ (SourceTree.parse fileName text).nodes, P n := by
  obtain ⟨-, hparses⟩ := Parser.run_parses .standard .standard fileName text
  exact hparses.forall_nodes h (.ofTokens _) hroot

/-- **The parts of every construct of a text fit it.** -/
theorem SourceTree.parse_partsFit (fileName : String) (text : List Char) :
    ∀ n ∈ (SourceTree.parse fileName text).nodes, n.payload.PartsFit := by
  refine SourceTree.forall_nodes ⟨fun _ _ _ _ => ⟨trivial, trivial⟩,
    fun _ _ _ _ => ⟨trivial, trivial⟩, fun _ _ hfit _ _ _ => hfit,
    fun _ _ _ => ⟨trivial, trivial⟩⟩ fun n statements hn => ?_
  rw [hn]
  exact ⟨trivial, trivial⟩

end ScriptLens
