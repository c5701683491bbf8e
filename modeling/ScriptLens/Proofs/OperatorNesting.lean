import ScriptLens.Proofs.CompletedNodes
import ScriptLens.Proofs.Numbering

/-!
# Operators in the tree of a text

Every expression groups its operators by their levels, in a text with problems as much
as in one without. A placeholder is an operand like any other, and so is a construct
that was refused for being too deep.

Each node was either finished where its operands fit or is no node with operands
(`SourceTree.parse_partsFit`), so nothing remains to be shown of runs. What the operands are
when a node is finished is a matter of the functions that parse expressions
(`binary_runs`).
-/

namespace ScriptLens

/-- **Operators nest by their levels** in every text: those of one level to the left and
assignments to the right, with no conditional or assignment as an operand of what binds
more tightly. -/
theorem SourceTree.parse_operatorsNest (fileName : String) (text : List Char) :
    ∀ n ∈ (SourceTree.parse fileName text).nodes, n.OperatorsNest := by
  intro n hn
  have hfit := SourceTree.parse_partsFit fileName text n hn
  exact hfit.operands.operatorsNest

/-- Two differences, of which the second lacks its right operand. -/
theorem SourceTree.parse_operatorsNest_difference :
    ∃ n ∈ (SourceTree.parse "room" "a - b - ;".toList).nodes,
      n.operator? = some .minus ∧ n.span.stop = 8 ∧ n.OperatorsNest := by
  -- the node is the expression of the only statement
  have hminus : ((SourceTree.parse "room" "a - b - ;".toList).root.children[0]?.bind fun c =>
      c.children[0]?.map fun n => (n.operator?, n.span.stop)) = some (some .minus, 8) := by
    decide +kernel
  obtain ⟨c, hstatement, hc⟩ := Option.bind_eq_some_iff.1 hminus
  obtain ⟨n, hexpression, heq⟩ := Option.map_eq_some_iff.1 hc
  obtain ⟨hoperator, hstop⟩ := Prod.mk.inj heq
  have hn := Node.mem_postorder_of_mem_children (List.mem_of_getElem? hstatement)
    (Node.mem_postorder_of_mem_children (List.mem_of_getElem? hexpression) n.mem_postorder_self)
  exact ⟨n, hn, hoperator, hstop, SourceTree.parse_operatorsNest _ _ n hn⟩

end ScriptLens
