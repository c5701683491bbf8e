import ScriptLens.Parser.Expressions

/-!
# Operators and their operands

Two readings of the same words differ in which operator is applied first, and only
the tree tells which. What a tree may look like is said here operator by operator:
`Payload.OperandsFit` compares the operands with the level of the operator that stands
between them, and `Node.OperatorsNest` spells out what that comes to.

One comparison does for all operators, `Node.Tighter`. An assignment is on no level, so
what is tighter than some level assigns nothing; the conditional, which is on no level
either, is excluded by its kind.
-/

namespace ScriptLens

open ScriptLens.Parser (binaryLevel)

/-- Whether nodes of a kind can be operands of any operator. -/
def NodeKind.isOperand : NodeKind → Bool
  | binary | conditional => false
  | _ => true

namespace Node

/-- A node that can be an operand of any operator. -/
def IsOperand (n : Node) : Prop := n.kind.isOperand = true

/-- The operator between the two operands of an expression. -/
def operator? (n : Node) : Option Punctuation :=
  match n.payload with
  | .binary _ operator _ => some operator
  | _ => none

/-- An expression that assigns. -/
def IsAssignment (n : Node) : Prop := ∃ operator ∈ n.operator?, operator.isAssignment = true

/-- **An expression that holds together more tightly than a level**: it is no
conditional, and the operator between its operands, if there is one, is above the
level. -/
structure Tighter (level : Nat) (n : Node) : Prop where
  not_conditional : n.kind ≠ .conditional
  lt_level : ∀ operator ∈ n.operator?, level < binaryLevel (.punctuation operator)

variable {level looser : Nat} {n : Node}

theorem Tighter.of_binary {left right : Node} {operator : Punctuation}
    (hpayload : n.payload = .binary left operator right)
    (h : level < binaryLevel (.punctuation operator)) : n.Tighter level := by
  refine ⟨fun heq => ?_, fun operator' hoperator => ?_⟩
  · rw [kind, hpayload] at heq
    cases heq
  · rw [operator?, hpayload] at hoperator
    rwa [← Option.some.inj hoperator]

theorem not_isAssignment_of_conditional {condition whenTrue : Node} {whenFalse : Option Node}
    (hpayload : n.payload = .conditional condition whenTrue whenFalse) : ¬n.IsAssignment := by
  rintro ⟨operator, hoperator, -⟩
  rw [operator?, hpayload] at hoperator
  cases hoperator

/-- No operator is both on a level and an assignment. -/
theorem binaryLevel_of_isAssignment {operator : Punctuation}
    (h : operator.isAssignment = true) : binaryLevel (.punctuation operator) = 0 := by
  cases operator <;> first | rfl | cases h

theorem IsOperand.operator?_eq_none (h : n.IsOperand) : n.operator? = none := by
  obtain ⟨id, span, payload⟩ := n
  cases payload <;> first | rfl | cases h

theorem IsOperand.tighter (h : n.IsOperand) : n.Tighter level := by
  refine ⟨fun heq => ?_, fun operator hoperator => ?_⟩
  · rw [IsOperand, heq] at h
    cases h
  · rw [h.operator?_eq_none] at hoperator
    cases hoperator

theorem Tighter.mono (h : n.Tighter level) (hle : looser ≤ level) : n.Tighter looser :=
  ⟨h.not_conditional, fun operator hoperator =>
    Nat.lt_of_le_of_lt hle (h.lt_level operator hoperator)⟩

theorem Tighter.not_isAssignment (h : n.Tighter level) : ¬n.IsAssignment := by
  rintro ⟨operator, hoperator, hassign⟩
  have hlevel := h.lt_level operator hoperator
  rw [binaryLevel_of_isAssignment hassign] at hlevel
  exact Nat.not_lt_zero _ hlevel

end Node

/-- **The operands of an operator fit it.** An operator of some level has operands
that are tighter: on its left those of its own level too, on its right none of them.
An assignment assigns to no assignment. -/
def Payload.OperandsFit : Payload Node → Prop
  | .binary left operator right =>
    (operator.isAssignment = true ∧ ¬left.IsAssignment)
      ∨ ∃ level, binaryLevel (.punctuation operator) = level + 1
        ∧ left.Tighter level ∧ right.Tighter (level + 1)
  | .conditional condition _ _ => condition.Tighter 0
  | _ => True

theorem Payload.OperandsFit.of_isOperand {payload : Payload Node}
    (h : payload.kind.isOperand = true) : payload.OperandsFit := by
  cases payload <;> trivial

/-- **How operators nest** at a node. -/
structure Node.OperatorsNest (n : Node) : Prop where
  /-- An operator between two operands is on a level or assigns. -/
  operator_known : ∀ left operator right, n.payload = .binary left operator right →
    0 < binaryLevel (.punctuation operator) ∨ operator.isAssignment = true
  /-- On a level no operand is a conditional or assigns. -/
  operands_closed : ∀ left operator right, n.payload = .binary left operator right →
    0 < binaryLevel (.punctuation operator) →
      ∀ operand ∈ [left, right], operand.kind ≠ .conditional ∧ ¬operand.IsAssignment
  /-- Operators of one level associate to the left. -/
  left_level : ∀ left operator right, n.payload = .binary left operator right →
    0 < binaryLevel (.punctuation operator) → ∀ inside ∈ left.operator?,
      binaryLevel (.punctuation operator) ≤ binaryLevel (.punctuation inside)
  right_level : ∀ left operator right, n.payload = .binary left operator right →
    0 < binaryLevel (.punctuation operator) → ∀ inside ∈ right.operator?,
      binaryLevel (.punctuation operator) < binaryLevel (.punctuation inside)
  /-- Assignments associate to the right. -/
  assignment_left : ∀ left operator right, n.payload = .binary left operator right →
    operator.isAssignment = true → ¬left.IsAssignment
  condition_closed : ∀ condition whenTrue whenFalse,
    n.payload = .conditional condition whenTrue whenFalse →
      condition.kind ≠ .conditional ∧ ¬condition.IsAssignment

/-- Operators nest where operands fit. -/
theorem Payload.OperandsFit.operatorsNest {n : Node} (h : n.payload.OperandsFit) :
    n.OperatorsNest := by
  -- an operator that is on a level does not assign, so the other case is left
  have honLevel : ∀ {left operator right}, n.payload = .binary left operator right →
      0 < binaryLevel (.punctuation operator) →
        left.Tighter (binaryLevel (.punctuation operator) - 1)
          ∧ right.Tighter (binaryLevel (.punctuation operator)) := by
    intro left operator right hpayload hpos
    rw [hpayload] at h
    rcases h with ⟨hassign, -⟩ | ⟨level, hlevel, hleft, hright⟩
    · rw [Node.binaryLevel_of_isAssignment hassign] at hpos
      exact absurd hpos (Nat.lt_irrefl _)
    · rw [hlevel]
      exact ⟨hleft, hright⟩
  refine ⟨?_, ?_, ?_, ?_, ?_, ?_⟩
  · intro left operator right hpayload
    rw [hpayload] at h
    rcases h with ⟨hassign, -⟩ | ⟨level, hlevel, -⟩
    · exact .inr hassign
    · exact .inl (by rw [hlevel]; exact Nat.succ_pos _)
  · intro left operator right hpayload hpos operand hoperand
    obtain ⟨hleft, hright⟩ := honLevel hpayload hpos
    rw [List.mem_cons, List.mem_singleton] at hoperand
    rcases hoperand with rfl | rfl
    · exact ⟨hleft.not_conditional, hleft.not_isAssignment⟩
    · exact ⟨hright.not_conditional, hright.not_isAssignment⟩
  · intro left operator right hpayload hpos inside hinside
    exact Nat.le_of_pred_lt ((honLevel hpayload hpos).1.lt_level inside hinside)
  · intro left operator right hpayload hpos inside hinside
    exact (honLevel hpayload hpos).2.lt_level inside hinside
  · intro left operator right hpayload hassign
    rw [hpayload] at h
    rcases h with ⟨-, hleft⟩ | ⟨level, hlevel, -⟩
    · exact hleft
    · rw [Node.binaryLevel_of_isAssignment hassign] at hlevel
      cases hlevel
  · intro condition whenTrue whenFalse hpayload
    rw [hpayload] at h
    have hcondition : condition.Tighter 0 := h
    exact ⟨hcondition.not_conditional, hcondition.not_isAssignment⟩

end ScriptLens
