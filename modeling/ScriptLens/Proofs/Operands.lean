import ScriptLens.Proofs.Runs

/-!
# What operators are applied to

A binary operator is applied to what `unary` gives, or to what another binary operator
gave. That the former is neither made by a binary operator nor a conditional itself is
what the levels begin with, and it holds of every run, also of one that comes to a
placeholder: parentheses are a node of their own.
-/

namespace ScriptLens.Parser

open Node

variable {inner : Inner}

/-- A placeholder is an operand of any operator. -/
theorem isOperand_of_isSentinel {n : Node} (h : n.kind.isSentinel = true) : n.IsOperand := by
  unfold IsOperand
  revert h
  cases n.kind <;> first | exact fun _ => rfl | nofun

/-! Each of the following gives an operand of any operator. -/

theorem finish_isOperand {start : Nat} {payload : Payload Node}
    (h : payload.kind.isOperand = true) :
    Yields (finish start payload) IsOperand :=
  fun _ _ => h

theorem stringParts_isOperand :
    Yields (stringParts inner) fun ns => ∀ n ∈ ns, n.IsOperand := by
  have hliteral : ∀ value, Yields (literal value) IsOperand :=
    fun _ => .skip fun _ => finish_isOperand rfl
  refine collect_yields (.skip fun _ => ?_) _
  split
  · exact (hliteral _).bind fun _ hn => .pure (List.forall_mem_singleton.2 hn)
  · exact .pure nofun

theorem stringLiterals_isOperand : Yields (stringLiterals inner) IsOperand := by
  refine .skip fun _ => stringParts_isOperand.bind fun parts hparts => ?_
  split
  · exact .pure (hparts _ List.mem_cons_self)
  · exact finish_isOperand rfl

theorem primary_isOperand : Yields (primary inner) IsOperand := by
  refine .skip fun token => ?_
  have hliteral : ∀ value, Yields (literal value) IsOperand :=
    fun _ => .skip fun _ => finish_isOperand rfl
  cases token.lexeme with
  | stray c => exact wrong_yields fun _ => isOperand_of_isSentinel
  | identifier name => exact .skip fun _ => finish_isOperand rfl
  | integer value => exact hliteral _
  | character c closed => exact hliteral _
  | symbol name => exact hliteral _
  | string text closed => exact stringLiterals_isOperand
  | docString text closed => exact stringLiterals_isOperand
  | keyword word =>
    cases word with
    | trueKw | falseKw | nilKw | thisKw => exact hliteral _
    | newKw =>
      exact .skip fun _ => .skip fun _ => .skip fun _ => .skip fun _ => finish_isOperand rfl
    | _ => exact missingOrWrong_yields fun _ => isOperand_of_isSentinel
  | punctuation mark =>
    cases mark with
    | doubleColon =>
      refine .skip fun _ => .skip fun _ => .skip fun _ => .ite ?_ ?_
      · exact .skip fun _ => finish_isOperand rfl
      · exact .skip fun _ => finish_isOperand rfl
    | openParen =>
      exact .skip fun _ => .skip fun _ => .skip fun _ => .skip fun _ => finish_isOperand rfl
    | openArray | openMapping =>
      refine .skip fun _ => .skip fun _ => .skip fun _ => .skip fun _ => .skip fun _ => ?_
      exact finish_isOperand rfl
    | _ => exact missingOrWrong_yields fun _ => isOperand_of_isSentinel
  | _ => exact missingOrWrong_yields fun _ => isOperand_of_isSentinel

theorem applyPostfix_isOperand {expression : Node} (h : expression.IsOperand) :
    Yields (applyPostfix inner expression) fun next => next.1.IsOperand := by
  have hstep : ∀ operator, Yields (postfixUnary operator expression) IsOperand :=
    fun _ => .skip fun _ => finish_isOperand rfl
  have hmember : Yields (memberAccess expression) IsOperand :=
    .skip fun _ => .skip fun _ => finish_isOperand rfl
  have hsubscript : Yields (subscript inner expression) IsOperand :=
    .skip fun _ => .skip fun _ => .skip fun _ => .skip fun _ => .skip fun _ => finish_isOperand rfl
  have hcall : Yields (call inner expression) IsOperand := .skip fun _ => finish_isOperand rfl
  refine .skip fun _ => ?_
  split
  · exact hcall.bind fun _ hn => .pure hn
  · exact hsubscript.bind fun _ hn => .pure hn
  · exact hmember.bind fun _ hn => .pure hn
  · exact hmember.bind fun _ hn => .pure hn
  · exact (hstep _).bind fun _ hn => .pure hn
  · exact (hstep _).bind fun _ hn => .pure hn
  · exact .pure h

theorem postfixExpression_isOperand : Yields (postfixExpression inner) IsOperand :=
  primary_isOperand.bind fun _ hn => iterate_yields (fun _ hn => applyPostfix_isOperand hn) _ hn

/-- **An operand with the unary operators before it is an operand of any operator.** -/
theorem unary_isOperand : Yields (unary inner) IsOperand := by
  have hcast : Yields (cast inner) IsOperand :=
    .skip fun _ => .skip fun _ => .skip fun _ => .skip fun _ => .skip fun _ => finish_isOperand rfl
  have hsign : ∀ operator, Yields (prefixExpression inner operator) IsOperand :=
    fun _ => .skip fun _ => .skip fun _ => .skip fun _ => finish_isOperand rfl
  refine nested_yields (fun _ => isOperand_of_isSentinel) ?_
  refine .skip fun _ => .ite hcast (.skip fun _ => ?_)
  split
  · exact .ite (hsign _) postfixExpression_isOperand
  · exact postfixExpression_isOperand

end ScriptLens.Parser
