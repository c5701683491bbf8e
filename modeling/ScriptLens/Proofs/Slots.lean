import ScriptLens.Proofs.ScopeBuilding
import ScriptLens.Service.Suggestion

/-!
# What belongs at a cursor in a declaration

A cursor in the name or the type of a declaration is classified by that place, wherever
the declaration stands. This could fail on the way there. `Node.suggestionAt` comes from
the root and follows the first part that the cursor touches, and it touches a part at
both ends: what ends where the declaration starts is touched as well. And a function, a
class or a call on the way has rules of its own for its modifiers, its type, its name or
its arguments.

Behind the start of the declaration neither happens. Parts that come earlier have ended
(`firstTouched_eq`), and the places with rules of their own declare nothing, so the
declaration is in none of them (`delegates`). What is left is a descent to the
declaration itself (`suggestionAt_eq_of_mem`).
-/

namespace ScriptLens

namespace Node

variable {tokens : List Token} {n c root slot : Node} {offset : Nat} {result : SuggestionType}

/-! ## On the way to a declaration -/

/-- A node leaves a cursor to one of its children. -/
def Delegates (n : Node) (offset : Nat) (c : Node) : Prop :=
  ∃ h, n.decisionAt offset = .delegated c h

theorem Delegates.suggestionAt (h : n.Delegates offset c) :
    n.suggestionAt offset = c.suggestionAt offset := by
  obtain ⟨hc, heq⟩ := h
  rw [Node.suggestionAt, heq]

theorem touches_eq_true (hlow : n.span.start < offset) (hhigh : offset ≤ n.span.stop) :
    n.touches offset = true := by
  simp [touches, Span.touches, Nat.le_of_lt hlow, hhigh]

theorem touches_eq_false (h : n.span.stop < offset) : n.touches offset = false := by
  simp [touches, Span.touches, h]

/-- The parts before one that a cursor is behind the start of do not touch it. -/
theorem WellNested.touches_of_before {before after : List Node} (hn : n.WellNested)
    (hsplit : n.children = before ++ c :: after) (hlow : c.span.start < offset) :
    ∀ b ∈ before, b.touches offset = false := by
  have hpairwise := hn.pairwise_children
  rw [hsplit, List.pairwise_append] at hpairwise
  intro b hb
  exact touches_eq_false
    (Nat.lt_of_le_of_lt (hpairwise.2.2 b hb c List.mem_cons_self) hlow)

/-- A cursor on neither the modifiers nor the type is left to what comes next. -/
theorem ofTypeSlot_eq {modifiers : List Node} {type : Node} {isChild : type ∈ n.children}
    {otherwise : Decision n} (hmodifiers : ∀ m ∈ modifiers, m.touches offset = false)
    (htype : type.touches offset = false) :
    Decision.ofTypeSlot modifiers type isChild offset otherwise = otherwise := by
  have hany : modifiers.any (·.touches offset) = false := by simpa using hmodifiers
  rw [Decision.ofTypeSlot, htype, hany]
  rfl

/-- What belongs in the place of a declared type: a type with its modifiers, or what a
placeholder there stands in for. -/
def typeSlotSuggestion (type : Node) : SuggestionType :=
  match type.payload with
  | .missing _ expected => .ofExpected expected
  | .wrong _ expected => .ofExpected expected
  | _ => .typeOrModifier

/-- **A place of a declaration**, and what belongs at a cursor in it. -/
inductive Slot (n : Node) : Node → SuggestionType → Prop
  | functionName {modifiers flags type name parameters body} :
    n.payload = .functionDeclaration modifiers flags type name parameters body →
      Slot n name .literal
  | className {modifiers flags name members} :
    n.payload = .classDeclaration modifiers flags name members → Slot n name .literal
  | variableName {name value} :
    n.payload = .variableDeclarator name value → Slot n name .literal
  | parameterName {type name variadic} :
    n.payload = .parameter type name variadic → Slot n name .literal
  | parameterType {type name variadic} :
    n.payload = .parameter type name variadic → Slot n type .type
  | variableType {modifiers flags type declarators} :
    n.payload = .variableDeclaration modifiers flags type declarators →
      Slot n type type.typeSlotSuggestion
  | returnType {modifiers flags type name parameters body} :
    n.payload = .functionDeclaration modifiers flags type name parameters body →
      Slot n type type.typeSlotSuggestion

theorem suggestionAt_of_settled (h : n.decisionAt offset = .settled result) :
    n.suggestionAt offset = result := by
  rw [Node.suggestionAt, h]

/-- A cursor on the type is classified by what stands there. -/
theorem suggestionAt_of_typeSlot {modifiers : List Node} {type : Node}
    {isChild : type ∈ n.children} {otherwise : Decision n}
    (h : n.decisionAt offset = .ofTypeSlot modifiers type isChild offset otherwise)
    (htype : type.touches offset = true) :
    n.suggestionAt offset = type.typeSlotSuggestion := by
  rw [Decision.ofTypeSlot, htype, Bool.or_true, Bool.true_and, if_pos rfl] at h
  split at h
  · next hplaceholder =>
    have hdelegates : n.Delegates offset type := ⟨isChild, h⟩
    rw [hdelegates.suggestionAt, Node.suggestionAt]
    obtain ⟨id, span, payload⟩ := type
    cases payload <;> first | rfl | cases hplaceholder
  · next hplaceholder =>
    rw [suggestionAt_of_settled h]
    obtain ⟨id, span, payload⟩ := type
    cases payload <;> first | rfl | exact absurd rfl hplaceholder

theorem ofNameSlot_eq_settled {name : Node} {otherwise : Decision n}
    (hname : name.touches offset = true) :
    Decision.ofNameSlot name offset otherwise = .settled .literal := by
  rw [Decision.ofNameSlot, hname]
  rfl

namespace Slot

theorem mem_children (h : n.Slot slot result) : slot ∈ n.children := by
  cases h <;> next heq => simp [children, heq, Payload.children]

/-- **A declaration classifies a cursor in one of its places by that place.** What stands
before the place has ended there. -/
theorem suggestionAt (h : n.Slot slot result) (hn : n.WellNested)
    (hlow : slot.span.start < offset) (hhigh : offset ≤ slot.span.stop) :
    n.suggestionAt offset = result := by
  have htouches := touches_eq_true hlow hhigh
  obtain ⟨id, span, payload⟩ := n
  cases h with
  | @functionName modifiers flags type _ parameters body heq =>
    cases heq
    have hsplit : modifiers ++ type :: slot :: parameters.items ++ body.toList
        = (modifiers ++ [type]) ++ slot :: (parameters.items ++ body.toList) := by simp
    obtain ⟨hmodifiers, htype⟩ :=
      List.forall_mem_append.1 (hn.touches_of_before hsplit hlow)
    exact suggestionAt_of_settled
      ((ofTypeSlot_eq hmodifiers (htype type (List.mem_singleton_self type))).trans
        (ofNameSlot_eq_settled htouches))
  | @className modifiers flags _ members heq =>
    cases heq
    have hsplit : modifiers ++ slot :: members = modifiers ++ slot :: members := rfl
    have hany : modifiers.any (·.touches offset) = false := by
      simpa using hn.touches_of_before hsplit hlow
    refine suggestionAt_of_settled ?_
    show (if modifiers.any (·.touches offset) then _ else _) = _
    rw [hany]
    exact ofNameSlot_eq_settled htouches
  | variableName heq =>
    cases heq
    exact suggestionAt_of_settled (ofNameSlot_eq_settled htouches)
  | @parameterName type _ variadic heq =>
    cases heq
    have hsplit : [type, slot] = [type] ++ slot :: [] := rfl
    have htype := hn.touches_of_before hsplit hlow type (List.mem_singleton_self type)
    refine suggestionAt_of_settled ?_
    show (if type.touches offset then _ else _) = _
    rw [htype]
    exact ofNameSlot_eq_settled htouches
  | parameterType heq =>
    cases heq
    exact suggestionAt_of_settled (if_pos htouches)
  | variableType heq =>
    cases heq
    exact suggestionAt_of_typeSlot rfl htouches
  | returnType heq =>
    cases heq
    exact suggestionAt_of_typeSlot rfl htouches

end Slot

end Node

open Node

end ScriptLens
