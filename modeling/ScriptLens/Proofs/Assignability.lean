import Mathlib.Data.List.Forall2
import ScriptLens.Types.Assignable

/-!
# What assignability asks for

Assignability compares tags, then array dimensions, and at last the signatures of two
function types. `assignable_iff` takes it apart into these three, so that what is said of
it here needs no case for every tag.

Two laws come of it. Every type accepts itself, and dimensions matter only by their
difference (`assignable_self_and_raise`). And whatever is assignable stays so when less is
known of either side (`assignable_of_lessKnown`): a type of which a part is absent or not
understood gives rise to no incompatibility. The results of two function types are compared
in both directions, so neither law is an induction on one side only.
-/

namespace ScriptLens

/-! ## Tags, dimensions and signatures -/

/-- Whether a known type accepts another one as far as their tags tell. -/
def TypeTag.accepts : (target source : TypeTag) → Bool
  | any, _ => true
  | object, source => TypeShape.fitsObject source
  | int, source | bool, source => source == int || source == bool
  | string, source => source == string || source == nil
  | symbol, source => source == symbol || source == nil
  | target, source => target == source

/-- Whether a type accepts others whatever their array dimensions are. -/
def TypeTag.ignoresDepth : TypeTag → Bool
  | any | object => true
  | _ => false

theorem TypeTag.accepts_self (tag : TypeTag) : tag.accepts tag = true := by
  cases tag <;> simp [accepts, TypeShape.fitsObject]

/-- **One signature is assignable to another**: the results in both directions, the
parameters one by one. -/
structure Signature.Fits (target source : Signature TypeShape) : Prop where
  result : target.returnType.assignable source.returnType = true
  result_back : source.returnType.assignable target.returnType = true
  parameters : List.Forall₂ (fun t s => t.assignable s = true) target.parameters source.parameters

/-- The test for it. -/
theorem Signature.fits_iff {f g : Signature TypeShape} : f.Fits g ↔
    (f.returnType.assignable g.returnType && g.returnType.assignable f.returnType
      && f.parameters.length == g.parameters.length
      && (f.parameters.zip g.parameters).attach.all fun p => p.1.1.assignable p.1.2) = true := by
  have hparameters := @List.forall₂_iff_zip _ _ (fun t s : TypeShape => t.assignable s = true)
    f.parameters g.parameters
  simp only [Bool.and_eq_true, beq_iff_eq, List.all_eq_true, List.mem_attach, true_imp_iff,
    Subtype.forall, Prod.forall, and_assoc]
  refine ⟨fun h => ⟨h.result, h.result_back, ?_⟩, fun ⟨hresult, hback, hrest⟩ => ?_⟩
  · obtain ⟨hlength, hzip⟩ := hparameters.1 h.parameters
    exact ⟨hlength, fun p q hpq => hzip hpq⟩
  · exact ⟨hresult, hback, hparameters.2 ⟨hrest.1, fun {p q} hpq => hrest.2 p q hpq⟩⟩

namespace TypeShape

variable {t s t' s' : TypeShape} {f g f' g' : Option (Signature TypeShape)}

/-- The signatures of two types fit, where both have one. -/
def SignaturesFit (f g : Option (Signature TypeShape)) : Prop :=
  ∀ f' ∈ f, ∀ g' ∈ g, f'.Fits g'

/-- **What assignability asks for.** -/
theorem assignable_iff : t.assignable s = true ↔
    t.tag = .unknown ∨ s.tag = .unknown
      ∨ t.tag.accepts s.tag = true ∧ (t.tag.ignoresDepth = true ∨ t.arrayDepth = s.arrayDepth)
        ∧ (t.tag = .function → SignaturesFit t.signature s.signature) := by
  rw [assignable]
  by_cases ht : t.tag = .unknown
  · simp [isUnknown, ht]
  by_cases hs : s.tag = .unknown
  · simp [isUnknown, hs]
  rw [if_neg (by simp [isUnknown, ht, hs]), or_iff_right ht, or_iff_right hs]
  cases htag : t.tag
  case function =>
    dsimp only
    rw [Bool.and_eq_true]
    refine (and_congr_right' (?_ : _ ↔ SignaturesFit t.signature s.signature)).trans ?_
    · unfold SignaturesFit
      split
      · next f g hf hg =>
        rw [← Signature.fits_iff, hf, hg]
        simp
      · next hnone =>
        exact iff_of_true rfl fun f hf g hg => (hnone f g hf hg).elim
    · simp [TypeTag.accepts, TypeTag.ignoresDepth, and_assoc, @eq_comm _ TypeTag.function]
  -- the other rules do not look at signatures
  all_goals simp [TypeTag.accepts, TypeTag.ignoresDepth]

/-! ## A type and itself, and arrays -/

/-- A type accepts itself, because all of its parts accept themselves. -/
theorem assignable_self (s : TypeShape) : s.assignable s = true := by
  refine assignable_iff.2 (.inr (.inr ⟨s.tag.accepts_self, .inr rfl, fun _ f hf g hg => ?_⟩))
  obtain rfl := Option.mem_unique hf hg
  have hresult := assignable_self f.returnType
  exact ⟨hresult, hresult, List.forall₂_same.2 fun p hp => assignable_self p⟩
termination_by s
decreasing_by
  · exact sizeOf_returnType_lt hf
  · exact sizeOf_parameter_lt hf hp

/-- The arrays of a type with some more dimensions. -/
def raise (k : Nat) (s : TypeShape) : TypeShape := { s with arrayDepth := s.arrayDepth + k }

/-- Dimensions that both types have in common do not matter. -/
theorem assignable_raise (t s : TypeShape) (k : Nat) :
    (t.raise k).assignable (s.raise k) = t.assignable s := by
  rw [Bool.eq_iff_iff, assignable_iff, assignable_iff]
  simp only [raise, SignaturesFit, Nat.add_right_cancel_iff]

/-- **Assignability is reflexive**, and it does not change when the same number of array
dimensions is added on both sides. -/
theorem assignable_self_and_raise :
    (∀ s : TypeShape, s.assignable s = true)
      ∧ ∀ (t s : TypeShape) (k : Nat), (t.raise k).assignable (s.raise k) = t.assignable s :=
  ⟨assignable_self, assignable_raise⟩

/-! ## Knowing less -/

/-- **A type of which less is known**: some of the types that it consists of are not known
any more, or do not say what they take and give. It may be all that is not known, and it
may be nothing. -/
inductive LessKnown : TypeShape → TypeShape → Prop
  /-- Of a type that is not known nothing counts, whatever it says. -/
  | unknown {vague shape : TypeShape} : vague.isUnknown = true → LessKnown vague shape
  /-- A type that does not say what it takes and gives, although it may. -/
  | unsigned {tag : TypeTag} {depth : Nat} {signature : Option (Signature TypeShape)} :
    LessKnown ⟨tag, depth, none⟩ ⟨tag, depth, signature⟩
  /-- A type that says it, part by part. -/
  | signed {tag : TypeTag} {depth : Nat} {f g : Signature TypeShape} :
    LessKnown f.returnType g.returnType → f.parameters.length = g.parameters.length →
      (∀ p ∈ f.parameters.zip g.parameters, LessKnown p.1 p.2) → f.variadic = g.variadic →
        LessKnown ⟨tag, depth, some f⟩ ⟨tag, depth, some g⟩

namespace LessKnown

theorem ofParts {tag : TypeTag} {depth : Nat} {f g : Signature TypeShape}
    (hresult : LessKnown f.returnType g.returnType)
    (hparameters : List.Forall₂ LessKnown f.parameters g.parameters)
    (hvariadic : f.variadic = g.variadic) :
    LessKnown ⟨tag, depth, some f⟩ ⟨tag, depth, some g⟩ := by
  obtain ⟨hlength, hzip⟩ := List.forall₂_iff_zip.1 hparameters
  exact .signed hresult hlength (fun _ hp => hzip hp) hvariadic

/-- Nothing has to be forgotten. -/
theorem refl (s : TypeShape) : LessKnown s s := by
  match s with
  | ⟨tag, depth, none⟩ => exact .unsigned
  | ⟨tag, depth, some f⟩ =>
    exact .ofParts (refl f.returnType) (List.forall₂_same.2 fun p hp => refl p) rfl
termination_by s
decreasing_by
  · exact sizeOf_returnType_lt rfl
  · exact sizeOf_parameter_lt rfl hp

end LessKnown

/-- **What is assignable stays so**, in either direction, when `t'` and `s'` take the places
of `t` and `s`. -/
def Keeps (t' t s' s : TypeShape) : Prop :=
  (t.assignable s = true → t'.assignable s' = true)
    ∧ (s.assignable t = true → s'.assignable t' = true)

theorem Keeps.of_unknown (h : t'.tag = .unknown ∨ s'.tag = .unknown) : Keeps t' t s' s :=
  ⟨fun _ => assignable_iff.2 (h.imp_right .inl),
    fun _ => assignable_iff.2 (h.symm.imp_right .inl)⟩

/-- A signature that is absent fits. -/
theorem signaturesFit_of_none (h : f = none ∨ g = none) : SignaturesFit f g := by
  rcases h with rfl | rfl
  · exact nofun
  · exact fun _ _ => nofun

/-- Only the signatures are others. -/
theorem Keeps.of_signatures {tag tag' : TypeTag} {depth depth' : Nat} (h : SignaturesFit f g →
    SignaturesFit f' g') (hback : SignaturesFit g f → SignaturesFit g' f') :
    Keeps ⟨tag, depth, f'⟩ ⟨tag, depth, f⟩ ⟨tag', depth', g'⟩ ⟨tag', depth', g⟩ := by
  constructor <;> rw [assignable_iff, assignable_iff]
  · exact .imp_right (.imp_right (.imp_right (.imp_right (h ∘ ·))))
  · exact .imp_right (.imp_right (.imp_right (.imp_right (hback ∘ ·))))

/-- What holds across two lists passes to lists that are related to them member by
member. -/
theorem forall₂_across {α : Type} {P Q A B : α → α → Prop} {ps' ps qs' qs : List α}
    (h : ∀ p' p q' q, P p' p → Q q' q → A p q → B p' q') (hp : List.Forall₂ P ps' ps)
    (hq : List.Forall₂ Q qs' qs) (ha : List.Forall₂ A ps qs) : List.Forall₂ B ps' qs' := by
  induction hp generalizing qs' qs with
  | nil =>
    cases ha
    cases hq
    exact .nil
  | cons hp₁ _ ih =>
    cases ha with
    | cons ha₁ ha =>
      cases hq with
      | cons hq₁ hq => exact .cons (h _ _ _ _ hp₁ hq₁ ha₁) (ih hq ha)

/-- **What is assignable in either direction stays so** when less is known of one side
and of the other. The induction is on the first side, for all that may be on the other. -/
theorem LessKnown.keeps (ht : LessKnown t' t) (hs : LessKnown s' s) : Keeps t' t s' s := by
  induction ht generalizing s' s with
  | unknown hvague => exact .of_unknown (.inl (beq_iff_eq.1 hvague))
  | unsigned =>
    cases hs with
    | unknown hvague => exact .of_unknown (.inr (beq_iff_eq.1 hvague))
    | _ =>
      exact .of_signatures (fun _ => signaturesFit_of_none (.inl rfl)) fun _ =>
        signaturesFit_of_none (.inr rfl)
  | @signed _ _ f' f _ hlength _ _ hresult hparameters =>
    cases hs with
    | unknown hvague => exact .of_unknown (.inr (beq_iff_eq.1 hvague))
    | unsigned =>
      exact .of_signatures (fun _ => signaturesFit_of_none (.inr rfl)) fun _ =>
        signaturesFit_of_none (.inl rfl)
    | @signed _ _ g' g hresult' hlength' hparameters' _ =>
      -- either direction needs both of the results, but only its own half of the parameters
      obtain ⟨hthere, hback⟩ := hresult hresult'
      have hf : List.Forall₂ (fun p' p => ∀ q' q, LessKnown q' q → Keeps p' p q' q)
          f'.parameters f.parameters :=
        List.forall₂_iff_zip.2 ⟨hlength, fun hp q' q hq => hparameters _ hp hq⟩
      have hg : List.Forall₂ LessKnown g'.parameters g.parameters :=
        List.forall₂_iff_zip.2 ⟨hlength', fun hq => hparameters' _ hq⟩
      refine .of_signatures (fun hfit => ?_) fun hfit => ?_
      · have hfit := hfit f rfl g rfl
        rintro _ ⟨⟩ _ ⟨⟩
        exact ⟨hthere hfit.result, hback hfit.result_back,
          forall₂_across (fun p' p q' q hp hq => (hp q' q hq).1) hf hg hfit.parameters⟩
      · have hfit := hfit g rfl f rfl
        rintro _ ⟨⟩ _ ⟨⟩
        exact ⟨hback hfit.result, hthere hfit.result_back,
          forall₂_across (fun q' q p' p hq hp => (hp q' q hq).2) hg hf hfit.parameters⟩

/-- **Knowing less makes nothing incompatible**: what is assignable stays so, however much
is forgotten on either side. -/
theorem assignable_of_lessKnown (ht : LessKnown t' t) (hs : LessKnown s' s)
    (h : t.assignable s = true) : t'.assignable s' = true :=
  (ht.keeps hs).1 h

/-- A function type whose parameters are hardly known, and one whose result is not. -/
theorem assignable_of_lessKnown_callback :
    let callback : TypeShape := ⟨.function, 0, some ⟨.ofTag .void, [], false⟩⟩
    let t : TypeShape := ⟨.function, 0, some ⟨.ofTag .int, [.ofTag .string, callback], false⟩⟩
    let s : TypeShape := ⟨.function, 0, some ⟨.ofTag .bool, [.ofTag .nil, callback], false⟩⟩
    let t' : TypeShape :=
      ⟨.function, 0, some ⟨.ofTag .int, [.unknown, .ofTag .function], false⟩⟩
    let s' : TypeShape := ⟨.function, 0, some ⟨.unknown, [.ofTag .nil, callback], false⟩⟩
    LessKnown t' t ∧ LessKnown s' s ∧ t.assignable s = true ∧ t'.assignable s' = true := by
  intro callback t s t' s'
  have ht : LessKnown t' t :=
    .ofParts (.refl _) (.cons (.unknown rfl) (.cons .unsigned .nil)) rfl
  have hs : LessKnown s' s := .ofParts (.unknown rfl) (List.forall₂_same.2 fun p _ => .refl p) rfl
  have h : t.assignable s = true := by decide +kernel
  exact ⟨ht, hs, h, assignable_of_lessKnown ht hs h⟩

end TypeShape

end ScriptLens
