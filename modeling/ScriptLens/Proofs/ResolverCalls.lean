import ScriptLens.Project.Resolver

/-!
# Watching a resolver

A resolver answers from what it keeps or asks its loader, and its answers do not tell
which. What it does is therefore watched from two sides: the loader writes down what
it is asked, and whoever resolves a name writes down the answer (`Event`). Watching
changes nothing (`run_watchedResolve`): a name that is kept leaves one event behind, and a
name that is not leaves two.

A search for dependencies does nothing to the resolver but resolve names one after the
other. So what every resolved name keeps, the search keeps, and watching does not change
what it finds either (`search_watches`).
-/

namespace ScriptLens.Resolver

/-- The texts that a loader holds: one for each name, or why there is none. -/
abbrev Texts := String → Except LoadError String

/-- What can be seen of a resolver at work. -/
inductive Event
  /-- The loader was asked for the text of a name. -/
  | loaded (name : String) (text : Except LoadError String)
  /-- A name was resolved, and this is what the resolver was afterwards. -/
  | resolved (name : String) (answer : Except ResolveError Analysis) (after : Resolver)
  /-- The text of a name was forgotten. -/
  | forgotten (name : String)
  /-- All texts were forgotten. -/
  | cleared

/-- The name that was resolved. -/
def Event.resolvedName? : Event → Option String
  | resolved name _ _ => some name
  | _ => none

/-- The name that the loader was asked for. -/
def Event.loadedName? : Event → Option String
  | loaded name _ => some name
  | _ => none

/-- A loader of texts that writes down what it is asked. -/
def watchedLoad (texts : Texts) (name : String) :
    StateM (List Event) (Except LoadError String) := do
  modify (· ++ [.loaded name (texts name)])
  return texts name

/-- Resolves a name with a loader of texts, and writes down the answer. -/
def watchedResolve (texts : Texts) (r : Resolver) (name : String) :
    StateM (List Event) (Except ResolveError Analysis × Resolver) := do
  let (answer, after) ← resolve (watchedLoad texts) r name
  modify (· ++ [.resolved name answer after])
  return (answer, after)

/-- Resolves a name with a loader of texts. -/
def resolveIn (texts : Texts) (r : Resolver) (name : String) :
    Except ResolveError Analysis × Resolver :=
  Id.run (resolve (fun name => pure (texts name)) r name)

/-- The texts that a text depends on, found with a loader of texts. -/
def dependenciesIn (texts : Texts) (r : Resolver) (file : Analysis) :
    List Analysis × Resolver :=
  Id.run (dependencies (fun name => pure (texts name)) r file)

/-- The outcome of loading and analysing the text of a name. -/
def analysed (texts : Texts) (name : String) : Except ResolveError Analysis :=
  match texts name with
  | .ok text => .ok (.ofText name text.toList)
  | .error cause => .error ⟨name, cause⟩

variable {texts : Texts} {r : Resolver} {name : String}

/-! ## One name -/

theorem resolveIn_of_kept {a : Analysis} (h : r.cache.lookup name = some a) :
    resolveIn texts r name = (.ok a, { r with hits := r.hits + 1 }) := by
  rw [resolveIn, resolve, h]
  rfl

theorem resolveIn_of_error {cause : LoadError} (h : r.cache.lookup name = none)
    (ht : texts name = .error cause) :
    resolveIn texts r name = (.error ⟨name, cause⟩, { r with misses := r.misses + 1 }) := by
  rw [resolveIn, resolve, h]
  simp only [ht]
  rfl

theorem resolveIn_of_ok {text : String} (h : r.cache.lookup name = none)
    (ht : texts name = .ok text) :
    resolveIn texts r name = (.ok (.ofText name text.toList),
      { r with
        misses := r.misses + 1
        cache := (name, .ofText name text.toList) :: r.cache }) := by
  rw [resolveIn, resolve, h]
  simp only [ht]
  rfl

/-- Where a name is not kept, its text is loaded and analysed. -/
theorem resolveIn_fst_of_absent (h : r.cache.lookup name = none) :
    (resolveIn texts r name).1 = analysed texts name := by
  unfold analysed
  split
  · next text ht => rw [resolveIn_of_ok h ht]
  · next cause ht => rw [resolveIn_of_error h ht]

/-- **A failure leaves what is kept as it was.** -/
theorem cache_resolveIn_of_error {e : ResolveError} (h : (resolveIn texts r name).1 = .error e) :
    (resolveIn texts r name).2.cache = r.cache := by
  cases hkept : r.cache.lookup name with
  | some a => rw [resolveIn_of_kept hkept]
  | none =>
    cases ht : texts name with
    | error cause => rw [resolveIn_of_error hkept ht]
    | ok text =>
      rw [resolveIn_of_ok hkept ht] at h
      cases h

/-- Resolving a name changes nothing for another one. -/
theorem lookup_cache_resolveIn {other : String} (hne : other ≠ name) :
    (resolveIn texts r name).2.cache.lookup other = r.cache.lookup other := by
  cases hkept : r.cache.lookup name with
  | some a => rw [resolveIn_of_kept hkept]
  | none =>
    cases ht : texts name with
    | error cause => rw [resolveIn_of_error hkept ht]
    | ok text =>
      rw [resolveIn_of_ok hkept ht]
      show List.lookup other ((name, _) :: r.cache) = _
      rw [List.lookup_cons, beq_eq_false_iff_ne.2 hne]

/-- What the loader is asked while a name is resolved. -/
def loads (texts : Texts) (r : Resolver) (name : String) : List Event :=
  if r.isCached name then [] else [.loaded name (texts name)]

/-- **Watching a name being resolved** gives the same answer, and the loader is asked
exactly where the name is not kept. -/
theorem run_watchedResolve (events : List Event) :
    (watchedResolve texts r name).run events = (resolveIn texts r name,
      events ++ loads texts r name
        ++ [.resolved name (resolveIn texts r name).1 (resolveIn texts r name).2]) := by
  cases hkept : r.cache.lookup name with
  | some a =>
    have hloads : loads texts r name = [] := by rw [loads, isCached, hkept]; rfl
    rw [resolveIn_of_kept hkept, hloads, List.append_nil, watchedResolve, resolve, hkept]
    rfl
  | none =>
    have hloads : loads texts r name = [.loaded name (texts name)] := by
      rw [loads, isCached, hkept]
      rfl
    rw [hloads, watchedResolve, resolve, hkept]
    cases ht : texts name with
    | error cause =>
      rw [resolveIn_of_error hkept ht, ← ht]
      simp only [watchedLoad, ht]
      rfl
    | ok text =>
      rw [resolveIn_of_ok hkept ht, ← ht]
      simp only [watchedLoad, ht]
      rfl

/-! ## Many names -/

/-- A step with a state beside it that has the value of a plain one and leads to `I`. -/
def Watches {α σ : Type} (I : α → σ → Prop) (step : StateM σ α) (plain : α) (w : σ) : Prop :=
  (step.run w).1 = plain ∧ I plain (step.run w).2

namespace Watches

variable {α β σ : Type} {w : σ} {I : α → σ → Prop} {J : β → σ → Prop}

theorem pure {a : α} (h : I a w) : Watches I (pure a) a w := ⟨rfl, h⟩

theorem bind {step : StateM σ α} {next : α → StateM σ β} {a : α} {b : β}
    (h : Watches I step a w) (hnext : ∀ w', I a w' → Watches J (next a) b w') :
    Watches J (step >>= next) b w := by
  obtain ⟨hvalue, hI⟩ := h
  have hrun : (step >>= next).run w = (next (step.run w).1).run (step.run w).2 := rfl
  rw [Watches, hrun, hvalue]
  exact hnext _ hI

theorem foldlM {f : β → α → StateM σ β} {g : β → α → β}
    (hf : ∀ b a w, J b w → Watches J (f b a) (g b a) w) (xs : List α) (b : β) (w : σ)
    (hJ : J b w) : Watches J (xs.foldlM f b) (xs.foldl g b) w := by
  induction xs generalizing b w with
  | nil => exact pure hJ
  | cons a xs ih => exact (hf b a w hJ).bind fun w' hJ' => ih (g b a) w' hJ'

end Watches

section Search

variable {answer : Resolver → String → Except ResolveError Analysis × Resolver}

/-- A search once a name is resolved that it had not met. -/
def Search.met (s : Search) (name : String) : Except ResolveError Analysis × Resolver → Search
  | (.error _, resolver) => { s with seen := name :: s.seen, resolver }
  | (.ok analysis, resolver) =>
    { resolver
      seen := name :: s.seen
      found := analysis :: s.found
      next := s.next ++ analysis.dependencyPaths }

/-- A search once it went on with a name. -/
def Search.visited (answer : Resolver → String → Except ResolveError Analysis × Resolver)
    (s : Search) (name : String) : Search :=
  if s.seen.contains name then s else s.met name (answer s.resolver name)

/-- A search once it went through levels of names. -/
def Search.levels (answer : Resolver → String → Except ResolveError Analysis × Resolver) :
    Nat → Search → Search
  | 0, s => s
  | levels + 1, s =>
    if s.next.isEmpty then s
    else Search.levels answer levels (s.next.foldl (visited answer) { s with next := [] })

variable {σ : Type} {I : Search → σ → Prop}
  {ask : Resolver → String → StateM σ (Except ResolveError Analysis × Resolver)}

theorem visit_watches {s : Search} {name : String} {w : σ} (hI : I s w)
    (hask : name ∉ s.seen → Watches (fun outcome w' => I (s.met name outcome) w')
      (ask s.resolver name) (answer s.resolver name) w) :
    Watches I (visit ask s name) (s.visited answer name) w := by
  unfold visit Search.visited
  by_cases hseen : s.seen.contains name = true
  · rw [if_pos hseen, if_pos hseen]
    exact .pure hI
  · rw [if_neg hseen, if_neg hseen]
    refine (hask (by simpa using hseen)).bind fun w' hI' => ?_
    generalize answer s.resolver name = outcome at hI' ⊢
    obtain ⟨_ | analysis, resolver⟩ := outcome
    · exact .pure hI'
    · exact .pure hI'

/-- **A search resolves names, and does nothing else.** What holds at its start and is
kept by every name that it resolves holds at its end, and the outcome is that of the
same search with plain answers. -/
theorem visitLevels_watches
    (hask : ∀ s name w, I s w → name ∉ s.seen →
      Watches (fun outcome w' => I (s.met name outcome) w') (ask s.resolver name)
        (answer s.resolver name) w)
    (hnext : ∀ s w, I s w → I { s with next := [] } w) (levels : Nat) (s : Search) (w : σ)
    (hI : I s w) :
    Watches I (visitLevels ask levels s) (s.levels answer levels) w := by
  induction levels generalizing s w with
  | zero => exact .pure hI
  | succ levels ih =>
    unfold visitLevels Search.levels
    by_cases hempty : s.next.isEmpty = true
    · rw [if_pos hempty, if_pos hempty]
      exact .pure hI
    · rw [if_neg hempty, if_neg hempty]
      have hlevel : Watches I (s.next.foldlM (visit ask) { s with next := [] })
          (s.next.foldl (Search.visited answer) { s with next := [] }) w :=
        .foldlM (fun s name w hI => visit_watches hI (hask s name w hI)) s.next _ w
          (hnext s w hI)
      exact hlevel.bind fun w' hI' => ih _ w' hI'

/-- A search that nothing watches. -/
theorem visitLevels_pure (levels : Nat) (s : Search) :
    Id.run (visitLevels (fun r name => pure (answer r name)) levels s)
      = s.levels answer levels := by
  have hvisit : ∀ s name, Id.run (visit (fun r name => pure (answer r name)) s name)
      = s.visited answer name := by
    intro s name
    unfold visit Search.visited
    by_cases hseen : s.seen.contains name = true
    · rw [if_pos hseen, if_pos hseen]
      rfl
    · rw [if_neg hseen, if_neg hseen]
      dsimp only
      generalize answer s.resolver name = outcome
      obtain ⟨_ | analysis, resolver⟩ := outcome <;> rfl
  induction levels generalizing s with
  | zero => rfl
  | succ levels ih =>
    unfold visitLevels Search.levels
    by_cases hempty : s.next.isEmpty = true
    · rw [if_pos hempty, if_pos hempty]
      rfl
    · rw [if_neg hempty, if_neg hempty]
      show Id.run (visitLevels _ levels
        (Id.run (s.next.foldlM (visit _) { s with next := [] }))) = _
      rw [ih, List.idRun_foldlM]
      simp only [hvisit]

end Search

/-- The search for the texts that a text depends on, before it starts. -/
def Search.start (r : Resolver) (file : Analysis) : Search :=
  ⟨r, [file.fileName], [], file.dependencyPaths⟩

/-- The search for the texts that a text depends on, at its end. -/
def Search.done (texts : Texts) (r : Resolver) (file : Analysis) : Search :=
  (start r file).levels (resolveIn texts) depthLimit

theorem dependenciesIn_eq (file : Analysis) :
    dependenciesIn texts r file
      = ((Search.done texts r file).found.reverse, (Search.done texts r file).resolver) := by
  rw [Search.done, ← visitLevels_pure]
  rfl

/-- **Watching a search changes nothing**, and what every resolved name keeps of the
resolver and of what is seen of it, the search keeps. -/
theorem search_watches {I : Resolver → List Event → Prop}
    (hI : ∀ r name events, I r events → I (resolveIn texts r name).2
      ((watchedResolve texts r name).run events).2) (file : Analysis) {events : List Event}
    (h : I r events) :
    Watches (fun outcome events => I outcome.2 events) (search (watchedResolve texts) r file)
      (dependenciesIn texts r file) events := by
  have hask : ∀ (s : Search) name events, I s.resolver events → name ∉ s.seen →
      Watches (fun outcome events' => I (s.met name outcome).resolver events')
        (watchedResolve texts s.resolver name) (resolveIn texts s.resolver name) events := by
    intro s name events hI' _
    have hresolver : ∀ outcome, (s.met name outcome).resolver = outcome.2 := by
      rintro ⟨_ | _, _⟩ <;> rfl
    refine ⟨by rw [run_watchedResolve], ?_⟩
    show I (s.met name _).resolver _
    rw [hresolver]
    exact hI _ _ _ hI'
  have hlevels := visitLevels_watches (I := fun s events => I s.resolver events) hask
    (fun s events h => h) depthLimit (.start r file) events h
  rw [dependenciesIn_eq]
  exact hlevels.bind fun events' hI' => .pure hI'

end ScriptLens.Resolver
