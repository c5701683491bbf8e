import Mathlib
import ScriptLens.Proofs.ResolverCalls

/-!
# Dependencies are found breadth first

The search for dependencies marks a name as met before it resolves it, passes over what
was met, and stops after a number of levels. Names lead back to names that were met, or
to the text that the search started from; some cannot be resolved, and are marked all
the same. `dependencies_breadthFirst` says what comes out: the texts that a chain of
resolved names leads to (`Chain`), if it is not too long, by the length of the shortest
chain.

The proof leaves the resolver first: its answers do not change during the search, because
a name is resolved once and changes nothing for another one. What is left is a search in
rounds over lists of names (`rounds`), and an invariant that ties what was met after a
number of rounds to the chains of that length (`Explored`).
-/

namespace ScriptLens.Resolver

/-- The text that a name stands for, if it can be resolved. -/
def target? (texts : Texts) (r : Resolver) (name : String) : Option Analysis :=
  (resolveIn texts r name).1.toOption

/-- A text that a name stands for has that name. -/
theorem fileName_of_target? {texts : Texts} {r : Resolver} {name : String} {a : Analysis}
    (hkeys : ∀ entry ∈ r.cache, entry.2.fileName = entry.1)
    (h : target? texts r name = some a) : a.fileName = name := by
  rw [target?] at h
  cases hkept : r.cache.lookup name with
  | some b =>
    rw [resolveIn_of_kept hkept] at h
    obtain rfl := Option.some.inj h
    obtain ⟨before, after, hcache, -⟩ := List.lookup_eq_some_iff.1 hkept
    exact hkeys (name, b) (hcache ▸ List.mem_append_right _ List.mem_cons_self)
  | none =>
    rw [resolveIn_fst_of_absent hkept, analysed] at h
    cases ht : texts name with
    | error cause =>
      rw [ht] at h
      cases h
    | ok text =>
      rw [ht] at h
      obtain rfl := Option.some.inj h
      rfl

/-- **A chain of dependencies** from a text to a name: each name on it is mentioned by
the text before it, can be resolved and is not the name of the text at its start. -/
inductive Chain (texts : Texts) (r : Resolver) (file : Analysis) : Nat → String → Prop
  | direct {name : String} {a : Analysis} :
    name ∈ file.dependencyPaths → name ≠ file.fileName → target? texts r name = some a →
      Chain texts r file 1 name
  | further {n : Nat} {via name : String} {a b : Analysis} :
    Chain texts r file n via → target? texts r via = some a → name ∈ a.dependencyPaths →
    name ≠ file.fileName → target? texts r name = some b → Chain texts r file (n + 1) name

variable {texts : Texts} {r : Resolver} {file : Analysis} {name : String}

theorem Chain.ne_fileName {n : Nat} (h : Chain texts r file n name) : name ≠ file.fileName := by
  cases h with
  | direct _ hne _ => exact hne
  | further _ _ _ hne _ => exact hne

theorem Chain.exists_target {n : Nat} (h : Chain texts r file n name) :
    ∃ a, target? texts r name = some a := by
  cases h with
  | direct _ _ ha => exact ⟨_, ha⟩
  | further _ _ _ _ hb => exact ⟨_, hb⟩

theorem Chain.pos {n : Nat} (h : Chain texts r file n name) : 0 < n := by
  cases h <;> exact Nat.succ_pos _

/-! ## Rounds over lists of names -/

/-- The names of a list that were not met before, each at its first mention. -/
def fresh (seen : List String) : List String → List String
  | [] => []
  | name :: names =>
    if seen.contains name then fresh seen names else name :: fresh (name :: seen) names

theorem mem_fresh {seen names : List String} :
    name ∈ fresh seen names ↔ name ∈ names ∧ name ∉ seen := by
  induction names generalizing seen with
  | nil => simp [fresh]
  | cons other names ih =>
    unfold fresh
    by_cases hseen : seen.contains other = true
    · have hmem : other ∈ seen := by simpa using hseen
      rw [if_pos hseen, ih]
      grind
    · have hmem : other ∉ seen := by simpa using hseen
      rw [if_neg hseen, List.mem_cons, ih]
      grind

theorem nodup_fresh (seen names : List String) : (fresh seen names).Nodup := by
  induction names generalizing seen with
  | nil => exact .nil
  | cons other names ih =>
    unfold fresh
    split
    · exact ih seen
    · refine List.nodup_cons.2 ⟨fun hmem => ?_, ih _⟩
      exact (mem_fresh.1 hmem).2 List.mem_cons_self

/-- Names come in the order in which they are mentioned first. -/
theorem pairwise_fresh (seen names : List String) :
    (fresh seen names).Pairwise fun a b => names.idxOf a < names.idxOf b := by
  induction names generalizing seen with
  | nil => exact .nil
  | cons other names ih =>
    have hlater : ∀ seen, other ∈ seen → (fresh seen names).Pairwise fun a b =>
        (other :: names).idxOf a < (other :: names).idxOf b := by
      intro seen hseen
      refine (ih seen).imp_of_mem fun {a b} ha hb hab => ?_
      have hne : ∀ name ∈ fresh seen names, other ≠ name := by
        rintro name hname rfl
        exact (mem_fresh.1 hname).2 hseen
      rw [List.idxOf_cons_ne _ (hne a ha), List.idxOf_cons_ne _ (hne b hb)]
      exact Nat.succ_lt_succ hab
    unfold fresh
    by_cases hseen : seen.contains other = true
    · rw [if_pos hseen]
      exact hlater seen (by simpa using hseen)
    · rw [if_neg hseen]
      refine List.pairwise_cons.2 ⟨fun name hname => ?_, hlater _ List.mem_cons_self⟩
      have hne : other ≠ name := fun heq => (mem_fresh.1 hname).2 (heq ▸ List.mem_cons_self)
      rw [List.idxOf_cons_self, List.idxOf_cons_ne _ hne]
      exact Nat.succ_pos _

/-- The names of a list that can be resolved, with their texts. -/
def resolved (target? : String → Option Analysis) (names : List String) :
    List (String × Analysis) :=
  names.filterMap fun name => (target? name).map (name, ·)

theorem mem_resolved {target? : String → Option Analysis} {names : List String}
    {entry : String × Analysis} :
    entry ∈ resolved target? names ↔ entry.1 ∈ names ∧ target? entry.1 = some entry.2 := by
  obtain ⟨name, a⟩ := entry
  simp only [resolved, List.mem_filterMap, Option.map_eq_some_iff, Prod.mk.injEq]
  constructor
  · rintro ⟨other, hmem, b, hb, rfl, rfl⟩
    exact ⟨hmem, hb⟩
  · rintro ⟨hmem, ha⟩
    exact ⟨name, hmem, a, ha, rfl, rfl⟩

theorem map_fst_resolved (target? : String → Option Analysis) (names : List String) :
    ((resolved target? names).map Prod.fst).Sublist names := by
  induction names with
  | nil => exact .slnil
  | cons name names ih =>
    unfold resolved
    rw [List.filterMap_cons]
    cases target? name with
    | none => exact ih.cons name
    | some a => exact ih.cons_cons name

/-- **A search in rounds**: the names that are mentioned and were not met are resolved,
and what is found mentions the names of the next round. -/
def rounds (target? : String → Option Analysis) :
    Nat → List String → List String → List (String × Analysis)
  | 0, _, _ => []
  | n + 1, seen, mentioned =>
    let found := resolved target? (fresh seen mentioned)
    found ++ rounds target? n ((fresh seen mentioned).reverse ++ seen)
      (found.flatMap (·.2.dependencyPaths))

section Rounds

variable (target? : String → Option Analysis)

theorem rounds_nil (n : Nat) (seen : List String) : rounds target? n seen [] = [] := by
  induction n generalizing seen with
  | zero => rfl
  | succ n ih => exact ih seen

variable {target?} {n : Nat} {seen mentioned : List String}

theorem target?_of_mem_rounds {entry : String × Analysis}
    (h : entry ∈ rounds target? n seen mentioned) : target? entry.1 = some entry.2 := by
  induction n generalizing seen mentioned with
  | zero => cases h
  | succ n ih =>
    rcases List.mem_append.1 h with h | h
    · exact (mem_resolved.1 h).2
    · exact ih h

theorem not_mem_seen_of_mem_rounds {entry : String × Analysis}
    (h : entry ∈ rounds target? n seen mentioned) : entry.1 ∉ seen := by
  induction n generalizing seen mentioned with
  | zero => cases h
  | succ n ih =>
    rcases List.mem_append.1 h with h | h
    · exact (mem_fresh.1 (mem_resolved.1 h).1).2
    · exact fun hseen => ih h (List.mem_append_right _ hseen)

/-- The names of a round are met in it, so that later rounds do not find them. -/
theorem rounds_disjoint {entry later : String × Analysis}
    (he : entry ∈ resolved target? (fresh seen mentioned))
    (hl : later ∈ rounds target? n ((fresh seen mentioned).reverse ++ seen)
      ((resolved target? (fresh seen mentioned)).flatMap (·.2.dependencyPaths))) :
    entry.1 ≠ later.1 := by
  intro heq
  refine not_mem_seen_of_mem_rounds hl (List.mem_append_left _ (List.mem_reverse.2 ?_))
  exact heq ▸ (mem_resolved.1 he).1

theorem nodup_rounds : ((rounds target? n seen mentioned).map Prod.fst).Nodup := by
  induction n generalizing seen mentioned with
  | zero => exact .nil
  | succ n ih =>
    show List.Nodup (List.map _ (_ ++ _))
    rw [List.map_append, List.nodup_append]
    refine ⟨(nodup_fresh seen mentioned).sublist (map_fst_resolved ..), ih, ?_⟩
    intro a ha b hb
    obtain ⟨entry, he, rfl⟩ := List.mem_map.1 ha
    obtain ⟨later, hl, rfl⟩ := List.mem_map.1 hb
    exact rounds_disjoint he hl

/-- **What is found comes in the order of the first mentions**, where the mentions are
those of the start and those of the texts that are found, one after the other. -/
theorem pairwise_idxOf_rounds {before : List String} (hbefore : ∀ name ∈ before, name ∈ seen) :
    (rounds target? n seen mentioned).Pairwise fun a b =>
      (before ++ mentioned ++ (rounds target? n seen mentioned).flatMap
          (·.2.dependencyPaths)).idxOf a.1
        < (before ++ mentioned ++ (rounds target? n seen mentioned).flatMap
          (·.2.dependencyPaths)).idxOf b.1 := by
  induction n generalizing seen mentioned before with
  | zero => exact .nil
  | succ n ih =>
    unfold rounds
    dsimp only
    have hmet : ∀ name ∈ before ++ mentioned,
        name ∈ (fresh seen mentioned).reverse ++ seen := by
      intro name hname
      by_cases hseen : name ∈ seen
      · exact List.mem_append_right _ hseen
      · refine List.mem_append_left _ (List.mem_reverse.2 (mem_fresh.2 ⟨?_, hseen⟩))
        exact (List.mem_append.1 hname).resolve_left fun hbefore' => hseen (hbefore _ hbefore')
    have hrest := @ih _ ((resolved target? (fresh seen mentioned)).flatMap
      (·.2.dependencyPaths)) _ hmet
    generalize hlater : rounds target? n _ _ = later at hrest ⊢
    rw [List.flatMap_append, ← List.append_assoc]
    -- a name that this round finds has its first mention among those of the round
    have hidx : ∀ name ∈ fresh seen mentioned, ∀ more : List String,
        (before ++ mentioned ++ more).idxOf name = before.length + mentioned.idxOf name := by
      intro name hname more
      obtain ⟨hmentioned, hseen⟩ := mem_fresh.1 hname
      rw [List.append_assoc, List.idxOf_append_of_notMem fun h => hseen (hbefore _ h),
        List.idxOf_append_of_mem hmentioned]
    refine List.pairwise_append.2 ⟨?_, hrest, fun a ha b hb => ?_⟩
    · refine List.Pairwise.imp_of_mem (fun {a b} ha hb hab => ?_)
        (List.pairwise_map.1 ((pairwise_fresh seen mentioned).sublist (map_fst_resolved ..)))
      rw [List.append_assoc, hidx _ (mem_resolved.1 ha).1, hidx _ (mem_resolved.1 hb).1]
      exact Nat.add_lt_add_left hab _
    · rw [← hlater] at hb
      have hnot : b.1 ∉ before ++ mentioned :=
        fun h => not_mem_seen_of_mem_rounds hb (hmet _ h)
      rw [List.append_assoc, hidx _ (mem_resolved.1 ha).1, List.idxOf_append_of_notMem hnot,
        List.length_append]
      have hlt := List.idxOf_lt_length_iff.2 (mem_fresh.1 (mem_resolved.1 ha).1).1
      omega

end Rounds

/-! ## Rounds and chains -/

/-- **What is known after a number of rounds**: a chain of that length leads to nothing
that was not met, and the names that are mentioned are those one further. -/
structure Explored (texts : Texts) (r : Resolver) (file : Analysis) (n : Nat)
    (seen mentioned : List String) : Prop where
  root : file.fileName ∈ seen
  near : ∀ m ≤ n, ∀ name, Chain texts r file m name → name ∈ seen
  met : ∀ name ∈ seen, name ≠ file.fileName → ∀ a, target? texts r name = some a →
    ∃ m ≤ n, Chain texts r file m name
  ahead : ∀ name ∈ mentioned, name ≠ file.fileName → ∀ a, target? texts r name = some a →
    Chain texts r file (n + 1) name
  next : ∀ name, Chain texts r file (n + 1) name → name ∈ seen ∨ name ∈ mentioned

namespace Explored

theorem start : Explored texts r file 0 [file.fileName] file.dependencyPaths where
  root := List.mem_cons_self
  near m hm name hchain := absurd hchain.pos (by omega)
  met name hname hne := absurd (List.mem_singleton.1 hname) hne
  ahead name hname hne a ha := .direct hname hne ha
  next name hchain := by
    cases hchain with
    | direct hname _ _ => exact .inr hname
    | further hvia _ _ _ _ => exact absurd hvia.pos (Nat.lt_irrefl 0)

variable {n : Nat} {seen mentioned : List String}

/-- Each name that a round finds is one chain further than the round before. -/
theorem chain_of_mem (h : Explored texts r file n seen mentioned) {entry : String × Analysis}
    (he : entry ∈ resolved (target? texts r) (fresh seen mentioned)) :
    Chain texts r file (n + 1) entry.1 := by
  obtain ⟨hfresh, htarget⟩ := mem_resolved.1 he
  obtain ⟨hmentioned, hseen⟩ := mem_fresh.1 hfresh
  exact h.ahead _ hmentioned (fun heq => hseen (heq ▸ h.root)) _ htarget

/-- **A round goes one chain further.** -/
theorem round (h : Explored texts r file n seen mentioned) :
    Explored texts r file (n + 1) ((fresh seen mentioned).reverse ++ seen)
      ((resolved (target? texts r) (fresh seen mentioned)).flatMap (·.2.dependencyPaths)) := by
  have hnear : ∀ m ≤ n + 1, ∀ name, Chain texts r file m name →
      name ∈ (fresh seen mentioned).reverse ++ seen := by
    intro m hm name hchain
    rw [List.mem_append, List.mem_reverse, mem_fresh]
    by_cases hseen : name ∈ seen
    · exact .inr hseen
    · have heq : m = n + 1 := by
        by_contra hne
        exact hseen (h.near m (by omega) name hchain)
      exact .inl ⟨(h.next name (heq ▸ hchain)).resolve_left hseen, hseen⟩
  refine ⟨List.mem_append_right _ h.root, hnear, ?_, ?_, ?_⟩
  · intro name hname hne a ha
    rcases List.mem_append.1 hname with hname | hname
    · have hmem := (mem_fresh.1 (List.mem_reverse.1 hname)).1
      exact ⟨n + 1, Nat.le_refl _, h.ahead name hmem hne a ha⟩
    · obtain ⟨m, hm, hchain⟩ := h.met name hname hne a ha
      exact ⟨m, Nat.le_succ_of_le hm, hchain⟩
  · intro name hname hne b hb
    obtain ⟨entry, he, hmem⟩ := List.mem_flatMap.1 hname
    exact .further (h.chain_of_mem he) (mem_resolved.1 he).2 hmem hne hb
  · intro name hchain
    cases hchain with
    | further hvia ha hmem hne hb =>
      -- the name before the last one was met in this round or in an earlier one
      rename_i via a b
      by_cases hseen : via ∈ seen
      · obtain ⟨m, hm, hchain⟩ := h.met via hseen hvia.ne_fileName a ha
        exact .inl (hnear (m + 1) (by omega) name (.further hchain ha hmem hne hb))
      · have hmentioned := (h.next via hvia).resolve_left hseen
        refine .inr (List.mem_flatMap.2 ⟨(via, a), ?_, hmem⟩)
        exact mem_resolved.2 ⟨mem_fresh.2 ⟨hmentioned, hseen⟩, ha⟩

/-- **The rounds find what chains lead to**, if they are not too long. -/
theorem mem_rounds_iff (h : Explored texts r file n seen mentioned) (k : Nat) (name : String) :
    name ∈ (rounds (target? texts r) k seen mentioned).map Prod.fst
      ↔ name ∉ seen ∧ ∃ m ≤ n + k, Chain texts r file m name := by
  induction k generalizing n seen mentioned with
  | zero =>
    refine ⟨fun hmem => (nomatch hmem), fun ⟨hseen, m, hm, hchain⟩ => ?_⟩
    exact absurd (h.near m hm name hchain) hseen
  | succ k ih =>
    show name ∈ List.map _ (_ ++ _) ↔ _
    rw [List.map_append, List.mem_append, ih h.round, List.mem_append, List.mem_reverse]
    constructor
    · rintro (hmem | ⟨hseen, m, hm, hchain⟩)
      · obtain ⟨entry, he, rfl⟩ := List.mem_map.1 hmem
        refine ⟨(mem_fresh.1 (mem_resolved.1 he).1).2, n + 1, by omega, h.chain_of_mem he⟩
      · exact ⟨fun hmem => hseen (.inr hmem), m, by omega, hchain⟩
    · rintro ⟨hseen, m, hm, hchain⟩
      by_cases hfresh : name ∈ fresh seen mentioned
      · obtain ⟨a, ha⟩ := hchain.exists_target
        exact .inl (List.mem_map.2 ⟨(name, a), mem_resolved.2 ⟨hfresh, ha⟩, rfl⟩)
      · exact .inr ⟨fun hmem => hmem.elim hfresh hseen, m, by omega, hchain⟩

/-- **What is found comes by the length of the shortest chain.** -/
theorem pairwise_rounds (h : Explored texts r file n seen mentioned) (k : Nat) :
    (rounds (target? texts r) k seen mentioned).Pairwise fun a b =>
      ∀ m, Chain texts r file m b.1 → ∃ m' ≤ m, Chain texts r file m' a.1 := by
  induction k generalizing n seen mentioned with
  | zero => exact .nil
  | succ k ih =>
    -- what was not met before this round is no nearer than what the round finds
    have hfar : ∀ a ∈ resolved (target? texts r) (fresh seen mentioned), ∀ name ∉ seen,
        ∀ m, Chain texts r file m name → ∃ m' ≤ m, Chain texts r file m' a.1 := by
      intro a ha name hseen m hchain
      refine ⟨n + 1, ?_, h.chain_of_mem ha⟩
      by_contra hlt
      exact hseen (h.near m (by omega) name hchain)
    refine List.pairwise_append.2 ⟨?_, ih h.round, fun a ha b hb => ?_⟩
    · refine List.pairwise_of_forall_mem_list fun a ha b hb => ?_
      exact hfar a ha b.1 (mem_fresh.1 (mem_resolved.1 hb).1).2
    · refine hfar a ha b.1 fun hseen => ?_
      exact not_mem_seen_of_mem_rounds hb (List.mem_append_right _ hseen)

end Explored

/-! ## The search goes through the rounds -/

/-- What a name is resolved to is decided by what is kept under it. -/
theorem resolveIn_fst_congr (texts : Texts) {r' : Resolver}
    (h : r'.cache.lookup name = r.cache.lookup name) :
    (resolveIn texts r' name).1 = (resolveIn texts r name).1 := by
  cases hkept : r.cache.lookup name with
  | some a => rw [resolveIn_of_kept hkept, resolveIn_of_kept (h.trans hkept)]
  | none => rw [resolveIn_fst_of_absent hkept, resolveIn_fst_of_absent (h.trans hkept)]

/-- **What a search has done**: of the names that it had not met, the resolver keeps what
it kept at the start. -/
structure Search.After (texts : Texts) (r : Resolver) (s : Search) (names : List String)
    (t : Search) : Prop where
  seen : t.seen = (fresh s.seen names).reverse ++ s.seen
  found : t.found
    = ((resolved (target? texts r) (fresh s.seen names)).map Prod.snd).reverse ++ s.found
  next : t.next = s.next
    ++ (resolved (target? texts r) (fresh s.seen names)).flatMap (·.2.dependencyPaths)
  kept : ∀ other ∉ t.seen, t.resolver.cache.lookup other = r.cache.lookup other

namespace Search

variable {s : Search}

theorem After.visited (texts : Texts) (hkept : ∀ other ∉ s.seen,
    s.resolver.cache.lookup other = r.cache.lookup other) (name : String) :
    After texts r s [name] (s.visited (resolveIn texts) name) := by
  unfold Search.visited
  by_cases hseen : s.seen.contains name = true
  · have hfresh : fresh s.seen [name] = [] := by rw [fresh, if_pos hseen, fresh]
    rw [if_pos hseen]
    refine ⟨?_, ?_, ?_, hkept⟩ <;> rw [hfresh]
    · rfl
    · rfl
    · exact (List.append_nil _).symm
  · have hfresh : fresh s.seen [name] = [name] := by rw [fresh, if_neg hseen, fresh]
    rw [if_neg hseen]
    have hanswer := resolveIn_fst_congr texts (hkept name (by simpa using hseen))
    have hlookup : ∀ other ∉ name :: s.seen,
        (resolveIn texts s.resolver name).2.cache.lookup other = r.cache.lookup other := by
      intro other hother
      obtain ⟨hne, hother⟩ := not_or.1 (mt List.mem_cons.2 hother)
      rw [lookup_cache_resolveIn hne, hkept other hother]
    have htarget : target? texts r name = (resolveIn texts s.resolver name).1.toOption := by
      rw [target?, hanswer]
    generalize resolveIn texts s.resolver name = outcome at hlookup htarget
    obtain ⟨answer, resolver⟩ := outcome
    cases answer with
    | error e =>
      have hnone : resolved (target? texts r) [name] = [] := by
        simp [resolved, htarget, Except.toOption]
      refine ⟨?_, ?_, ?_, hlookup⟩ <;> rw [hfresh]
      · rfl
      · rw [hnone]
        rfl
      · rw [hnone]
        exact (List.append_nil _).symm
    | ok a =>
      have hsome : resolved (target? texts r) [name] = [(name, a)] := by
        simp [resolved, htarget, Except.toOption]
      refine ⟨?_, ?_, ?_, hlookup⟩ <;> rw [hfresh]
      · rfl
      · rw [hsome]
        rfl
      · rw [hsome, List.flatMap_singleton]
        rfl

/-- A level of names is a round. -/
theorem After.foldl (texts : Texts) (names : List String) (s : Search)
    (hkept : ∀ other ∉ s.seen, s.resolver.cache.lookup other = r.cache.lookup other) :
    After texts r s names (names.foldl (Search.visited (resolveIn texts)) s) := by
  induction names generalizing s with
  | nil => exact ⟨rfl, rfl, (List.append_nil _).symm, hkept⟩
  | cons name names ih =>
    have hone := After.visited texts hkept name
    have hrest := ih _ hone.kept
    have hfresh : fresh s.seen (name :: names) = fresh s.seen [name]
        ++ fresh ((fresh s.seen [name]).reverse ++ s.seen) names := by
      simp only [fresh]
      by_cases hseen : s.seen.contains name = true
      · rw [if_pos hseen, if_pos hseen]
        rfl
      · rw [if_neg hseen, if_neg hseen]
        rfl
    have hresolved : ∀ xs ys, resolved (target? texts r) (xs ++ ys)
        = resolved (target? texts r) xs ++ resolved (target? texts r) ys :=
      fun xs ys => List.filterMap_append ..
    refine ⟨?_, ?_, ?_, hrest.kept⟩
    · rw [List.foldl_cons, hrest.seen, hone.seen, hfresh, List.reverse_append,
        List.append_assoc]
    · rw [List.foldl_cons, hrest.found, hone.found, hone.seen, hfresh, hresolved,
        List.map_append, List.reverse_append, List.append_assoc]
    · rw [List.foldl_cons, hrest.next, hone.next, hone.seen, hfresh, hresolved,
        List.flatMap_append, List.append_assoc]

/-- **The search finds what the rounds find.** -/
theorem found_levels (levels : Nat) (s : Search)
    (hkept : ∀ other ∉ s.seen, s.resolver.cache.lookup other = r.cache.lookup other) :
    (s.levels (resolveIn texts) levels).found
      = ((rounds (target? texts r) levels s.seen s.next).map Prod.snd).reverse ++ s.found := by
  induction levels generalizing s with
  | zero => rfl
  | succ levels ih =>
    unfold Search.levels
    by_cases hempty : s.next.isEmpty = true
    · rw [if_pos hempty, List.isEmpty_iff.1 hempty, rounds_nil]
      rfl
    · rw [if_neg hempty]
      have hafter := After.foldl texts s.next { s with next := [] } hkept
      rw [ih _ hafter.kept, hafter.found, hafter.seen, hafter.next]
      simp only [rounds, List.nil_append, List.map_append, List.reverse_append,
        List.append_assoc]

end Search

/-- **Each name is resolved once**, because it is met before it is resolved. -/
theorem nodup_resolvedName_search (texts : Texts) (r : Resolver) (file : Analysis) :
    (((search (watchedResolve texts) r file).run []).2.filterMap Event.resolvedName?).Nodup := by
  let I (s : Search) (events : List Event) : Prop :=
    (events.filterMap Event.resolvedName?).Nodup
      ∧ ∀ name ∈ events.filterMap Event.resolvedName?, name ∈ s.seen
  have hask : ∀ s name events, I s events → name ∉ s.seen →
      Watches (fun outcome events' => I (s.met name outcome) events')
        (watchedResolve texts s.resolver name) (resolveIn texts s.resolver name) events := by
    intro s name events ⟨hnodup, hmem⟩ hseen
    refine ⟨by rw [run_watchedResolve], ?_⟩
    have hmet : ∀ outcome, (s.met name outcome).seen = name :: s.seen := by
      rintro ⟨_ | _, _⟩ <;> rfl
    have hloads : (loads texts s.resolver name).filterMap Event.resolvedName? = [] := by
      unfold loads
      split <;> rfl
    have hnames : ((watchedResolve texts s.resolver name).run events).2.filterMap
        Event.resolvedName? = events.filterMap Event.resolvedName? ++ [name] := by
      rw [run_watchedResolve, List.filterMap_append, List.filterMap_append, hloads,
        List.append_nil]
      rfl
    show List.Nodup _ ∧ _
    rw [hnames, hmet]
    refine ⟨List.nodup_append.2 ⟨hnodup, List.pairwise_singleton _ name, ?_⟩, ?_⟩
    · rintro other hother _ hname rfl
      exact hseen (List.mem_singleton.1 hname ▸ hmem other hother)
    · intro other hother
      rcases List.mem_append.1 hother with hother | hother
      · exact List.mem_cons_of_mem _ (hmem other hother)
      · exact List.mem_cons.2 (.inl (List.mem_singleton.1 hother))
  have hlevels := visitLevels_watches hask (fun _ _ h => h) depthLimit (.start r file) []
    ⟨.nil, nofun⟩
  have hsearch : Watches (fun _ events => (events.filterMap Event.resolvedName?).Nodup)
      (search (watchedResolve texts) r file) (dependenciesIn texts r file) [] := by
    rw [dependenciesIn_eq]
    exact hlevels.bind fun _ h => .pure h.1
  exact hsearch.2

/-! ## The main result -/

/-- **Dependencies are found breadth first.** What is found belongs to names that differ
from one another and from the name at the start: exactly those that a chain of at most
`depthLimit` names leads to. They come by the length of their shortest chain, and by
their first mention in the text at the start and in what is found, one after the other;
so names with chains of one length do. Each name is resolved once. Where a resolver keeps
texts under their own names, these are the names of what is found. -/
theorem dependencies_breadthFirst (texts : Texts) (r : Resolver) (file : Analysis) :
    ∃ names : List String,
      names.map (target? texts r) = (dependenciesIn texts r file).1.map some
      ∧ names.Nodup
      ∧ file.fileName ∉ names
      ∧ (∀ name, name ∈ names ↔ ∃ n ≤ depthLimit, Chain texts r file n name)
      ∧ names.Pairwise (fun a b =>
        ∀ n, Chain texts r file n b → ∃ m ≤ n, Chain texts r file m a)
      ∧ (let mentions := file.dependencyPaths
            ++ (dependenciesIn texts r file).1.flatMap (·.dependencyPaths)
        names.Pairwise fun a b => mentions.idxOf a < mentions.idxOf b)
      ∧ (let watched := (search (watchedResolve texts) r file).run []
        watched.1 = dependenciesIn texts r file
          ∧ (watched.2.filterMap Event.resolvedName?).Nodup)
      ∧ ((∀ entry ∈ r.cache, entry.2.fileName = entry.1) →
        (dependenciesIn texts r file).1.map (·.fileName) = names) := by
  let found := rounds (target? texts r) depthLimit [file.fileName] file.dependencyPaths
  have hfound : (dependenciesIn texts r file).1 = found.map Prod.snd := by
    rw [dependenciesIn_eq, Search.done,
      Search.found_levels depthLimit (.start r file) fun _ _ => rfl]
    show (_ ++ []).reverse = _
    rw [List.append_nil, List.reverse_reverse]
    rfl
  have htarget : ∀ entry ∈ found, target? texts r entry.1 = some entry.2 :=
    fun _ => target?_of_mem_rounds
  have hmem : ∀ name, name ∈ found.map Prod.fst
      ↔ name ∉ [file.fileName] ∧ ∃ n ≤ depthLimit, Chain texts r file n name := by
    intro name
    rw [Explored.start.mem_rounds_iff depthLimit name, Nat.zero_add]
  refine ⟨found.map Prod.fst, ?_, nodup_rounds, ?_, fun name => ?_, ?_, ?_,
    ⟨?_, nodup_resolvedName_search texts r file⟩, fun hkeys => ?_⟩
  · rw [hfound, List.map_map, List.map_map]
    exact List.map_congr_left htarget
  · exact fun h => ((hmem _).1 h).1 List.mem_cons_self
  · rw [hmem, and_iff_right_iff_imp]
    rintro ⟨n, -, hchain⟩
    exact mt List.mem_singleton.1 hchain.ne_fileName
  · exact List.pairwise_map.2 (Explored.start.pairwise_rounds depthLimit)
  · have horder := @pairwise_idxOf_rounds (target? texts r) depthLimit [file.fileName]
      file.dependencyPaths [] (List.forall_mem_nil _)
    rw [hfound, List.flatMap_map]
    exact List.pairwise_map.2 horder
  · exact (search_watches (I := fun _ _ => True) (fun _ _ _ _ => trivial) file trivial).1
  · rw [hfound, List.map_map]
    refine List.map_congr_left fun entry he => ?_
    exact fileName_of_target? hkeys (htarget entry he)

/-- Two texts that lead to each other and back to the start, and a name without a text. -/
theorem dependencies_breadthFirst_cycle :
    let texts : Texts := fun name =>
      if name = "a" then .ok "#include \"b\"\n#include \"main\""
      else if name = "b" then .ok "#include \"c\"\n#include \"a\""
      else .error (.notFound name)
    let file := Analysis.ofText "main" "#include \"a\"".toList
    (∀ entry ∈ empty.cache, entry.2.fileName = entry.1)
      ∧ (dependenciesIn texts empty file).1.map (·.fileName) = ["a", "b"]
      ∧ (∃ n ≤ depthLimit, Chain texts empty file n "b")
      ∧ ∀ n ≤ depthLimit, ¬ Chain texts empty file n "c" := by
  intro texts file
  have hkeys : ∀ entry ∈ empty.cache, entry.2.fileName = entry.1 := nofun
  have hfound : (dependenciesIn texts empty file).1.map (·.fileName) = ["a", "b"] := by cbv
  obtain ⟨names, -, -, -, hmem, -, -, -, hnames⟩ := dependencies_breadthFirst texts empty file
  rw [hnames hkeys] at hfound
  refine ⟨hkeys, hfound ▸ hnames hkeys, (hmem "b").1 ?_, fun n hn hchain => ?_⟩
  · rw [hfound]
    exact List.mem_cons_of_mem _ List.mem_cons_self
  · have hc : "c" ∈ ["a", "b"] := hfound ▸ (hmem "c").2 ⟨n, hn, hchain⟩
    revert hc
    decide

end ScriptLens.Resolver
