import Mathlib.Data.Set.Card
import ScriptLens.Project.Memory
import ScriptLens.Proofs.ResolverCalls

/-!
# The cache of a resolver

A resolver may be asked for names and for dependencies, told to forget, and its loader
may change its texts in between, all in any order. Whatever happens, the resolver keeps
exactly what it loaded last and did not forget since (`Cached`), and an answer is the
analysis of that text (`Answers`). So nothing of the cache can be told from the answers
but that they may be old, and with a loader that does not change not even that.

What was loaded last is read off the events, which the loader and the callers write down
(`held`). It does not mention the cache.

The counters are part of the invariant. A search is no single step here: each name that
it resolves is one, so that the invariant also holds in the middle of a search.
-/

namespace ScriptLens.Resolver

/-! ## Sessions -/

/-- What can be asked of a resolver, and what can happen to its loader. -/
inductive Request
  /-- A name is resolved. -/
  | resolve (name : String)
  /-- The texts that a text depends on are asked for. -/
  | dependencies (file : Analysis)
  /-- The text of a name is forgotten. -/
  | invalidate (name : String)
  /-- All texts are forgotten. -/
  | clear
  /-- The loader holds other texts from now on. -/
  | change (texts : Texts)

/-- Whether a request leaves the texts of the loader as they are. -/
def Request.leavesTexts : Request → Bool
  | change _ => false
  | _ => true

/-- A resolver, the texts that its loader holds, and what was seen so far. -/
structure Session where
  /-- The resolver. -/
  resolver : Resolver
  /-- The texts that the loader holds. -/
  texts : Texts
  /-- What was seen, first to last. -/
  events : List Event

namespace Session

/-- A new resolver with a loader that holds some texts. -/
def start (texts : Texts) : Session := ⟨empty, texts, []⟩

/-- Answers one request. -/
def step (s : Session) : Request → Session
  | .resolve name =>
    { s with
      resolver := (resolveIn s.texts s.resolver name).2
      events := ((watchedResolve s.texts s.resolver name).run s.events).2 }
  | .dependencies file =>
    { s with
      resolver := (dependenciesIn s.texts s.resolver file).2
      events := ((search (watchedResolve s.texts) s.resolver file).run s.events).2 }
  | .invalidate name =>
    { s with
      resolver := s.resolver.invalidate name
      events := s.events ++ [.forgotten name] }
  | .clear => { s with resolver := s.resolver.clear, events := s.events ++ [.cleared] }
  | .change texts => { s with texts }

/-- Answers requests one after the other. -/
def run (s : Session) (requests : List Request) : Session := requests.foldl step s

end Session

/-! ## What the events say -/

/-- The text of a name that is held after an event. -/
def Event.hold (name : String) (text? : Option String) : Event → Option String
  | loaded other text => if other = name then text.toOption else text?
  | resolved _ _ _ => text?
  | forgotten other => if other = name then none else text?
  | cleared => none

/-- **The text of a name that was loaded last**, unless it was forgotten since. -/
def held (events : List Event) (name : String) : Option String :=
  events.foldl (Event.hold name) none

@[simp] theorem held_append_singleton (events : List Event) (event : Event) (name : String) :
    held (events ++ [event]) name = event.hold name (held events name) :=
  List.foldl_concat ..

/-- **An answer is right**: it is the analysis of the text that was loaded last, or the
name is not held and its text could not be loaded just now. -/
def Answers (events : List Event) (name : String) : Except ResolveError Analysis → Prop
  | .ok analysis =>
    ∃ text, held events name = some text ∧ analysis = .ofText name text.toList
  | .error e =>
    held events name = none
      ∧ ∃ cause, e = ⟨name, cause⟩ ∧ events.getLast? = some (.loaded name (.error cause))

/-- **A resolver is what the events say**: it keeps the analyses of the texts that were
loaded last, each name once, and it counted the names that were resolved and the calls
of the loader. -/
structure Cached (events : List Event) (r : Resolver) : Prop where
  kept : ∀ name, r.cache.lookup name
    = (held events name).map fun text => .ofText name text.toList
  once : (r.cache.map Prod.fst).Nodup
  resolutions : r.hits + r.misses = events.countP (·.resolvedName?.isSome)
  misses : r.misses = events.countP (·.loadedName?.isSome)

/-- **A resolver can be trusted**: beyond what the events say, each text that is kept has
the name it is kept under, and each name with a text counts once. -/
structure Faithful (events : List Event) (r : Resolver) : Prop extends Cached events r where
  named : ∀ entry ∈ r.cache, entry.2.fileName = entry.1
  size : r.size = {name | r.isCached name = true}.ncard

/-- **Each name was resolved rightly**, and left behind what the events up to then say. -/
def Recorded (events : List Event) : Prop :=
  ∀ before name answer after rest, events = before ++ .resolved name answer after :: rest →
    Cached (before ++ [.resolved name answer after]) after ∧ Answers before name answer

variable {texts : Texts} {r : Resolver} {events : List Event} {name : String}

theorem isCached_iff (r : Resolver) (name : String) :
    r.isCached name = true ↔ name ∈ r.cache.map Prod.fst := by
  rw [isCached, List.lookup_isSome_iff, List.mem_map]
  exact exists_congr fun entry => and_congr_right fun _ => by rw [beq_iff_eq, eq_comm]

/-! ## What a resolver is after a step -/

namespace Cached

theorem empty : Cached [] empty where
  kept _ := rfl
  once := .nil
  resolutions := rfl
  misses := rfl

/-- Each entry is kept under the name of its text. -/
theorem fileName_eq (h : Cached events r) {entry : String × Analysis} (he : entry ∈ r.cache) :
    entry.2.fileName = entry.1 := by
  obtain ⟨before, rest, hcache⟩ := List.append_of_mem he
  have hlookup : r.cache.lookup entry.1 = some entry.2 := by
    refine List.lookup_eq_some_iff.2 ⟨before, rest, hcache, fun other hother => ?_⟩
    have honce := h.once
    rw [hcache, List.map_append, List.nodup_append] at honce
    have hne := honce.2.2 other.1 (List.mem_map_of_mem hother) entry.1 List.mem_cons_self
    simpa using Ne.symm hne
  rw [h.kept] at hlookup
  obtain ⟨text, -, htext⟩ := Option.map_eq_some_iff.1 hlookup
  rw [← htext]
  rfl

/-- As many texts are kept as there are names with a text. -/
theorem size_eq (h : Cached events r) : r.size = {name | r.isCached name = true}.ncard := by
  have hset : {name | r.isCached name = true}
      = ((r.cache.map Prod.fst).toFinset : Set String) := by
    ext name
    simp only [Set.mem_ofPred_eq, isCached_iff, List.coe_toFinset]
  rw [hset, Set.ncard_coe_finset, List.toFinset_card_of_nodup h.once, List.length_map]
  rfl

/-- A name that is kept is counted, and nothing else changes. -/
theorem hit (h : Cached events r) (answer : Except ResolveError Analysis) :
    Cached (events ++ [.resolved name answer { r with hits := r.hits + 1 }])
      { r with hits := r.hits + 1 } where
  kept other := by rw [held_append_singleton]; exact h.kept other
  once := h.once
  resolutions := by
    rw [List.countP_append, ← h.resolutions]
    show r.hits + 1 + r.misses = r.hits + r.misses + 1
    omega
  misses := by
    rw [List.countP_append, ← h.misses]
    rfl

/-- **A name that is not kept is loaded**: what is kept under it afterwards is what the
loader gave, and all else is as it was. -/
theorem miss (h : Cached events r) (text : Except LoadError String)
    (answer : Except ResolveError Analysis) {cache : List (String × Analysis)}
    (hself : cache.lookup name = text.toOption.map fun text => .ofText name text.toList)
    (hother : ∀ other ≠ name, cache.lookup other = r.cache.lookup other)
    (honce : (cache.map Prod.fst).Nodup) :
    Cached (events ++ [.loaded name text]
        ++ [.resolved name answer { r with misses := r.misses + 1, cache }])
      { r with misses := r.misses + 1, cache } where
  kept other := by
    simp only [held_append_singleton, Event.hold]
    show cache.lookup other = _
    by_cases heq : name = other
    · rw [if_pos heq, ← heq, hself]
    · rw [if_neg heq, hother other (Ne.symm heq), h.kept]
  once := honce
  resolutions := by
    rw [List.countP_append, List.countP_append, ← h.resolutions]
    show r.hits + (r.misses + 1) = r.hits + r.misses + 0 + 1
    omega
  misses := by
    rw [List.countP_append, List.countP_append, ← h.misses]
    rfl

/-- What holds of a resolver holds once it resolved a name, and the answer is right. -/
theorem resolve (h : Cached events r) :
    Cached ((watchedResolve texts r name).run events).2 (resolveIn texts r name).2
      ∧ Answers (events ++ loads texts r name) name (resolveIn texts r name).1 := by
  rw [run_watchedResolve, loads, isCached]
  cases hkept : r.cache.lookup name with
  | some a =>
    rw [resolveIn_of_kept hkept, Option.isSome_some, if_pos rfl, List.append_nil]
    rw [h.kept] at hkept
    obtain ⟨text, hheld, rfl⟩ := Option.map_eq_some_iff.1 hkept
    exact ⟨h.hit _, text, hheld, rfl⟩
  | none =>
    have hheld : held events name = none := by
      rw [h.kept] at hkept
      exact Option.map_eq_none_iff.1 hkept
    rw [Option.isSome_none, if_neg Bool.false_ne_true]
    cases ht : texts name with
    | error cause =>
      rw [resolveIn_of_error hkept ht]
      refine ⟨h.miss (.error cause) _ hkept (fun _ _ => rfl) h.once, ?_, cause, rfl, ?_⟩
      · rw [held_append_singleton]
        show (if name = name then none else held events name) = none
        rw [if_pos rfl]
      · exact List.getLast?_concat ..
    | ok text =>
      rw [resolveIn_of_ok hkept ht]
      refine ⟨h.miss (.ok text) _ List.lookup_cons_self (fun other hne => ?_) ?_, text, ?_, rfl⟩
      · rw [List.lookup_cons, beq_eq_false_iff_ne.2 hne]
      · refine List.nodup_cons.2 ⟨fun hmem => ?_, h.once⟩
        have hcached := (isCached_iff r name).2 hmem
        rw [isCached, hkept] at hcached
        cases hcached
      · rw [held_append_singleton]
        exact if_pos rfl

/-- A name that is forgotten is not kept. -/
theorem invalidate (h : Cached events r) (name : String) :
    Cached (events ++ [.forgotten name]) (r.invalidate name) where
  kept other := by
    rw [held_append_singleton]
    show (r.cache.filter (·.1 ≠ name)).lookup other
      = (if name = other then none else held events other).map _
    by_cases heq : name = other
    · rw [if_pos heq, Option.map_none, List.lookup_eq_none_iff]
      intro entry hentry
      have hne := (List.mem_filter.1 hentry).2
      rw [← heq]
      exact bne_iff_ne.2 fun heq' => of_decide_eq_true hne heq'.symm
    · rw [if_neg heq, MemoryFiles.lookup_filter_ne _ (Ne.symm heq), h.kept]
  once := h.once.sublist (List.filter_sublist.map _)
  resolutions := by rw [List.countP_append]; exact h.resolutions
  misses := by rw [List.countP_append]; exact h.misses

/-- Nothing is kept that was forgotten. -/
theorem clear (h : Cached events r) : Cached (events ++ [.cleared]) r.clear where
  kept other := by rw [held_append_singleton]; rfl
  once := .nil
  resolutions := by rw [List.countP_append]; exact h.resolutions
  misses := by rw [List.countP_append]; exact h.misses

end Cached

theorem Cached.faithful (h : Cached events r) : Faithful events r :=
  ⟨h, fun _ => h.fileName_eq, h.size_eq⟩

namespace Recorded

theorem nil : Recorded [] := fun before _ _ _ _ h => by cases before <;> cases h

/-- Of the events before the last one, nothing more is to be said. -/
theorem append (h : Recorded events) {event : Event}
    (hevent : ∀ name answer after, event = .resolved name answer after →
      Cached (events ++ [event]) after ∧ Answers events name answer) :
    Recorded (events ++ [event]) := by
  intro before name answer after rest heq
  rcases List.eq_nil_or_concat rest with rfl | ⟨rest, last, rfl⟩
  · obtain ⟨rfl, rfl⟩ := List.append_singleton_inj.1 heq
    exact hevent name answer after rfl
  · rw [List.concat_eq_append, ← List.cons_append, ← List.append_assoc] at heq
    exact h before name answer after rest (List.append_singleton_inj.1 heq).1

theorem loads (h : Recorded events) : Recorded (events ++ Resolver.loads texts r name) := by
  unfold Resolver.loads
  split
  · rwa [List.append_nil]
  · exact h.append nofun

end Recorded

/-! ## What a session is after a request -/

/-- **A session in order**: the resolver is what the events say, and was so whenever it
had resolved a name. -/
structure Ordered (r : Resolver) (events : List Event) : Prop where
  cached : Cached events r
  recorded : Recorded events

theorem Ordered.resolve (h : Ordered r events) :
    Ordered (resolveIn texts r name).2 ((watchedResolve texts r name).run events).2 := by
  obtain ⟨hcached, hanswer⟩ : Cached ((watchedResolve texts r name).run events).2 _
      ∧ Answers _ name _ := h.cached.resolve
  refine ⟨hcached, ?_⟩
  rw [run_watchedResolve] at hcached ⊢
  refine h.recorded.loads.append fun name' answer' after' heq => ?_
  cases heq
  exact ⟨hcached, hanswer⟩

theorem Ordered.search (h : Ordered r events) (file : Analysis) :
    Ordered (dependenciesIn texts r file).2
      ((search (watchedResolve texts) r file).run events).2 :=
  (search_watches (fun _ _ _ => resolve) file h).2

theorem Session.ordered_run (s : Session) (requests : List Request)
    (h : Ordered s.resolver s.events) :
    Ordered (s.run requests).resolver (s.run requests).events := by
  induction requests generalizing s with
  | nil => exact h
  | cons request requests ih =>
    refine ih (s.step request) ?_
    cases request with
    | resolve name => exact h.resolve
    | dependencies file => exact h.search file
    | invalidate name => exact ⟨h.cached.invalidate name, h.recorded.append nofun⟩
    | clear => exact ⟨h.cached.clear, h.recorded.append nofun⟩
    | change texts => exact h

/-! ## A loader that does not change -/

/-- All that was loaded are texts of a loader. -/
def LoadedFrom (texts : Texts) (events : List Event) : Prop :=
  ∀ name text, .loaded name text ∈ events → text = texts name

/-- What is held was loaded. -/
theorem loaded_of_held {text : String} (h : held events name = some text) :
    .loaded name (.ok text) ∈ events := by
  induction events using List.reverseRecOn with
  | nil => cases h
  | append_singleton events event ih =>
    rw [held_append_singleton] at h
    cases event with
    | loaded other text? =>
      change (if other = name then text?.toOption else held events name) = some text at h
      by_cases heq : other = name
      · rw [if_pos heq] at h
        obtain rfl : text? = .ok text := by
          cases text? with
          | error cause => cases h
          | ok text' => rw [Option.some.inj h]
        rw [heq]
        exact List.mem_append_right _ List.mem_cons_self
      · rw [if_neg heq] at h
        exact List.mem_append_left _ (ih h)
    | resolved other answer after => exact List.mem_append_left _ (ih h)
    | forgotten other =>
      change (if other = name then none else held events name) = some text at h
      by_cases heq : other = name
      · rw [if_pos heq] at h
        cases h
      · rw [if_neg heq] at h
        exact List.mem_append_left _ (ih h)
    | cleared => cases h

namespace LoadedFrom

theorem append (h : LoadedFrom texts events) {event : Event}
    (hevent : event.loadedName? = none) : LoadedFrom texts (events ++ [event]) := by
  intro name text hmem
  rcases List.mem_append.1 hmem with hmem | hmem
  · exact h name text hmem
  · obtain rfl := List.mem_singleton.1 hmem
    cases hevent

theorem resolve (h : LoadedFrom texts events) :
    LoadedFrom texts ((watchedResolve texts r name).run events).2 := by
  rw [run_watchedResolve]
  refine append (fun name' text hmem => ?_) rfl
  rcases List.mem_append.1 hmem with hmem | hmem
  · exact h name' text hmem
  · unfold Resolver.loads at hmem
    split at hmem
    · cases hmem
    · cases List.mem_singleton.1 hmem
      rfl

theorem search (h : LoadedFrom texts events) (file : Analysis) :
    LoadedFrom texts ((search (watchedResolve texts) r file).run events).2 :=
  (search_watches (I := fun _ events => LoadedFrom texts events) (fun _ _ _ => resolve) file h).2

/-- What is right of texts that were loaded from a loader is what the loader has. -/
theorem eq_analysed (h : LoadedFrom texts events) {answer : Except ResolveError Analysis}
    (hanswer : Answers events name answer) : answer = analysed texts name := by
  cases answer with
  | ok a =>
    obtain ⟨text, hheld, rfl⟩ := hanswer
    rw [analysed, ← h name _ (loaded_of_held hheld)]
  | error e =>
    obtain ⟨-, cause, rfl, hlast⟩ := hanswer
    rw [analysed, ← h name _ (List.mem_of_getLast? hlast)]

end LoadedFrom

theorem Session.loadedFrom_run (s : Session) (requests : List Request)
    (hrequests : ∀ q ∈ requests, q.leavesTexts = true) (h : LoadedFrom s.texts s.events) :
    LoadedFrom s.texts (s.run requests).events := by
  induction requests generalizing s with
  | nil => exact h
  | cons request requests ih =>
    obtain ⟨hrequest, hrest⟩ := List.forall_mem_cons.1 hrequests
    cases request with
    | resolve name => exact ih (s.step _) hrest h.resolve
    | dependencies file => exact ih (s.step _) hrest (h.search file)
    | invalidate name => exact ih (s.step _) hrest (h.append rfl)
    | clear => exact ih (s.step _) hrest (h.append rfl)
    | change texts => cases hrequest

/-! ## The main result -/

/-- **The cache is transparent.** Whatever is asked of a new resolver, and however the
texts of its loader change in between: each name that is resolved, by itself or in a
search, gets the analysis of the text that was loaded last for it, and at each of these
moments and at the end the resolver is what the events say. If the texts of the loader
do not change, each name gets what loading and analysing its text gives. What fails
leaves what is kept as it was; and watching changes nothing. -/
theorem cache_transparent (texts : Texts) (requests : List Request) :
    (∀ before name answer after rest,
        ((Session.start texts).run requests).events
          = before ++ .resolved name answer after :: rest →
        Answers before name answer ∧ Faithful (before ++ [.resolved name answer after]) after)
      ∧ Faithful ((Session.start texts).run requests).events
        ((Session.start texts).run requests).resolver
      ∧ ((∀ q ∈ requests, q.leavesTexts = true) → ∀ name answer after,
        .resolved name answer after ∈ ((Session.start texts).run requests).events →
          answer = analysed texts name)
      ∧ (∀ texts r name e, (resolveIn texts r name).1 = .error e →
        (resolveIn texts r name).2.cache = r.cache)
      ∧ ∀ texts r events,
        (∀ name, ((watchedResolve texts r name).run events).1 = resolveIn texts r name)
          ∧ ∀ file, ((search (watchedResolve texts) r file).run events).1
            = dependenciesIn texts r file := by
  obtain ⟨hcached, hrecorded⟩ :=
    Session.ordered_run (.start texts) requests ⟨.empty, .nil⟩
  refine ⟨fun before name answer after rest heq => ?_, hcached.faithful, ?_, ?_, ?_⟩
  · obtain ⟨hafter, hanswer⟩ := hrecorded before name answer after rest heq
    exact ⟨hanswer, hafter.faithful⟩
  · intro hrequests name answer after hmem
    have hloaded := Session.loadedFrom_run (.start texts) requests hrequests nofun
    obtain ⟨before, rest, heq⟩ := List.append_of_mem hmem
    rw [heq] at hloaded
    have hbefore : LoadedFrom texts before := fun name text hmem =>
      hloaded name text (List.mem_append_left _ hmem)
    exact hbefore.eq_analysed (hrecorded before name answer after rest heq).2
  · exact fun texts r name e => cache_resolveIn_of_error
  · intro texts r events
    refine ⟨fun name => by rw [run_watchedResolve], fun file => ?_⟩
    exact (search_watches (I := fun _ _ => True) (fun _ _ _ _ => trivial) file trivial).1

/-- A text that changes while it is kept, and is resolved again before and after it is
forgotten; and a loader that does not change and lacks a text. -/
theorem cache_transparent_changed :
    (let requests : List Request := [.resolve "a", .change fun _ => .ok "int y;", .resolve "a",
        .invalidate "a", .resolve "a"]
      let events := ((Session.start fun _ => .ok "int x;").run requests).events
      ∃ old new after, old.length = 4 ∧ events = old ++ new ++ [.resolved "a"
          (.ok (.ofText "a" "int y;".toList)) after]
        ∧ held old "a" = none ∧ held (old ++ new) "a" = some "int y;"
        ∧ Answers (old ++ new) "a" (.ok (.ofText "a" "int y;".toList))
        ∧ after.hits = 1 ∧ after.misses = 2
        ∧ after.size = {name | after.isCached name}.ncard)
      ∧ (let texts : Texts := fun name => if name = "a" then .ok "" else .error (.notFound name)
        let requests : List Request := [.resolve "a", .resolve "b"]
        (∀ q ∈ requests, q.leavesTexts = true)
          ∧ .error ⟨"b", .notFound "b"⟩ = analysed texts "b"
          ∧ (resolveIn texts ⟨[("a", .ofText "a" [])], 0, 1⟩ "b").2.cache
            = [("a", .ofText "a" [])]) := by
  constructor
  · intro requests events
    have h := (cache_transparent (fun _ => .ok "int x;") requests).1
      [.loaded "a" (.ok "int x;"),
        .resolved "a" (.ok (.ofText "a" "int x;".toList))
          ⟨[("a", .ofText "a" "int x;".toList)], 0, 1⟩,
        .resolved "a" (.ok (.ofText "a" "int x;".toList))
          ⟨[("a", .ofText "a" "int x;".toList)], 1, 1⟩,
        .forgotten "a", .loaded "a" (.ok "int y;")] "a" (.ok (.ofText "a" "int y;".toList))
      ⟨[("a", .ofText "a" "int y;".toList)], 1, 2⟩ [] rfl
    exact ⟨_, [.loaded "a" (.ok "int y;")], _, rfl, rfl, rfl, rfl, h.1, rfl, rfl, h.2.size⟩
  · intro texts requests
    obtain ⟨-, -, hsame, hfails, -⟩ := cache_transparent texts requests
    have hleaves : ∀ q ∈ requests, q.leavesTexts = true := by decide
    refine ⟨hleaves, hsame hleaves "b" _ ⟨[("a", .ofText "a" [])], 0, 2⟩ ?_, hfails _ _ _ _ rfl⟩
    have hevents : ((Session.start texts).run requests).events
        = [.loaded "a" (.ok ""), .resolved "a" (.ok (.ofText "a" []))
            ⟨[("a", .ofText "a" [])], 0, 1⟩,
          .loaded "b" (.error (.notFound "b")), .resolved "b" (.error ⟨"b", .notFound "b"⟩)
            ⟨[("a", .ofText "a" [])], 0, 2⟩] := rfl
    rw [hevents]
    exact List.mem_of_getLast? rfl

end ScriptLens.Resolver
