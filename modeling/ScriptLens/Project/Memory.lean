import ScriptLens.Project.Loader

/-!
# Texts in memory

The loader for texts that are not on any disk, such as the ones that are being
edited. Saving a text replaces the one that its name had.
-/

namespace ScriptLens

/-- Texts by their names. -/
structure MemoryFiles where
  /-- The texts, each name once. -/
  texts : List (String × String)
deriving DecidableEq, Repr

namespace MemoryFiles

/-- The text of a name. -/
def text? (f : MemoryFiles) (name : String) : Option String := f.texts.lookup name

/-- Forgets the text of a name. -/
def erase (f : MemoryFiles) (name : String) : MemoryFiles := ⟨f.texts.filter (·.1 ≠ name)⟩

/-- Gives a name a text. -/
def insert (f : MemoryFiles) (name text : String) : MemoryFiles :=
  ⟨(name, text) :: (f.erase name).texts⟩

/-- The text of a name, or an error. -/
def load (f : MemoryFiles) (name : String) : Except LoadError String :=
  match f.text? name with
  | some text => .ok text
  | none => .error (.notFound name)

@[simp] theorem text?_insert_self (f : MemoryFiles) (name text : String) :
    (f.insert name text).text? name = some text := by
  simp [text?, insert]

/-- Looking a name up after another one was forgotten finds what it found before. -/
theorem lookup_filter_ne {α : Type} (texts : List (String × α)) {name other : String}
    (h : other ≠ name) : (texts.filter (·.1 ≠ name)).lookup other = texts.lookup other := by
  induction texts with
  | nil => rfl
  | cons entry texts ih =>
    by_cases hn : entry.1 = name
    · have ho : (other == entry.1) = false := by simp [hn, h]
      rw [List.filter_cons_of_neg (by simp [hn]), ih, List.lookup_cons, ho]
    · rw [List.filter_cons_of_pos (by simp [hn]), List.lookup_cons, List.lookup_cons, ih]

theorem text?_erase_of_ne (f : MemoryFiles) {name other : String} (h : other ≠ name) :
    (f.erase name).text? other = f.text? other :=
  lookup_filter_ne f.texts h

theorem text?_insert_of_ne (f : MemoryFiles) {name other : String} (h : other ≠ name)
    (text : String) : (f.insert name text).text? other = f.text? other := by
  have hb : (other == name) = false := by simp [h]
  show List.lookup other ((name, text) :: (f.erase name).texts) = _
  rw [List.lookup_cons, hb]
  exact f.text?_erase_of_ne h

end MemoryFiles

/-- **The loader of texts in memory.** -/
def Loader.memory : Loader (StateM MemoryFiles) where
  load name := do return (← get).load name
  save name text := do
    modify (·.insert name text)
    return .ok ()
  canCompile := false
  compile := refuseCompile

end ScriptLens
