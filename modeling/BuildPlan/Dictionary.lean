/-!
# Dictionaries

Finite maps from names to values, kept in increasing order of the names. A name occurs at most
once, so the entries of a dictionary are determined by what it answers.
-/

set_option autoImplicit false
set_option relaxedAutoImplicit false

namespace BuildPlan

/-- A finite map from names, in increasing order of the names. -/
structure Dictionary (α : Type) where
  /-- The names and their values. -/
  entries : List (String × α)
  /-- The names increase strictly. -/
  sorted : entries.Pairwise fun first second ↦ first.1 < second.1
  deriving DecidableEq

namespace Dictionary

variable {α : Type}

/-- The dictionary without entries. -/
def empty : Dictionary α where
  entries := []
  sorted := .nil

instance : Inhabited (Dictionary α) := ⟨empty⟩

/-- Puts a value under a name into a list of entries. -/
def putEntry (name : String) (value : α) : List (String × α) → List (String × α)
  | [] => [(name, value)]
  | (other, old) :: rest =>
    if name < other then (name, value) :: (other, old) :: rest
    else if other < name then (other, old) :: putEntry name value rest
    else (name, value) :: rest

/-- Putting an entry adds no other name. -/
theorem mem_putEntry {name : String} {value : α} {entries : List (String × α)}
    {entry : String × α} (h : entry ∈ putEntry name value entries) :
    entry.1 = name ∨ entry ∈ entries := by
  induction entries with
  | nil => simp_all [putEntry]
  | cons head rest ih =>
    obtain ⟨other, old⟩ := head
    simp only [putEntry] at h
    split at h
    · rcases List.mem_cons.1 h with rfl | h
      · exact .inl rfl
      · exact .inr h
    · split at h
      · rcases List.mem_cons.1 h with rfl | h
        · exact .inr (.head _)
        · exact (ih h).imp_right (.tail _)
      · rcases List.mem_cons.1 h with rfl | h
        · exact .inl rfl
        · exact .inr (.tail _ h)

/-- Putting an entry keeps the order. -/
theorem pairwise_putEntry {name : String} {value : α} {entries : List (String × α)}
    (h : entries.Pairwise fun first second ↦ first.1 < second.1) :
    (putEntry name value entries).Pairwise fun first second ↦ first.1 < second.1 := by
  induction entries with
  | nil => simp [putEntry]
  | cons head rest ih =>
    obtain ⟨other, old⟩ := head
    obtain ⟨habove, hrest⟩ := List.pairwise_cons.1 h
    simp only [putEntry]
    split
    next hlt =>
      refine List.pairwise_cons.2 ⟨fun entry hentry ↦ ?_, h⟩
      rcases List.mem_cons.1 hentry with rfl | hentry
      · exact hlt
      · exact String.lt_trans hlt (habove entry hentry)
    next hlt =>
      split
      next hgt =>
        refine List.pairwise_cons.2 ⟨fun entry hentry ↦ ?_, ih hrest⟩
        rcases mem_putEntry hentry with heq | hentry
        · exact heq ▸ hgt
        · exact habove entry hentry
      next hgt =>
        obtain rfl := String.le_antisymm (String.not_lt.1 hlt) (String.not_lt.1 hgt)
        exact List.pairwise_cons.2 ⟨habove, hrest⟩

/-- The dictionary with a value under a name, in place of the one that was there. -/
def insert (dictionary : Dictionary α) (name : String) (value : α) : Dictionary α where
  entries := putEntry name value dictionary.entries
  sorted := pairwise_putEntry dictionary.sorted

/-- The value under a name. -/
def get? (dictionary : Dictionary α) (name : String) : Option α :=
  dictionary.entries.lookup name

/-- The names, in increasing order. -/
def names (dictionary : Dictionary α) : List String :=
  dictionary.entries.map Prod.fst

/-- The values, in the order of their names. -/
def values (dictionary : Dictionary α) : List α :=
  dictionary.entries.map Prod.snd

/-- The dictionary of some entries, the last one of a name counting. -/
def ofList (entries : List (String × α)) : Dictionary α :=
  entries.foldl (fun dictionary entry ↦ dictionary.insert entry.1 entry.2) empty

end Dictionary

end BuildPlan
