/-!
# Value stores

A store maps keys to values, and a value is either a text (a *leaf*) or a store of its own (a
*nested* store). Keys are literal: a dot in a key has no meaning here.

The entries are kept in increasing order of the keys at every depth, and that order is part of the
type. So two stores are equal when they hold the same values, whatever was done to build them.
-/

set_option autoImplicit false
set_option relaxedAutoImplicit false

namespace BuildPlan

/-- The entries of a store, before their order is checked. -/
inductive Entries where
  /-- No entry. -/
  | empty
  /-- A text under a key, and the other entries. -/
  | leaf (key text : String) (rest : Entries)
  /-- Nested entries under a key, and the other entries. -/
  | nested (key : String) (inner rest : Entries)
  deriving DecidableEq

namespace Entries

/-- Every key of the entries comes after a given one. -/
def Above (key : String) : Entries → Prop
  | .empty => True
  | .leaf other _ rest => key < other ∧ rest.Above key
  | .nested other _ rest => key < other ∧ rest.Above key

/-- The keys increase strictly, at every depth. -/
def Sorted : Entries → Prop
  | .empty => True
  | .leaf key _ rest => rest.Above key ∧ rest.Sorted
  | .nested key inner rest => rest.Above key ∧ inner.Sorted ∧ rest.Sorted

/-- What lies above a key lies above every smaller one. -/
theorem Above.of_lt {key other : String} {entries : Entries} (h : entries.Above other)
    (hlt : key < other) : entries.Above key := by
  induction entries with
  | empty => trivial
  | leaf next _ rest ih => exact ⟨String.lt_trans hlt h.1, ih h.2⟩
  | nested next _ rest _ ih => exact ⟨String.lt_trans hlt h.1, ih h.2⟩

end Entries

/-- A store: entries in increasing order of their keys. -/
structure Store where
  /-- The entries. -/
  entries : Entries
  /-- The keys increase, at every depth. -/
  sorted : entries.Sorted
  deriving DecidableEq

/-- A value of a store. -/
inductive Value where
  /-- A text. -/
  | leaf (text : String)
  /-- A store inside the store. -/
  | nested (store : Store)
  deriving DecidableEq

namespace Value

/-- The text of a leaf. -/
def text? : Value → Option String
  | .leaf text => some text
  | .nested _ => none

/-- The store of a nested value. -/
def store? : Value → Option Store
  | .leaf _ => none
  | .nested store => some store

/-- Puts a value under a key in front of other entries. -/
def entry (key : String) (rest : Entries) : Value → Entries
  | .leaf text => .leaf key text rest
  | .nested store => .nested key store.entries rest

end Value

namespace Entries

/-- The value under a key. -/
def get? (key : String) : (entries : Entries) → entries.Sorted → Option Value
  | .empty, _ => none
  | .leaf other text rest, sorted =>
    if other = key then some (.leaf text) else rest.get? key sorted.2
  | .nested other inner rest, sorted =>
    if other = key then some (.nested ⟨inner, sorted.2.1⟩) else rest.get? key sorted.2.2

/-- Puts a value under a key, in place of the one that was there. -/
def put (key : String) (value : Value) : Entries → Entries
  | .empty => value.entry key .empty
  | .leaf other text rest =>
    if key < other then value.entry key (.leaf other text rest)
    else if other < key then .leaf other text (rest.put key value)
    else value.entry key rest
  | .nested other inner rest =>
    if key < other then value.entry key (.nested other inner rest)
    else if other < key then .nested other inner (rest.put key value)
    else value.entry key rest

/-- Removes the value under a key. -/
def remove (key : String) : Entries → Entries
  | .empty => .empty
  | .leaf other text rest =>
    if other = key then rest else .leaf other text (rest.remove key)
  | .nested other inner rest =>
    if other = key then rest else .nested other inner (rest.remove key)

/-- The keys and values. -/
def toList : (entries : Entries) → entries.Sorted → List (String × Value)
  | .empty, _ => []
  | .leaf key text rest, sorted => (key, .leaf text) :: rest.toList sorted.2
  | .nested key inner rest, sorted =>
    (key, .nested ⟨inner, sorted.2.1⟩) :: rest.toList sorted.2.2

/-! ### The order is kept -/

theorem above_entry {key other : String} {rest : Entries} {value : Value} (hlt : key < other)
    (h : rest.Above key) : (value.entry other rest).Above key := by
  cases value <;> exact ⟨hlt, h⟩

theorem sorted_entry {key : String} {rest : Entries} {value : Value} (h : rest.Above key)
    (hrest : rest.Sorted) : (value.entry key rest).Sorted := by
  cases value with
  | leaf text => exact ⟨h, hrest⟩
  | nested store => exact ⟨h, store.sorted, hrest⟩

theorem Above.put {key other : String} {value : Value} {entries : Entries}
    (h : entries.Above key) (hlt : key < other) : (entries.put other value).Above key := by
  induction entries with
  | empty => exact above_entry hlt trivial
  | leaf next text rest ih =>
    simp only [Entries.put]
    split
    · exact above_entry hlt h
    · split
      · exact ⟨h.1, ih h.2⟩
      · exact above_entry hlt h.2
  | nested next inner rest _ ih =>
    simp only [Entries.put]
    split
    · exact above_entry hlt h
    · split
      · exact ⟨h.1, ih h.2⟩
      · exact above_entry hlt h.2

theorem Sorted.put {key : String} {value : Value} {entries : Entries} (h : entries.Sorted) :
    (entries.put key value).Sorted := by
  induction entries with
  | empty => exact sorted_entry trivial trivial
  | leaf other text rest ih =>
    simp only [Entries.put]
    split
    next hlt => exact sorted_entry ⟨hlt, h.1.of_lt hlt⟩ h
    next hlt =>
      split
      next hgt => exact ⟨h.1.put hgt, ih h.2⟩
      next hgt =>
        obtain rfl := String.le_antisymm (String.not_lt.1 hlt) (String.not_lt.1 hgt)
        exact sorted_entry h.1 h.2
  | nested other inner rest _ ih =>
    simp only [Entries.put]
    split
    next hlt => exact sorted_entry ⟨hlt, h.1.of_lt hlt⟩ h
    next hlt =>
      split
      next hgt => exact ⟨h.1.put hgt, h.2.1, ih h.2.2⟩
      next hgt =>
        obtain rfl := String.le_antisymm (String.not_lt.1 hlt) (String.not_lt.1 hgt)
        exact sorted_entry h.1 h.2.2

theorem Above.remove {key other : String} {entries : Entries} (h : entries.Above key) :
    (entries.remove other).Above key := by
  induction entries with
  | empty => trivial
  | leaf next text rest ih =>
    simp only [Entries.remove]
    split
    · exact h.2
    · exact ⟨h.1, ih h.2⟩
  | nested next inner rest _ ih =>
    simp only [Entries.remove]
    split
    · exact h.2
    · exact ⟨h.1, ih h.2⟩

theorem Sorted.remove {key : String} {entries : Entries} (h : entries.Sorted) :
    (entries.remove key).Sorted := by
  induction entries with
  | empty => trivial
  | leaf other text rest ih =>
    simp only [Entries.remove]
    split
    · exact h.2
    · exact ⟨h.1.remove, ih h.2⟩
  | nested other inner rest _ ih =>
    simp only [Entries.remove]
    split
    · exact h.2.2
    · exact ⟨h.1.remove, h.2.1, ih h.2.2⟩

end Entries

namespace Store

/-- The store without entries. -/
def empty : Store := ⟨.empty, trivial⟩

instance : Inhabited Store := ⟨empty⟩

/-- Whether a store has no entries. -/
def isEmpty (store : Store) : Bool :=
  decide (store.entries = .empty)

/-- The value under a literal key. -/
def get? (store : Store) (key : String) : Option Value :=
  store.entries.get? key store.sorted

/-- The store with a value under a literal key, in place of the one that was there. -/
def insert (store : Store) (key : String) (value : Value) : Store :=
  ⟨store.entries.put key value, store.sorted.put⟩

/-- The store without the value under a literal key. -/
def erase (store : Store) (key : String) : Store :=
  ⟨store.entries.remove key, store.sorted.remove⟩

/-- The keys and values, in increasing order of the keys. -/
def toList (store : Store) : List (String × Value) :=
  store.entries.toList store.sorted

/-- The store of some entries, the last one of a key counting. -/
def ofList (entries : List (String × Value)) : Store :=
  entries.foldl (fun store entry ↦ store.insert entry.1 entry.2) empty

/-- The nested store under a literal key, empty if there is none. -/
def nestedOrEmpty (store : Store) (key : String) : Store :=
  ((store.get? key).bind Value.store?).getD empty

end Store

end BuildPlan
