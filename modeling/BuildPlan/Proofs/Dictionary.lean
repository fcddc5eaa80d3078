import Mathlib.Data.List.Sort
import BuildPlan.Dictionary

/-!
# Names and entries of dictionaries

A dictionary answers for a name what was put there last (`Dictionary.get?_insert`), and it is
determined by its entries or by its answers (`Dictionary.ext_get?`). A dictionary of entries with
distinct names has just these entries (`Dictionary.perm_entries_ofList`), so it does not matter in
which order they are put there (`Dictionary.ofList_eq_of_perm`).
-/

set_option autoImplicit false
set_option relaxedAutoImplicit false

namespace BuildPlan.Dictionary

variable {α : Type}

/-! ### Names -/

theorem lookup_cons (name other : String) (value : α) (rest : List (String × α)) :
    ((name, value) :: rest).lookup other =
      if other = name then some value else rest.lookup other := by
  rw [List.lookup_cons]
  by_cases h : other = name
  · rw [if_pos h, beq_iff_eq.2 h]
  · rw [if_neg h, beq_eq_false_iff_ne.2 h]

theorem lookup_putEntry (name other : String) (value : α) (entries : List (String × α)) :
    (putEntry name value entries).lookup other =
      if other = name then some value else entries.lookup other := by
  induction entries with
  | nil => exact lookup_cons name other value []
  | cons head rest ih =>
    obtain ⟨next, held⟩ := head
    rw [putEntry]
    split
    next => exact lookup_cons name other value _
    next hbelow =>
      split
      next habove =>
        have hne : next ≠ name := fun h ↦ String.lt_irrefl name (h ▸ habove)
        rw [lookup_cons, lookup_cons, ih]
        by_cases h : other = next
        · rw [if_pos h, if_pos h, if_neg fun hname ↦ hne (h.symm.trans hname)]
        · rw [if_neg h, if_neg h]
      next habove =>
        obtain rfl := String.le_antisymm (String.not_lt.1 hbelow) (String.not_lt.1 habove)
        rw [lookup_cons, lookup_cons]
        by_cases h : other = next
        · rw [if_pos h, if_pos h]
        · rw [if_neg h, if_neg h, if_neg h]

/-- A name answers with the value that was put there, and every other name as before. -/
theorem get?_insert (dictionary : Dictionary α) (name other : String) (value : α) :
    (dictionary.insert name value).get? other =
      if other = name then some value else dictionary.get? other :=
  lookup_putEntry name other value dictionary.entries

/-! ### Entries -/

/-- A new name adds an entry to those that were there. -/
theorem perm_putEntry {name : String} {value : α} {entries : List (String × α)}
    (h : name ∉ entries.map Prod.fst) :
    (putEntry name value entries).Perm ((name, value) :: entries) := by
  induction entries with
  | nil => exact .refl _
  | cons head rest ih =>
    obtain ⟨next, held⟩ := head
    rw [List.map_cons, List.mem_cons, not_or] at h
    rw [putEntry]
    split
    next => exact .refl _
    next hbelow =>
      split
      next => exact ((ih h.2).cons _).trans (.swap ..)
      next habove =>
        exact absurd (String.le_antisymm (String.not_lt.1 habove) (String.not_lt.1 hbelow)) h.1

/-- Entries with new and distinct names are added to those that were there. -/
theorem perm_foldl_insert (dictionary : Dictionary α) {entries : List (String × α)}
    (h : ((dictionary.entries ++ entries).map Prod.fst).Nodup) :
    (entries.foldl (fun dictionary entry ↦ dictionary.insert entry.1 entry.2)
      dictionary).entries.Perm (dictionary.entries ++ entries) := by
  induction entries generalizing dictionary with
  | nil => rw [List.foldl_nil, List.append_nil]
  | cons entry entries ih =>
    have hmiddle : (dictionary.entries ++ entry :: entries).Perm
        (entry :: dictionary.entries ++ entries) := List.perm_middle
    have hdistinct := (hmiddle.map Prod.fst).nodup_iff.1 h
    have hnew : entry.1 ∉ dictionary.entries.map Prod.fst := by
      rw [List.cons_append, List.map_cons, List.nodup_cons, List.map_append, List.mem_append,
        not_or] at hdistinct
      exact hdistinct.1.1
    have hput : (dictionary.insert entry.1 entry.2).entries.Perm (entry :: dictionary.entries) :=
      perm_putEntry hnew
    rw [List.foldl_cons]
    have hrest := ih (dictionary.insert entry.1 entry.2)
      ((((hput.append_right entries).map Prod.fst).nodup_iff).2 hdistinct)
    exact (hrest.trans (hput.append_right entries)).trans hmiddle.symm

/-- A dictionary of entries with distinct names has these entries. -/
theorem perm_entries_ofList {entries : List (String × α)} (h : (entries.map Prod.fst).Nodup) :
    (ofList entries).entries.Perm entries :=
  perm_foldl_insert empty h

theorem nodup_names (dictionary : Dictionary α) : dictionary.names.Nodup := by
  rw [names, List.nodup_iff_pairwise_ne, List.pairwise_map]
  refine dictionary.sorted.imp fun {first second} hlt heq ↦ ?_
  exact String.lt_irrefl second.1 (heq ▸ hlt)

/-- Dictionaries with the same entries are equal. -/
theorem eq_of_perm {first second : Dictionary α} (h : first.entries.Perm second.entries) :
    first = second := by
  have hentries : first.entries = second.entries :=
    h.eq_of_pairwise (fun _ _ _ _ hlt hgt ↦ absurd hgt (String.lt_asymm hlt)) first.sorted
      second.sorted
  cases first
  cases second
  congr

/-- Among entries with distinct names a name finds the entries that have it. -/
theorem lookup_eq_some_iff_mem {entries : List (String × α)} {name : String} {value : α}
    (h : (entries.map Prod.fst).Nodup) :
    entries.lookup name = some value ↔ (name, value) ∈ entries := by
  rw [List.lookup_eq_some_iff]
  constructor
  · rintro ⟨before, after, rfl, -⟩
    exact List.mem_append_right before List.mem_cons_self
  · intro hmem
    obtain ⟨before, after, rfl⟩ := List.append_of_mem hmem
    rw [List.map_append, List.nodup_append] at h
    exact ⟨before, after, rfl, fun entry hentry ↦ bne_iff_ne.2
      (h.2.2 entry.1 (List.mem_map_of_mem hentry) name List.mem_cons_self).symm⟩

/-- The entries of a dictionary are what it answers. -/
theorem mem_entries_iff {dictionary : Dictionary α} {name : String} {value : α} :
    (name, value) ∈ dictionary.entries ↔ dictionary.get? name = some value :=
  (lookup_eq_some_iff_mem dictionary.nodup_names).symm

/-- Dictionaries with the same answers are equal. -/
theorem ext_get? {first second : Dictionary α} (h : ∀ name, first.get? name = second.get? name) :
    first = second := by
  have hnodup (dictionary : Dictionary α) : dictionary.entries.Nodup :=
    .of_map Prod.fst dictionary.nodup_names
  refine eq_of_perm ((List.perm_ext_iff_of_nodup (hnodup first) (hnodup second)).2 ?_)
  rintro ⟨name, value⟩
  rw [mem_entries_iff, mem_entries_iff, h]

/-- A dictionary is made of its entries, in whatever order they are put there. -/
theorem ofList_eq_of_perm {dictionary : Dictionary α} {entries : List (String × α)}
    (h : entries.Perm dictionary.entries) : ofList entries = dictionary :=
  eq_of_perm <| (perm_entries_ofList <|
    (h.map Prod.fst).nodup_iff.2 dictionary.nodup_names).trans h

end BuildPlan.Dictionary
