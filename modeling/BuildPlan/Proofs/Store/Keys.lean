import Mathlib.Data.List.Infix
import BuildPlan.Store.Merge

/-!
# Values under keys

What is found under a literal key after an insertion (`Store.get?_insert`) and after a merge
(`Store.get?_merge`), and from that what is found under a list of keys, each leading into the store
under the one before it (`Store.at?`). A text of the later store replaces everything at its place
and behind it (`Store.at?_merge_of_blocks`). Where no such text lies on the way, the values that the
two stores hold are merged (`Store.at?_merge_of_not_blocks`).

Stores with the same values under all literal keys are equal (`Store.ext_get?`), and what passes
from the stores directly inside a store to the store itself holds of every store
(`Store.nested_induction`).
-/

set_option autoImplicit false
set_option relaxedAutoImplicit false

namespace BuildPlan

namespace Entries

/-- A key below all keys of the entries is none of them. -/
theorem get?_eq_none_of_above {key : String} {entries : Entries} (sorted : entries.Sorted)
    (h : entries.Above key) : entries.get? key sorted = none := by
  induction entries with
  | empty => rfl
  | leaf other _ rest ih =>
    rw [get?, if_neg (fun hkey : other = key ↦ String.lt_irrefl key (hkey ▸ h.1)), ih sorted.2 h.2]
  | nested other _ rest _ ih =>
    rw [get?, if_neg (fun hkey : other = key ↦ String.lt_irrefl key (hkey ▸ h.1)),
      ih sorted.2.2 h.2]

theorem get?_entry {key other : String} {value : Value} {rest : Entries} (hrest : rest.Sorted)
    (sorted : (value.entry key rest).Sorted) : (value.entry key rest).get? other sorted =
      if key = other then some value else rest.get? other hrest := by
  cases value <;> rfl

theorem put_entry {key next : String} {value held : Value} {rest : Entries} :
    (held.entry next rest).put key value =
      if key < next then value.entry key (held.entry next rest)
      else if next < key then held.entry next (rest.put key value)
      else value.entry key rest := by
  cases held <;> rfl

/-- What putting a value does to the first entry, whether that is a text or a store. -/
theorem get?_put_entry {key next other : String} {value : Value} {rest : Entries} (held : Value)
    (hrest : rest.Sorted) (sorted : (held.entry next rest).Sorted)
    (ih : (rest.put key value).get? other hrest.put =
      if key = other then some value else rest.get? other hrest) :
    ((held.entry next rest).put key value).get? other sorted.put =
      if key = other then some value else (held.entry next rest).get? other sorted := by
  simp only [put_entry]
  split
  next hlt => exact get?_entry sorted _
  next hlt =>
    split
    next hgt =>
      have hne : key ≠ next := fun h ↦ String.lt_irrefl next (h ▸ hgt)
      rw [get?_entry hrest.put, get?_entry hrest, ih]
      by_cases hother : key = other
      · rw [if_pos hother, if_neg fun h ↦ hne (hother.trans h.symm), if_pos hother]
      · rw [if_neg hother, if_neg hother]
    next hgt =>
      obtain rfl := String.le_antisymm (String.not_lt.1 hlt) (String.not_lt.1 hgt)
      rw [get?_entry hrest, get?_entry hrest]
      by_cases hother : next = other
      · rw [if_pos hother, if_pos hother]
      · rw [if_neg hother, if_neg hother, if_neg hother]

/-- A key holds the value that was put there, and every other key what it held before. -/
theorem get?_put {key other : String} {value : Value} {entries : Entries}
    (sorted : entries.Sorted) : (entries.put key value).get? other sorted.put =
      if key = other then some value else entries.get? other sorted := by
  induction entries with
  | empty => exact get?_entry sorted _
  | leaf next text rest ih => exact get?_put_entry (.leaf text) sorted.2 sorted (ih sorted.2)
  | nested next inner rest _ ih =>
    exact get?_put_entry (.nested ⟨inner, sorted.2.1⟩) sorted.2.2 sorted (ih sorted.2.2)

/-- Entries in order are empty, or a value under a key is put in front of entries in order. -/
theorem Sorted.eq_empty_or_entry {entries : Entries} (sorted : entries.Sorted) :
    entries = .empty ∨ ∃ key value rest, rest.Sorted ∧ rest.Above key ∧
      entries = Value.entry key rest value := by
  cases entries with
  | empty => exact .inl rfl
  | leaf key text rest => exact .inr ⟨key, .leaf text, rest, sorted.2, sorted.1, rfl⟩
  | nested key inner rest =>
    exact .inr ⟨key, .nested ⟨inner, sorted.2.1⟩, rest, sorted.2.2, sorted.1, rfl⟩

/-- Induction on entries in order, for texts and stores at once. -/
@[elab_as_elim]
theorem Sorted.induction {motive : (entries : Entries) → entries.Sorted → Prop}
    (empty : motive .empty trivial)
    (entry : ∀ key value rest (hrest : rest.Sorted) (habove : rest.Above key),
      (∀ inner : Store, value = .nested inner → motive inner.entries inner.sorted) →
        motive rest hrest → motive (Value.entry key rest value) (sorted_entry habove hrest))
    {entries : Entries} (sorted : entries.Sorted) : motive entries sorted := by
  induction entries with
  | empty => exact empty
  | leaf key text rest ih =>
    exact entry key (.leaf text) rest sorted.2 sorted.1 nofun (ih sorted.2)
  | nested key inner rest ihinner ih =>
    refine entry key (.nested ⟨inner, sorted.2.1⟩) rest sorted.2.2 sorted.1 ?_ (ih sorted.2.2)
    rintro _ ⟨⟩
    exact ihinner sorted.2.1

theorem remove_entry {key next : String} {held : Value} {rest : Entries} :
    (held.entry next rest).remove key =
      if next = key then rest else held.entry next (rest.remove key) := by
  cases held <;> rfl

/-- A removed key holds nothing, and every other key what it held before. -/
theorem get?_remove {key other : String} {entries : Entries} (sorted : entries.Sorted) :
    (entries.remove key).get? other sorted.remove =
      if key = other then none else entries.get? other sorted := by
  induction sorted using Sorted.induction with
  | empty => exact (ite_self _).symm
  | entry next value rest hrest habove _ ih =>
    simp only [remove_entry]
    rw [get?_entry hrest]
    split
    next hnext =>
      subst hnext
      by_cases hother : next = other
      · subst hother
        exact (get?_eq_none_of_above hrest habove).trans (if_pos rfl).symm
      · rw [if_neg hother, if_neg hother]
    next hnext =>
      rw [get?_entry hrest.remove, ih]
      by_cases hother : next = other
      · rw [if_pos hother, if_pos hother, if_neg fun hkey ↦ hnext (hother.trans hkey.symm)]
      · rw [if_neg hother, if_neg hother]

theorem get?_entry_self {key : String} {value : Value} {rest : Entries} (hrest : rest.Sorted)
    (sorted : (value.entry key rest).Sorted) :
    (value.entry key rest).get? key sorted = some value := by
  rw [get?_entry hrest, if_pos rfl]

/-- The first key of entries is not above a key that holds a value. -/
theorem not_lt_of_get?_entry {key other : String} {value held : Value} {others : Entries}
    (habove : others.Above other) (sorted : (held.entry other others).Sorted)
    (h : (held.entry other others).get? key sorted = some value) : ¬ key < other := by
  intro hlt
  have hnone := get?_eq_none_of_above sorted (above_entry hlt (habove.of_lt hlt))
  cases hnone.symm.trans h

/-- Entries with the same values under all keys are the same. -/
theorem eq_of_get? {first second : Entries} (hfirst : first.Sorted) (hsecond : second.Sorted)
    (h : ∀ key, first.get? key hfirst = second.get? key hsecond) : first = second := by
  induction hfirst using Sorted.induction generalizing second with
  | empty =>
    rcases hsecond.eq_empty_or_entry with rfl | ⟨key, value, rest, hrest, -, rfl⟩
    · rfl
    · cases (h key).trans (get?_entry_self hrest hsecond)
  | entry key value rest hrest habove _ ih =>
    have hsorted : (value.entry key rest).Sorted := sorted_entry habove hrest
    have hself := get?_entry_self hrest hsorted
    rcases hsecond.eq_empty_or_entry with rfl | ⟨other, held, others, hothers, hother, rfl⟩
    · cases hself.symm.trans (h key)
    · have hheld := get?_entry_self hothers hsecond
      have hle := not_lt_of_get?_entry hother hsecond ((h key).symm.trans hself)
      have hge := not_lt_of_get?_entry habove _ ((h other).trans hheld)
      obtain rfl := String.le_antisymm (String.not_lt.1 hge) (String.not_lt.1 hle)
      obtain rfl := Option.some.inj ((hself.symm.trans (h key)).trans hheld)
      refine congrArg (value.entry key) (ih hothers fun next ↦ ?_)
      by_cases hnext : key = next
      · subst hnext
        rw [get?_eq_none_of_above hrest habove, get?_eq_none_of_above hothers hother]
      · have hboth := h next
        rwa [get?_entry hrest, get?_entry hothers, if_neg hnext, if_neg hnext] at hboth

end Entries

/-- What a merge leaves under a key, from what the later and the earlier store hold there. -/
def Value.overlay : Option Value → Option Value → Option Value
  | none, earlier => earlier
  | some (.nested later), some (.nested earlier) => some (.nested (earlier.merge later))
  | some later, _ => some later

theorem Value.overlay_none (later : Option Value) : overlay later none = later := by
  cases later with
  | none => rfl
  | some value => cases value <;> rfl

namespace Store

/-- A key holds the value that was inserted there, and every other key what it held before. -/
theorem get?_insert (store : Store) (key other : String) (value : Value) :
    (store.insert key value).get? other = if key = other then some value else store.get? other :=
  Entries.get?_put store.sorted

/-- An erased key holds nothing, and every other key what it held before. -/
theorem get?_erase (store : Store) (key other : String) :
    (store.erase key).get? other = if key = other then none else store.get? other :=
  Entries.get?_remove store.sorted

/-- Stores with the same values under all keys are equal. -/
theorem ext_get? {first second : Store} (h : ∀ key, first.get? key = second.get? key) :
    first = second := by
  have hentries := Entries.eq_of_get? first.sorted second.sorted h
  cases first
  cases second
  congr

/-- Induction on stores, from the stores directly inside a store to the store itself. -/
@[elab_as_elim]
theorem nested_induction {motive : Store → Prop}
    (step : ∀ store, (∀ key inner, store.get? key = some (.nested inner) → motive inner) →
      motive store)
    (store : Store) : motive store := by
  have hinside {entries : Entries} (sorted : entries.Sorted) : ∀ key inner,
      entries.get? key sorted = some (.nested inner) → motive inner := by
    induction sorted using Entries.Sorted.induction with
    | empty => exact fun _ _ h ↦ by cases h
    | entry other value rest hrest habove ihvalue ih =>
      intro key inner h
      rw [Entries.get?_entry hrest] at h
      split at h
      · exact step inner (ihvalue inner (Option.some.inj h))
      · exact ih key inner h
  exact step store (hinside store.sorted)

theorem mergeInto_leaf {key text : String} {rest : Entries}
    (sorted : (Entries.leaf key text rest).Sorted) (store : Store) :
    (Entries.leaf key text rest).mergeInto sorted store =
      rest.mergeInto sorted.2 (store.insert key (.leaf text)) :=
  rfl

theorem mergeInto_nested {key : String} {inner rest : Entries}
    (sorted : (Entries.nested key inner rest).Sorted) (store : Store) :
    (Entries.nested key inner rest).mergeInto sorted store =
      rest.mergeInto sorted.2.2 (store.insert key (.nested
        (match store.get? key with
        | some (.nested earlier) => inner.mergeInto sorted.2.1 earlier
        | _ => ⟨inner, sorted.2.1⟩))) :=
  rfl

/-- Merging entries into a store works key by key. -/
theorem get?_mergeInto {entries : Entries} (sorted : entries.Sorted) (earlier : Store)
    (key : String) : (entries.mergeInto sorted earlier).get? key =
      Value.overlay (entries.get? key sorted) (earlier.get? key) := by
  induction entries generalizing earlier with
  | empty => rfl
  | leaf other text rest ih =>
    rw [mergeInto_leaf, ih sorted.2, get?_insert, Entries.get?]
    by_cases hkey : other = key
    · subst hkey
      rw [Entries.get?_eq_none_of_above sorted.2 sorted.1, if_pos rfl, if_pos rfl]
      rfl
    · rw [if_neg hkey, if_neg hkey]
  | nested other inner rest _ ih =>
    rw [mergeInto_nested, ih sorted.2.2, get?_insert, Entries.get?]
    by_cases hkey : other = key
    · subst hkey
      rw [Entries.get?_eq_none_of_above sorted.2.2 sorted.1, if_pos rfl, if_pos rfl]
      -- what lies under the key before the merge decides whether the inner stores are merged
      cases earlier.get? other with
      | none => rfl
      | some value => cases value <;> rfl
    · rw [if_neg hkey, if_neg hkey]

theorem get?_merge (earlier later : Store) (key : String) :
    (earlier.merge later).get? key = Value.overlay (later.get? key) (earlier.get? key) :=
  get?_mergeInto later.sorted earlier key

theorem empty_merge (store : Store) : empty.merge store = store :=
  ext_get? fun key ↦ (get?_merge empty store key).trans (Value.overlay_none _)

end Store

/-- The value under a list of keys, each of them leading into the store under the one before it. -/
def Value.at? : Value → List String → Option Value
  | value, [] => some value
  | .leaf _, _ :: _ => none
  | .nested store, key :: keys => (store.get? key).bind (at? · keys)

theorem Value.at?_append (value : Value) (front back : List String) :
    value.at? (front ++ back) = (value.at? front).bind (·.at? back) := by
  induction front generalizing value with
  | nil => rfl
  | cons key front ih =>
    cases value with
    | leaf text => rfl
    | nested store =>
      rw [List.cons_append, at?, at?, Option.bind_assoc]
      simp only [ih]

namespace Store

/-- The value under a list of keys of a store; under no keys it is the store. -/
def at? (store : Store) (keys : List String) : Option Value :=
  (Value.nested store).at? keys

/-- A text lies on the way along some keys or at their end, so that no store can be reached behind
it. -/
def Blocks (store : Store) (keys : List String) : Prop :=
  ∃ front text, front <+: keys ∧ store.at? front = some (.leaf text)

theorem at?_cons (store : Store) (key : String) (keys : List String) :
    store.at? (key :: keys) = (store.get? key).bind (·.at? keys) :=
  rfl

theorem at?_append (store : Store) (front back : List String) :
    store.at? (front ++ back) = (store.at? front).bind (·.at? back) :=
  Value.at?_append (.nested store) front back

/-- There is nothing behind a text. -/
theorem eq_of_prefix_of_leaf {store : Store} {front keys : List String} {text : String}
    {value : Value} (hfront : front <+: keys) (htext : store.at? front = some (.leaf text))
    (hvalue : store.at? keys = some value) : front = keys := by
  obtain ⟨back, rfl⟩ := hfront
  rw [at?_append, htext] at hvalue
  cases back with
  | nil => exact (List.append_nil front).symm
  | cons key back => cases hvalue

/-- A text at the first key blocks every way that begins with the key. -/
theorem blocks_cons_of_leaf {store : Store} {key text : String} {keys : List String}
    (h : store.get? key = some (.leaf text)) : store.Blocks (key :: keys) :=
  ⟨[key], text, List.prefix_append [key] keys, by rw [at?_cons, h]; rfl⟩

/-- Where there is nothing under the first key, nothing blocks the way. -/
theorem not_blocks_cons_of_none {store : Store} {key : String} {keys : List String}
    (h : store.get? key = none) : ¬ store.Blocks (key :: keys) := by
  rintro ⟨front, text, hfront, htext⟩
  cases front with
  | nil => cases htext
  | cons other front =>
    obtain rfl := (List.cons_prefix_cons.1 hfront).1
    rw [at?_cons, h] at htext
    cases htext

/-- What blocks the way behind a nested store lies inside it. -/
theorem blocks_cons_of_nested {store inner : Store} {key : String} {keys : List String}
    (h : store.get? key = some (.nested inner)) :
    store.Blocks (key :: keys) ↔ inner.Blocks keys := by
  constructor
  · rintro ⟨front, text, hfront, htext⟩
    cases front with
    | nil => cases htext
    | cons other front =>
      obtain ⟨rfl, hrest⟩ := List.cons_prefix_cons.1 hfront
      rw [at?_cons, h] at htext
      exact ⟨front, text, hrest, htext⟩
  · rintro ⟨front, text, hfront, htext⟩
    refine ⟨key :: front, text, List.cons_prefix_cons.2 ⟨rfl, hfront⟩, ?_⟩
    rw [at?_cons, h]
    exact htext

/-- At a text of the later store and behind it, the merged store holds what the later one does. -/
theorem at?_merge_of_blocks {earlier later : Store} {keys : List String} (h : later.Blocks keys) :
    (earlier.merge later).at? keys = later.at? keys := by
  induction keys generalizing earlier later with
  | nil =>
    obtain ⟨front, text, hfront, htext⟩ := h
    obtain rfl := List.prefix_nil.1 hfront
    cases htext
  | cons key keys ih =>
    rw [at?_cons, at?_cons, get?_merge]
    cases hlater : later.get? key with
    | none => exact absurd h (not_blocks_cons_of_none hlater)
    | some held =>
      cases held with
      | leaf text => rfl
      | nested inner =>
        cases earlier.get? key with
        | none => rfl
        | some held =>
          cases held with
          | leaf text => rfl
          | nested old => exact ih ((blocks_cons_of_nested hlater).1 h)

/-- Where no text of the later store blocks the way, the two values under the keys are merged. -/
theorem at?_merge_of_not_blocks {earlier later : Store} {keys : List String}
    (h : ¬ later.Blocks keys) : (earlier.merge later).at? keys =
      Value.overlay (later.at? keys) (earlier.at? keys) := by
  induction keys generalizing earlier later with
  | nil => rfl
  | cons key keys ih =>
    rw [at?_cons, at?_cons, at?_cons, get?_merge]
    cases hlater : later.get? key with
    | none => rfl
    | some held =>
      cases held with
      | leaf text => exact absurd (blocks_cons_of_leaf hlater) h
      | nested inner =>
        rw [blocks_cons_of_nested hlater] at h
        cases earlier.get? key with
        | none => exact (Value.overlay_none _).symm
        | some held =>
          cases held with
          | leaf text =>
            -- the text is replaced by the store, and there is nothing behind it
            cases keys with
            | nil => rfl
            | cons next keys => exact (Value.overlay_none _).symm
          | nested old => exact ih h

/-- A text of the later store is found in the merged store. -/
theorem at?_merge_of_leaf {earlier later : Store} {keys : List String} {text : String}
    (h : later.at? keys = some (.leaf text)) :
    (earlier.merge later).at? keys = some (.leaf text) := by
  have hblocks : later.Blocks keys := ⟨keys, text, List.prefix_rfl, h⟩
  rw [at?_merge_of_blocks hblocks, h]

/-- Where the later store holds nothing, the merged store holds what the earlier one does, unless
a text of the later store blocks the way to it. -/
theorem at?_merge_of_none {earlier later : Store} {keys : List String} {value : Value}
    (h : later.at? keys = none) : (earlier.merge later).at? keys = some value ↔
      earlier.at? keys = some value ∧ ¬ later.Blocks keys := by
  by_cases hblocks : later.Blocks keys
  · simp [at?_merge_of_blocks hblocks, h, hblocks]
  · simp [at?_merge_of_not_blocks hblocks, h, hblocks, Value.overlay]

end Store

end BuildPlan
