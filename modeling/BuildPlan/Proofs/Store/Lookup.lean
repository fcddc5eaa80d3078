import BuildPlan.Proofs.Store.Override

/-!
# What a lookup finds

A lookup searches every splitting of its path. It finds nothing exactly if no splitting leads to a
value, and otherwise it gives the value of the first splitting that leads to one, the splittings
being ordered by the length of their first key, the longer one first, then by that of the second
key, and so on (`lookup_exact`).

The order matters only where keys hold separators. In a store without them
(`Store.SeparatorFree`) at most one splitting leads anywhere, the one that cuts the path at every
separator, and the lookup is the walk along these segments (`Store.lookup_of_separatorFree`).
-/

set_option autoImplicit false
set_option relaxedAutoImplicit false

namespace BuildPlan

/-! ### Properties of all keys -/

/-- Every key of the entries, at every depth, has a property. -/
def Entries.AllKeys (p : String → Prop) : Entries → Prop
  | .empty => True
  | .leaf key _ rest => p key ∧ rest.AllKeys p
  | .nested key inner rest => p key ∧ inner.AllKeys p ∧ rest.AllKeys p

/-- Every key below a value, at every depth, has a property. -/
def Value.AllKeys (p : String → Prop) : Value → Prop
  | .leaf _ => True
  | .nested store => store.entries.AllKeys p

theorem Entries.AllKeys.imp {p q : String → Prop} (himp : ∀ key, p key → q key)
    {entries : Entries} (h : entries.AllKeys p) : entries.AllKeys q := by
  induction entries with
  | empty => trivial
  | leaf key text rest ih => exact ⟨himp key h.1, ih h.2⟩
  | nested key inner rest ihinner ih => exact ⟨himp key h.1, ihinner h.2.1, ih h.2.2⟩

theorem Entries.allKeys_entry {p : String → Prop} {key : String} {value : Value}
    {rest : Entries} :
    (value.entry key rest).AllKeys p ↔ p key ∧ value.AllKeys p ∧ rest.AllKeys p := by
  cases value <;> simp [Value.entry, Entries.AllKeys, Value.AllKeys]

/-- Putting a value under a key brings in that key and the keys below the value. -/
theorem Entries.AllKeys.put {p : String → Prop} {entries : Entries} {key : String} {value : Value}
    (h : entries.AllKeys p) (hkey : p key) (hvalue : value.AllKeys p) :
    (entries.put key value).AllKeys p := by
  induction entries with
  | empty => exact Entries.allKeys_entry.2 ⟨hkey, hvalue, trivial⟩
  | leaf other text rest ih =>
    rw [Entries.put]
    split
    · exact Entries.allKeys_entry.2 ⟨hkey, hvalue, h⟩
    · split
      · exact ⟨h.1, ih h.2⟩
      · exact Entries.allKeys_entry.2 ⟨hkey, hvalue, h.2⟩
  | nested other inner rest _ ih =>
    rw [Entries.put]
    split
    · exact Entries.allKeys_entry.2 ⟨hkey, hvalue, h⟩
    · split
      · exact ⟨h.1, h.2.1, ih h.2.2⟩
      · exact Entries.allKeys_entry.2 ⟨hkey, hvalue, h.2.2⟩

/-- A key that holds a value has the property, and so have the keys below the value. -/
theorem Entries.AllKeys.of_get? {p : String → Prop} {entries : Entries} {key : String}
    {value : Value} (h : entries.AllKeys p) {sorted : entries.Sorted}
    (hvalue : entries.get? key sorted = some value) : p key ∧ value.AllKeys p := by
  induction entries with
  | empty => cases hvalue
  | leaf other text rest ih =>
    rw [Entries.get?] at hvalue
    split at hvalue
    next hkey =>
      obtain rfl := Option.some.inj hvalue
      exact ⟨hkey ▸ h.1, trivial⟩
    next => exact ih h.2 hvalue
  | nested other inner rest _ ih =>
    rw [Entries.get?] at hvalue
    split at hvalue
    next hkey =>
      obtain rfl := Option.some.inj hvalue
      exact ⟨hkey ▸ h.1, h.2.1⟩
    next => exact ih h.2.2 hvalue

/-- All keys on the way to a value have the property. -/
theorem Value.AllKeys.of_at? {p : String → Prop} {value found : Value} {keys : List String}
    (h : value.AllKeys p) (hfound : value.at? keys = some found) : ∀ key ∈ keys, p key := by
  induction keys generalizing value with
  | nil => exact fun _ hkey ↦ absurd hkey List.not_mem_nil
  | cons key keys ih =>
    cases value with
    | leaf text => cases hfound
    | nested store =>
      obtain ⟨next, hnext, hrest⟩ := Option.bind_eq_some_iff.1 hfound
      obtain ⟨hkey, hbelow⟩ := Entries.AllKeys.of_get? h hnext
      exact List.forall_mem_cons.2 ⟨hkey, ih hbelow hrest⟩

/-- What is found under some keys has the property of the keys of the value. -/
theorem Value.AllKeys.at? {p : String → Prop} {value found : Value} {keys : List String}
    (h : value.AllKeys p) (hfound : value.at? keys = some found) : found.AllKeys p := by
  induction keys generalizing value with
  | nil => exact Option.some.inj hfound ▸ h
  | cons key keys ih =>
    cases value with
    | leaf text => cases hfound
    | nested store =>
      obtain ⟨next, hnext, hrest⟩ := Option.bind_eq_some_iff.1 hfound
      exact ih (Entries.AllKeys.of_get? h hnext).2 hrest

namespace Store

/-- No key of the store, at any depth, contains the separator of paths. -/
def SeparatorFree (store : Store) : Prop :=
  (Value.nested store).AllKeys fun key ↦ pathSeparator ∉ key.toList

/-! ### Splittings and segments -/

/-- A path is split into the keys that make it up with separators between them. -/
theorem splits_iff_intercalate {path : List Char} {keys : List String} :
    Splits path keys ↔
      keys ≠ [] ∧ path = [pathSeparator].intercalate (keys.map String.toList) := by
  induction keys generalizing path with
  | nil =>
    constructor
    · intro h
      obtain ⟨_, _, hkeys⟩ := h.exists_eq_cons
      cases hkeys
    · intro h
      exact absurd rfl h.1
  | cons key keys ih =>
    rw [splits_cons_iff]
    simp only [ih]
    cases keys with
    | nil => simp [List.intercalate]
    | cons next keys => simp

/-- A path has one splitting without separators in its keys. -/
theorem Splits.eq_segmentKeys {path : String} {keys : List String}
    (h : Splits path.toList keys) (hfree : ∀ key ∈ keys, pathSeparator ∉ key.toList) :
    keys = segmentKeys path := by
  rcases h.eq_or_ahead (splits_segmentKeys path) with heq | hahead | hbehind
  · exact heq
  · obtain ⟨key, hkey, hseparator⟩ := (ahead_segmentKeys_iff h).1 hahead
    exact absurd hseparator (hfree key hkey)
  · have hown := splits_segmentKeys path
    exact absurd hbehind (hown.not_ahead (separator_not_mem_segmentKeys path) h)

/-- The segments of a path are its pieces between the separators. -/
theorem segmentKeys_eq_splitOn (path : String) :
    segmentKeys path = (path.toList.splitOn pathSeparator).map String.ofList := by
  obtain ⟨hkeys, hpath⟩ := splits_iff_intercalate.1 (splits_segmentKeys path)
  have hfree : ∀ piece ∈ (segmentKeys path).map String.toList, pathSeparator ∉ piece :=
    List.forall_mem_map.2 (separator_not_mem_segmentKeys path)
  rw [hpath, List.splitOn_intercalate _ hfree fun h ↦ hkeys (List.map_eq_nil_iff.1 h)]
  simp

/-! ### The value of a lookup -/

/-- At most one splitting is the first one that leads to a value. -/
theorem FirstLeads.unique {path : List Char} {leads : List String → Value → Prop}
    {keys others : List String} {value held : Value} (h : FirstLeads path leads keys value)
    (h' : FirstLeads path leads others held) : keys = others := by
  rcases h.1.eq_or_ahead h'.1 with heq | hahead | hbehind
  · exact heq
  · exact absurd h.2.1 (h'.2.2 keys h.1 hahead value)
  · exact absurd h'.2.1 (h.2.2 others h'.1 hbehind held)

theorem lookup_eq_some_iff_existsUnique {store : Store} {path : String} {value : Value} :
    store.lookup path = some value ↔ ∃! keys, FirstLeads path.toList store.Leads keys value := by
  rw [lookup_eq_some_iff]
  constructor
  · rintro ⟨keys, hkeys⟩
    exact ⟨keys, hkeys, fun others hothers ↦ hothers.unique hkeys⟩
  · rintro ⟨keys, hkeys, -⟩
    exact ⟨keys, hkeys⟩

/-- A lookup finds nothing if no splitting leads to a value. -/
theorem lookup_eq_none_iff {store : Store} {path : String} :
    store.lookup path = none ↔
      ∀ keys value, Splits path.toList keys → ¬ store.Leads keys value := by
  constructor
  · intro hnone keys value hkeys hvalue
    obtain ⟨found, hfound⟩ := exists_lookup_eq_some hkeys hvalue
    cases hnone.symm.trans hfound
  · intro hnone
    refine Option.eq_none_iff_forall_ne_some.2 fun value hvalue ↦ ?_
    obtain ⟨keys, hkeys, hleads, -⟩ := lookup_eq_some_iff.1 hvalue
    exact hnone keys value hkeys hleads

/-- Without separators in its keys a store is searched along the segments of the path. -/
theorem lookup_of_separatorFree {store : Store} (h : store.SeparatorFree) (path : String) :
    store.lookup path = store.at? (segmentKeys path) := by
  have hfree {keys : List String} {value : Value} (hvalue : store.Leads keys value) :
      ∀ key ∈ keys, pathSeparator ∉ key.toList := h.of_at? hvalue
  refine Option.ext fun value ↦ ⟨fun hlookup ↦ ?_, fun hvalue ↦ ?_⟩
  · obtain ⟨keys, hkeys, hvalue, -⟩ := lookup_eq_some_iff.1 hlookup
    rwa [← hkeys.eq_segmentKeys (hfree hvalue)]
  · refine lookup_eq_some_iff.2 ⟨segmentKeys path, splits_segmentKeys path, hvalue, ?_⟩
    intro other hother hahead held hheld
    obtain ⟨key, hkey, hseparator⟩ := (ahead_segmentKeys_iff hother).1 hahead
    exact hfree hheld key hkey hseparator

/-- A lookup searches every splitting of its path, in order. It finds nothing exactly if no
splitting leads to a value. It gives a value exactly if that is the value of the first splitting
that leads to one, and a text exactly if that is a text. In a store without separators in its keys
it is the walk along the segments of the path. -/
theorem lookup_exact (store : Store) (path : String) :
    (store.lookup path = none ↔
      ∀ keys value, Splits path.toList keys → ¬ store.Leads keys value) ∧
    (∀ value, store.lookup path = some value ↔
      ∃! keys, FirstLeads path.toList store.Leads keys value) ∧
    (∀ text, store.lookupText path = some text ↔
      ∃! keys, FirstLeads path.toList store.Leads keys (.leaf text)) ∧
    (store.SeparatorFree →
      store.lookup path = store.at? ((path.toList.splitOn pathSeparator).map String.ofList)) := by
  refine ⟨lookup_eq_none_iff, fun value ↦ lookup_eq_some_iff_existsUnique, fun text ↦ ?_,
    fun hfree ↦ ?_⟩
  · rw [lookupText_eq_some_iff, lookup_eq_some_iff_existsUnique]
  · rw [lookup_of_separatorFree hfree, segmentKeys_eq_splitOn]

/-- The walk along the segments of `a.b` finds the text under the key `b` of the store under `a`. -/
theorem walk_to_nested_key :
    (nestedKey "value").SeparatorFree ∧
      (nestedKey "value").lookup "a.b" = some (.leaf "value") := by
  have hfree : (nestedKey "value").SeparatorFree := by
    refine ⟨?_, ⟨?_, trivial⟩, trivial⟩ <;> decide
  refine ⟨hfree, ((lookup_exact (nestedKey "value") "a.b").2.2.2 hfree).trans ?_⟩
  decide +kernel

end Store

end BuildPlan
