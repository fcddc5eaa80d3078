import BuildPlan.Proofs.Store.Assignment
import BuildPlan.Proofs.Store.Listing

/-!
# Growing a store from its leaves

Assigning the leaves of a store one after the other is merging the store
(`Entries.foldl_assignLeaf_leaves`), as long as every nested store of it has a leaf to show for
itself (`Entries.Filled`). The recursion of the merge is that of the listing: the leaves of a nested
store are assigned in a row, the first of them makes the store that the others find, and so they
work together as one insertion (`Store.foldl_assignLeaf_below`).

A listed path stands for the keys of its leaf if no key is empty or holds a separator
(`Store.Listable`). So the listing of such a store, assigned to another store, merges the one into
the other (`Store.foldl_assign_flatten`). The order of the listing does not count, since its paths
are apart from one another (`Store.pairwise_apart_flatten`): nothing lies behind a leaf.

An assignment brings in no keys but the segments of its path (`Store.allKeys_assign`).
-/

set_option autoImplicit false
set_option relaxedAutoImplicit false

namespace BuildPlan

/-- No nested store among the entries, at any depth, is empty. -/
def Entries.Filled : Entries → Prop
  | .empty => True
  | .leaf _ _ rest => rest.Filled
  | .nested _ inner rest => inner ≠ .empty ∧ inner.Filled ∧ rest.Filled

/-- Where no nested store is empty, there is a leaf. -/
theorem Entries.leaves_ne_nil {entries : Entries} (hfilled : entries.Filled)
    (hne : entries ≠ .empty) : entries.leaves ≠ [] := by
  induction entries with
  | empty => exact absurd rfl hne
  | leaf key text rest _ => exact List.cons_ne_nil _ _
  | nested key inner rest ihinner _ =>
    have hinner := ihinner hfilled.2.1 hfilled.1
    simp [leaves, hinner]

theorem Entries.keys_ne_nil_of_mem_leaves {entries : Entries} (sorted : entries.Sorted)
    {leaf : List String × String} (h : leaf ∈ entries.leaves) : leaf.1 ≠ [] := by
  obtain ⟨keys, text⟩ := leaf
  rintro rfl
  cases (mem_leaves_iff sorted).1 h

namespace Store

/-! ### Assigning leaves -/

/-- Puts a leaf at the end of the keys that lead to it. -/
def assignLeaf (store : Store) : List String × String → Store
  | ([], _) => store
  | (key :: rest, text) => store.assignAt key (.leaf text) rest

theorem assignLeaf_below {keys : List String} (h : keys ≠ []) (store : Store)
    (key text : String) : store.assignLeaf (key :: keys, text) =
      store.insert key (.nested ((store.nestedOrEmpty key).assignLeaf (keys, text))) := by
  cases keys with
  | nil => exact absurd rfl h
  | cons next rest => rfl

/-- Leaves below a key grow the store under the key. -/
theorem foldl_assignLeaf_insert {leaves : List (List String × String)}
    (hkeys : ∀ leaf ∈ leaves, leaf.1 ≠ []) (store inner : Store) (key : String) :
    leaves.foldl (fun store leaf ↦ store.assignLeaf (key :: leaf.1, leaf.2))
        (store.insert key (.nested inner)) =
      store.insert key (.nested (leaves.foldl assignLeaf inner)) := by
  induction leaves generalizing inner with
  | nil => rfl
  | cons leaf leaves ih =>
    obtain ⟨hleaf, hrest⟩ := List.forall_mem_cons.1 hkeys
    rw [List.foldl_cons, assignLeaf_below hleaf, nestedOrEmpty_insert_self, insert_insert_self,
      ih hrest, List.foldl_cons]

/-- Some leaves below a key are one insertion: what lies under the key, if it is a store, grows by
the leaves, and anything else is replaced by the store that grows from them. -/
theorem foldl_assignLeaf_below {leaves : List (List String × String)} (hne : leaves ≠ [])
    (hkeys : ∀ leaf ∈ leaves, leaf.1 ≠ []) (store : Store) (key : String) :
    leaves.foldl (fun store leaf ↦ store.assignLeaf (key :: leaf.1, leaf.2)) store =
      store.insert key (.nested (leaves.foldl assignLeaf (store.nestedOrEmpty key))) := by
  cases leaves with
  | nil => exact absurd rfl hne
  | cons leaf leaves =>
    obtain ⟨hleaf, hrest⟩ := List.forall_mem_cons.1 hkeys
    rw [List.foldl_cons, assignLeaf_below hleaf, foldl_assignLeaf_insert hrest, List.foldl_cons]

/-- A nested store is merged into the store under its key, which is empty if there is none. -/
theorem mergeInto_nested_insert {key : String} {inner rest : Entries}
    (sorted : (Entries.nested key inner rest).Sorted) (store : Store) :
    (Entries.nested key inner rest).mergeInto sorted store =
      rest.mergeInto sorted.2.2 (store.insert key
        (.nested (inner.mergeInto sorted.2.1 (store.nestedOrEmpty key)))) := by
  have hempty : inner.mergeInto sorted.2.1 empty = ⟨inner, sorted.2.1⟩ := empty_merge ⟨inner, _⟩
  rw [mergeInto_nested, nestedOrEmpty]
  cases store.get? key with
  | none => rw [Option.bind_none, Option.getD_none, hempty]
  | some value =>
    cases value with
    | leaf text => rw [Option.bind_some, Value.store?, Option.getD_none, hempty]
    | nested earlier => rfl

end Store

/-- Assigning the leaves of a store without empty stores in it is merging the store. -/
theorem Entries.foldl_assignLeaf_leaves {entries : Entries} (sorted : entries.Sorted)
    (hfilled : entries.Filled) (earlier : Store) :
    entries.leaves.foldl Store.assignLeaf earlier = entries.mergeInto sorted earlier := by
  induction entries generalizing earlier with
  | empty => rfl
  | leaf key text rest ih =>
    rw [leaves, List.foldl_cons, ih sorted.2 hfilled, Store.mergeInto_leaf]
    rfl
  | nested key inner rest ihinner ih =>
    -- the leaves of the nested store come in a row, and together they are the insertion of a merge
    have hinner := Store.foldl_assignLeaf_below (leaves_ne_nil hfilled.2.1 hfilled.1)
      (fun leaf ↦ keys_ne_nil_of_mem_leaves sorted.2.1) earlier key
    rw [leaves, List.foldl_append, List.foldl_map, hinner, ihinner sorted.2.1 hfilled.2.1,
      ih sorted.2.2 hfilled.2.2, Store.mergeInto_nested_insert]

namespace Store

/-! ### The keys of a grown store -/

section Keys

variable {p : String → Prop} {store : Store}

theorem allKeys_nestedOrEmpty (h : (Value.nested store).AllKeys p) (key : String) :
    (Value.nested (store.nestedOrEmpty key)).AllKeys p := by
  rw [nestedOrEmpty]
  cases hheld : store.get? key with
  | none => exact trivial
  | some held =>
    cases held with
    | leaf text => exact trivial
    | nested inner => exact (Entries.AllKeys.of_get? h hheld).2

theorem allKeys_assignAt (h : (Value.nested store).AllKeys p) {key : String} {rest : List String}
    (hkeys : ∀ next ∈ key :: rest, p next) (text : String) :
    (Value.nested (store.assignAt key (.leaf text) rest)).AllKeys p := by
  induction rest generalizing store key with
  | nil => exact Entries.AllKeys.put h (hkeys key List.mem_cons_self) trivial
  | cons next rest ih =>
    obtain ⟨hkey, hrest⟩ := List.forall_mem_cons.1 hkeys
    exact Entries.AllKeys.put h hkey (ih (allKeys_nestedOrEmpty h key) hrest)

/-- An assignment brings in the segments of its path, and no other keys. -/
theorem allKeys_assign (h : (Value.nested store).AllKeys p) {path : String}
    (hkeys : ∀ key ∈ segmentKeys path, p key) (text : String) :
    (Value.nested (store.assign path (.leaf text))).AllKeys p :=
  allKeys_assignAt h hkeys text

end Keys

/-! ### Assigning a listing -/

/-- What a listing can tell of a store: at every depth the keys are the segments of a path, and
every nested store holds something. -/
structure Listable (store : Store) : Prop where
  /-- No key is empty or contains the separator of paths. -/
  keys : (Value.nested store).AllKeys fun key ↦ key ≠ "" ∧ pathSeparator ∉ key.toList
  /-- No nested store is empty. -/
  filled : store.entries.Filled

namespace Listable

variable {store : Store} {keys : List String} {text : String}

theorem separatorFree (h : store.Listable) : store.SeparatorFree :=
  Entries.AllKeys.imp (fun _ hkey ↦ hkey.2) h.keys

/-- A leaf is listed with the path whose segments are its keys. -/
theorem segmentKeys_listedPath (h : store.Listable) (hleaf : store.Leads keys (.leaf text)) :
    segmentKeys (listedPath keys) = keys := by
  rw [Store.segmentKeys_listedPath h.separatorFree hleaf]
  refine shownKeys_of_leads (fun key rest other hother ↦ ?_) hleaf
  exact (Value.AllKeys.of_at? h.keys hother "" List.mem_cons_self).1 rfl

theorem assign_listedPath (h : store.Listable) (hleaf : store.Leads keys (.leaf text))
    (earlier : Store) : earlier.assign (listedPath keys) (.leaf text) =
      earlier.assignLeaf (keys, text) := by
  have hsegments := h.segmentKeys_listedPath hleaf
  cases keys with
  | nil => cases hleaf
  | cons key rest =>
    obtain ⟨hfirst, hrest⟩ := List.cons.inj hsegments
    rw [assign, hfirst, hrest, assignLeaf]

end Listable

variable {store : Store}

/-- Assigning what a store is listed as is merging the store. -/
theorem foldl_assign_flatten (h : store.Listable) (earlier : Store) :
    store.flatten.foldl (fun store entry ↦ store.assign entry.1 (.leaf entry.2)) earlier =
      earlier.merge store := by
  rw [flatten_eq_map, List.foldl_map]
  refine Eq.trans ?_ (Entries.foldl_assignLeaf_leaves store.sorted h.filled earlier)
  exact List.foldl_ext _ _ _ fun grown leaf hleaf ↦ h.assign_listedPath (mem_leaves.1 hleaf) grown

/-- The listed paths are apart from one another. -/
theorem pairwise_apart_flatten (h : store.Listable) :
    store.flatten.Pairwise fun entry other ↦ Apart entry.1 other.1 := by
  have hequal {keys others : List String} {text other : String}
      (hleaf : store.Leads keys (.leaf text)) (hother : store.Leads others (.leaf other))
      (hbegins : Begins (listedPath keys) (listedPath others)) :
      (keys, text) = (others, other) := by
    rw [begins_iff, h.segmentKeys_listedPath hleaf, h.segmentKeys_listedPath hother] at hbegins
    obtain rfl := eq_of_prefix_of_leaf hbegins hleaf hother
    rw [Value.leaf.inj (Option.some.inj (hleaf.symm.trans hother))]
  have hnodup : store.leaves.Nodup := .of_map _ (Entries.nodup_leaves store.sorted)
  rw [flatten_eq_map, List.pairwise_map]
  refine hnodup.pairwise_of_forall_ne fun leaf hleaf other hother hne ↦
    ⟨fun hbegins ↦ ?_, fun hbegins ↦ ?_⟩
  · exact hne (hequal (mem_leaves.1 hleaf) (mem_leaves.1 hother) hbegins)
  · exact hne (hequal (mem_leaves.1 hother) (mem_leaves.1 hleaf) hbegins).symm

end Store

end BuildPlan
