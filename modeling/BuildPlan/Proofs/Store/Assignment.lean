import BuildPlan.Proofs.Store.Lookup

/-!
# Several assignments

What an assignment does depends only on the segments of its path. Two paths are apart if the
segments of neither begin those of the other (`Store.Apart`). Assignments at paths that are apart
may be exchanged (`Store.assign_comm`), whatever nested stores they make and whatever texts they
replace on the ways that they share. An assignment at the beginning of an earlier path, or at the
same path, leaves nothing of the earlier one (`Store.assign_assign_of_begins`).

A lookup that is apart from an assignment does not notice it (`Store.lookup_assign_of_apart`). That
holds for stores with separators in their keys too: a splitting of the path that is looked up may
cut it elsewhere, but it leads into what was assigned only if it runs along all segments of the
assigned path or ends among them, and then one of the paths begins the other.
-/

set_option autoImplicit false
set_option relaxedAutoImplicit false

namespace BuildPlan.Store

/-! ### Insertions -/

theorem insert_insert_self (store : Store) (key : String) (value held : Value) :
    (store.insert key held).insert key value = store.insert key value := by
  refine ext_get? fun other ↦ ?_
  rw [get?_insert, get?_insert, get?_insert]
  by_cases hkey : key = other
  · rw [if_pos hkey, if_pos hkey]
  · rw [if_neg hkey, if_neg hkey, if_neg hkey]

theorem insert_comm {key other : String} (h : key ≠ other) (store : Store) (value held : Value) :
    (store.insert key value).insert other held = (store.insert other held).insert key value := by
  refine ext_get? fun next ↦ ?_
  rw [get?_insert, get?_insert, get?_insert, get?_insert]
  by_cases hkey : key = next
  · rw [if_pos hkey, if_pos hkey, if_neg fun hother ↦ h (hkey.trans hother.symm)]
  · rw [if_neg hkey, if_neg hkey]

theorem nestedOrEmpty_insert_self (store inner : Store) (key : String) :
    (store.insert key (.nested inner)).nestedOrEmpty key = inner := by
  rw [nestedOrEmpty, get?_insert, if_pos rfl]
  rfl

theorem nestedOrEmpty_insert_of_ne {key other : String} (h : key ≠ other) (store : Store)
    (value : Value) : (store.insert key value).nestedOrEmpty other = store.nestedOrEmpty other := by
  rw [nestedOrEmpty, get?_insert, if_neg h, nestedOrEmpty]

/-! ### Assignments along keys -/

/-- What an assignment leaves under its first key, from the store under the key. -/
def assigned (inner : Store) (value : Value) : List String → Value
  | [] => value
  | next :: rest => .nested (inner.assignAt next value rest)

theorem assignAt_eq_insert (store : Store) (key : String) (value : Value) (rest : List String) :
    store.assignAt key value rest =
      store.insert key (assigned (store.nestedOrEmpty key) value rest) := by
  cases rest <;> rfl

variable {store : Store} {key other : String} {value held : Value} {rest others : List String}

/-- Assignments along keys that do not begin one another may be exchanged. -/
theorem assignAt_comm (hbefore : ¬ key :: rest <+: other :: others)
    (hafter : ¬ other :: others <+: key :: rest) :
    (store.assignAt key value rest).assignAt other held others =
      (store.assignAt other held others).assignAt key value rest := by
  induction rest generalizing store key other others with
  | nil =>
    have hkey : key ≠ other := fun h ↦ hbefore (h ▸ List.prefix_append [key] others)
    simp only [assignAt_eq_insert, nestedOrEmpty_insert_of_ne hkey,
      nestedOrEmpty_insert_of_ne hkey.symm]
    exact insert_comm hkey ..
  | cons next rest ih =>
    by_cases hkey : key = other
    · -- both assignments go on in the store under the key
      subst hkey
      rw [List.prefix_cons_inj] at hbefore hafter
      cases others with
      | nil => exact absurd List.nil_prefix hafter
      | cons second others =>
        simp only [assignAt, nestedOrEmpty_insert_self, insert_insert_self, ih hbefore hafter]
    · simp only [assignAt_eq_insert, nestedOrEmpty_insert_of_ne hkey,
        nestedOrEmpty_insert_of_ne (Ne.symm hkey)]
      exact insert_comm hkey ..

/-- An assignment leaves nothing of an earlier one along the same keys or beyond them. -/
theorem assignAt_assignAt_of_begins (h : key :: rest <+: other :: others) :
    (store.assignAt other held others).assignAt key value rest =
      store.assignAt key value rest := by
  induction rest generalizing store key other others with
  | nil =>
    obtain ⟨rfl, -⟩ := List.cons_prefix_cons.1 h
    rw [assignAt_eq_insert store, assignAt, insert_insert_self, assignAt]
  | cons next rest ih =>
    obtain ⟨rfl, hrest⟩ := List.cons_prefix_cons.1 h
    cases others with
    | nil => cases List.prefix_nil.1 hrest
    | cons second others =>
      simp only [assignAt, nestedOrEmpty_insert_self, insert_insert_self, ih hrest]

/-! ### Assignments at paths -/

/-- The segments of a path are the first ones of another path, or all of them. -/
def Begins (path other : String) : Prop :=
  path.toList.splitOn pathSeparator <+: other.toList.splitOn pathSeparator

instance (path other : String) : Decidable (Begins path other) :=
  inferInstanceAs (Decidable (_ <+: _))

/-- Neither of two paths begins the other. -/
def Apart (path other : String) : Prop :=
  ¬ Begins path other ∧ ¬ Begins other path

instance (path other : String) : Decidable (Apart path other) :=
  inferInstanceAs (Decidable (_ ∧ _))

variable {path next : String}

theorem begins_iff : Begins path next ↔ segmentKeys path <+: segmentKeys next := by
  rw [segmentKeys_eq_splitOn, segmentKeys_eq_splitOn]
  exact (List.prefix_map_iff_of_injective fun _ _ ↦ String.ofList_injective).symm

theorem begins_self (path : String) : Begins path path :=
  List.prefix_rfl

theorem Apart.symm (h : Apart path next) : Apart next path :=
  ⟨h.2, h.1⟩

/-- Assignments at paths that are apart may be exchanged. -/
theorem assign_comm (h : Apart path next) (store : Store) (value held : Value) :
    (store.assign path value).assign next held = (store.assign next held).assign path value := by
  rw [Apart, begins_iff, begins_iff] at h
  exact assignAt_comm h.1 h.2

/-- An assignment leaves nothing of an earlier one at the same path or behind it. -/
theorem assign_assign_of_begins (h : Begins path next) (store : Store) (value held : Value) :
    (store.assign next held).assign path value = store.assign path value :=
  assignAt_assignAt_of_begins (begins_iff.1 h)

/-! ### Lookups next to an assignment -/

/-- The segments of a path behind a first segment are those of the rest. -/
theorem segmentKeys_of_cut {key : String} {back : List Char}
    (hpath : path.toList = key.toList ++ pathSeparator :: back)
    (hfree : pathSeparator ∉ key.toList) :
    segmentKeys path = key :: segmentKeys (.ofList back) := by
  have hback := splits_segmentKeys (.ofList back)
  rw [String.toList_ofList] at hback
  have hsplits : Splits path.toList (key :: segmentKeys (.ofList back)) := hpath ▸ .cut key hback
  refine (hsplits.eq_segmentKeys (List.forall_mem_cons.2 ⟨hfree, ?_⟩)).symm
  exact separator_not_mem_segmentKeys _

/-- Keys without separators that begin a splitting of a path are its first segments. -/
theorem Splits.isPrefix_segmentKeys {front keys : List String} (h : Splits path.toList keys)
    (hfront : front <+: keys) (hfree : ∀ key ∈ front, pathSeparator ∉ key.toList) :
    front <+: segmentKeys path := by
  induction front generalizing path keys with
  | nil => exact List.nil_prefix
  | cons key front ih =>
    obtain ⟨more, rfl⟩ := hfront
    obtain ⟨hkey, hrest⟩ := List.forall_mem_cons.1 hfree
    rcases splits_cons_iff.1 h with ⟨hnil, hpath⟩ | ⟨back, hpath, hback⟩
    · obtain ⟨rfl, -⟩ := List.append_eq_nil_iff.1 hnil
      have hwhole : Splits path.toList [key] := hpath ▸ .whole key
      rw [hwhole.eq_segmentKeys hfree]
    · rw [segmentKeys_of_cut hpath hkey, List.prefix_cons_inj]
      refine ih ?_ (List.prefix_append front more) hrest
      rwa [String.toList_ofList]

/-- A lookup does not notice an assignment at a path that is apart from the one looked up. -/
theorem lookup_assign_of_apart (h : Apart path next) (store : Store) (value : Value) :
    (store.assign path value).lookup next = store.lookup next := by
  rw [Apart, begins_iff, begins_iff] at h
  rw [lookup, lookup, find?_eq_findSome?_splittings, find?_eq_findSome?_splittings,
    ← List.head?_filterMap, ← List.head?_filterMap]
  refine congrArg List.head? (List.filterMap_congr fun keys hkeys ↦ ?_)
  have hsplits := mem_splittings.1 hkeys
  refine at?_assignAt_of_apart (fun hbefore ↦ ?_) fun hafter ↦ ?_
  · -- the keys would be segments themselves
    have hfree : ∀ key ∈ keys, pathSeparator ∉ key.toList := fun key hkey ↦
      separator_not_mem_segmentKeys path key (hbefore.subset hkey)
    exact h.2 (hsplits.eq_segmentKeys hfree ▸ hbefore)
  · exact h.1 (hsplits.isPrefix_segmentKeys hafter (separator_not_mem_segmentKeys path))

/-- The text under the literal key `a.b` is looked up as before when another one is assigned at the
path `a.c`, which makes a nested store under the key `a`. -/
theorem literal_key_looked_up :
    Apart "a.c" "a.b" ∧
      ((literalKey "old").assign "a.c" (.leaf "new")).lookup "a.b" = some (.leaf "old") := by
  have hapart : Apart "a.c" "a.b" := by decide
  refine ⟨hapart, (lookup_assign_of_apart hapart (literalKey "old") (.leaf "new")).trans ?_⟩
  decide +kernel

end BuildPlan.Store
