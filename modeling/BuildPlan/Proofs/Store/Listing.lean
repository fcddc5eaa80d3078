import Mathlib.Data.List.Nodup
import BuildPlan.Proofs.Store.Lookup
import BuildPlan.Store.Flatten

/-!
# The listing of a store

The listing has one entry for each leaf of the store (`Store.flatten_eq_map`). The path of an entry
is that of the keys that lead to the leaf, but for the empty keys in front, which leave no trace
while another key follows them (`Store.shownKeys`). A path is made up of its keys again by cutting
it at the separators, so in a store without separators in its keys the lookup of a listed path
walks along the shown keys (`Store.lookup_listedPath`).

So a leaf is found under the path that it is listed with exactly if all of its keys are shown. The
leaves behind an empty key are listed with the path of another place: either another leaf is listed
with it too, or the lookup finds no text there (`Store.listing_faithful_iff`).
-/

set_option autoImplicit false
set_option relaxedAutoImplicit false

namespace BuildPlan

/-! ### Leaves -/

/-- The leaves among some entries, each with the keys that lead to it. -/
def Entries.leaves : Entries → List (List String × String)
  | .empty => []
  | .leaf key text rest => ([key], text) :: rest.leaves
  | .nested key inner rest => inner.leaves.map (fun leaf ↦ (key :: leaf.1, leaf.2)) ++ rest.leaves

/-- The leaves of a value, each with the keys that lead to it. -/
def Value.leaves : Value → List (List String × String)
  | .leaf text => [([], text)]
  | .nested store => store.entries.leaves

namespace Entries

theorem leaves_entry (key : String) (value : Value) (rest : Entries) :
    (value.entry key rest).leaves =
      value.leaves.map (fun leaf ↦ (key :: leaf.1, leaf.2)) ++ rest.leaves := by
  cases value <;> rfl

theorem at?_entry {key next : String} {value : Value} {rest : Entries} {keys : List String}
    (hrest : rest.Sorted) (sorted : (value.entry key rest).Sorted) :
    (Store.mk (value.entry key rest) sorted).at? (next :: keys) =
      if key = next then value.at? keys else (Store.mk rest hrest).at? (next :: keys) := by
  rw [Store.at?_cons, Store.at?_cons, Store.get?, get?_entry hrest]
  split <;> rfl

/-- The leaves are the texts that keys lead to. -/
theorem mem_leaves_iff {entries : Entries} (sorted : entries.Sorted) {keys : List String}
    {text : String} : (keys, text) ∈ entries.leaves ↔
      (Store.mk entries sorted).at? keys = some (.leaf text) := by
  induction sorted using Sorted.induction generalizing keys text with
  | empty => cases keys <;> simp [leaves, Store.at?, Value.at?, Store.get?, get?]
  | entry key value rest hrest habove ihvalue ih =>
    have hvalue (keys : List String) :
        (keys, text) ∈ value.leaves ↔ value.at? keys = some (.leaf text) := by
      cases value with
      | leaf other => cases keys <;> simp [Value.leaves, Value.at?, eq_comm]
      | nested inner => exact ihvalue inner rfl
    cases keys with
    | nil =>
      have hnone : ([], text) ∉ rest.leaves := fun h ↦ by cases ih.1 h
      simp [leaves_entry, hnone, Store.at?, Value.at?]
    | cons next keys =>
      rw [leaves_entry, List.mem_append, ih, at?_entry hrest]
      by_cases hkey : key = next
      · subst hkey
        have hnone : (Store.mk rest hrest).at? (key :: keys) = none := by
          rw [Store.at?_cons, Store.get?, get?_eq_none_of_above hrest habove, Option.bind_none]
        simp [hnone, ← hvalue keys]
      · simp [hkey]

/-- No leaf is listed twice. -/
theorem nodup_leaves {entries : Entries} (sorted : entries.Sorted) :
    (entries.leaves.map Prod.fst).Nodup := by
  induction sorted using Sorted.induction with
  | empty => exact .nil
  | entry key value rest hrest habove ihvalue ih =>
    have hvalue : (value.leaves.map Prod.fst).Nodup := by
      cases value with
      | leaf text => exact List.nodup_singleton _
      | nested inner => exact ihvalue inner rfl
    have hkeys : (value.leaves.map fun leaf ↦ (key :: leaf.1, leaf.2)).map Prod.fst =
        (value.leaves.map Prod.fst).map (key :: ·) := by
      simp [Function.comp_def]
    rw [leaves_entry, List.map_append, hkeys]
    refine (hvalue.map (List.cons_injective)).append ih fun keys hfirst hsecond ↦ ?_
    -- a leaf of the rest lies behind another key
    obtain ⟨back, -, rfl⟩ := List.mem_map.1 hfirst
    obtain ⟨⟨_, text⟩, hleaf, rfl⟩ := List.mem_map.1 hsecond
    have hfound := (mem_leaves_iff hrest).1 hleaf
    rw [Store.at?_cons, Store.get?, get?_eq_none_of_above hrest habove] at hfound
    cases hfound

/-- The listing below a path extends the path by the keys of each leaf. -/
theorem leavesBelow_eq_map (path : String) (entries : Entries) : entries.leavesBelow path =
    entries.leaves.map fun leaf ↦ (leaf.1.foldl Store.joinPath path, leaf.2) := by
  induction entries generalizing path with
  | empty => rfl
  | leaf key text rest ih => rw [leavesBelow, leaves, ih]; rfl
  | nested key inner rest ihinner ih =>
    rw [leavesBelow, leaves, ihinner, ih, List.map_append, List.map_map]
    rfl

end Entries

namespace Store

/-! ### Paths of keys -/

/-- Some keys with separators between them. -/
def dotted (keys : List String) : String :=
  String.intercalate (.singleton pathSeparator) keys

/-- The keys that a listed path shows: an empty key in front is left out if another one follows. -/
def shownKeys : List String → List String
  | [] => []
  | [key] => [key]
  | key :: next :: keys => if key = "" then shownKeys (next :: keys) else key :: next :: keys

theorem toList_dotted (keys : List String) :
    (dotted keys).toList = [pathSeparator].intercalate (keys.map String.toList) := by
  rw [dotted, String.toList_intercalate, String.toList_singleton]

theorem dotted_singleton (key : String) : dotted [key] = key := by
  rw [← String.toList_inj, toList_dotted]
  simp [List.intercalate]

theorem dotted_cons_cons (key next : String) (keys : List String) :
    dotted (key :: next :: keys) = key ++ .singleton pathSeparator ++ dotted (next :: keys) := by
  rw [← String.toList_inj, toList_dotted]
  simp [toList_dotted]

/-- Keys behind a path that is not empty are separated from it. -/
theorem foldl_joinPath {path : String} (h : path ≠ "") (keys : List String) :
    keys.foldl joinPath path = dotted (path :: keys) := by
  induction keys generalizing path with
  | nil => exact (dotted_singleton path).symm
  | cons key keys ih =>
    have hjoin : path ++ .singleton pathSeparator ++ key ≠ "" := by
      rw [Ne, ← String.toList_inj]
      simp
    rw [List.foldl_cons, joinPath, if_neg h, ih hjoin]
    cases keys with
    | nil => rw [dotted_singleton, dotted_cons_cons, dotted_singleton]
    | cons next keys => simp only [dotted_cons_cons, String.append_assoc]

/-- A listed path shows its keys, but for the empty ones in front. -/
theorem foldl_joinPath_empty (keys : List String) :
    keys.foldl joinPath "" = dotted (shownKeys keys) := by
  induction keys using shownKeys.induct with
  | case1 => rfl
  | case2 key => exact (dotted_singleton key).symm
  | case3 next keys ih => rw [shownKeys, if_pos rfl, ← ih]; rfl
  | case4 key next keys hkey =>
    rw [shownKeys, if_neg hkey, ← foldl_joinPath hkey]
    rfl

theorem shownKeys_suffix (keys : List String) : shownKeys keys <:+ keys := by
  induction keys using shownKeys.induct with
  | case1 => exact List.suffix_rfl
  | case2 key => exact List.suffix_rfl
  | case3 next keys ih =>
    rw [shownKeys, if_pos rfl]
    exact ih.trans (List.suffix_cons _ _)
  | case4 key next keys hkey => rw [shownKeys, if_neg hkey]

theorem shownKeys_ne_nil {keys : List String} (h : keys ≠ []) : shownKeys keys ≠ [] := by
  induction keys using shownKeys.induct with
  | case1 => exact h
  | case2 key => exact h
  | case3 next keys ih =>
    rw [shownKeys, if_pos rfl]
    exact ih (List.cons_ne_nil _ _)
  | case4 key next keys hkey =>
    rw [shownKeys, if_neg hkey]
    exact h

/-- All of the shown keys are shown. -/
theorem shownKeys_shownKeys (keys : List String) : shownKeys (shownKeys keys) = shownKeys keys := by
  induction keys using shownKeys.induct with
  | case1 => rfl
  | case2 key => rfl
  | case3 next keys ih => rw [shownKeys, if_pos rfl, ih]
  | case4 key next keys hkey => rw [shownKeys, if_neg hkey, shownKeys, if_neg hkey]

/-- Keys are left out exactly if an empty key stands in front of another one. -/
theorem shownKeys_ne_self_iff {keys : List String} :
    shownKeys keys ≠ keys ↔ ∃ next rest, keys = "" :: next :: rest := by
  constructor
  · intro h
    match keys with
    | [] => exact absurd rfl h
    | [key] => exact absurd rfl h
    | key :: next :: rest =>
      rw [shownKeys] at h
      split at h
      next hkey => exact ⟨next, rest, hkey ▸ rfl⟩
      next => exact absurd rfl h
  · rintro ⟨next, rest, rfl⟩ hself
    have hlength := (shownKeys_suffix (next :: rest)).length_le
    rw [shownKeys, if_pos rfl] at hself
    rw [hself, List.length_cons (a := "")] at hlength
    omega

/-- Keys without separators are the segments of their path. -/
theorem segmentKeys_dotted {keys : List String} (hkeys : keys ≠ [])
    (hfree : ∀ key ∈ keys, pathSeparator ∉ key.toList) : segmentKeys (dotted keys) = keys := by
  have hsplits : Splits (dotted keys).toList keys :=
    splits_iff_intercalate.2 ⟨hkeys, toList_dotted keys⟩
  exact (hsplits.eq_segmentKeys hfree).symm

/-! ### The listing -/

/-- The path that the leaf under some keys is listed with. -/
def listedPath (keys : List String) : String :=
  dotted (shownKeys keys)

/-- The leaves of a store, each with the keys that lead to it. -/
def leaves (store : Store) : List (List String × String) :=
  store.entries.leaves

/-- The listing has one entry for each leaf. -/
theorem flatten_eq_map (store : Store) :
    store.flatten = store.leaves.map fun leaf ↦ (listedPath leaf.1, leaf.2) := by
  rw [flatten, Entries.leavesBelow_eq_map]
  simp only [foldl_joinPath_empty]
  rfl

theorem mem_leaves {store : Store} {keys : List String} {text : String} :
    (keys, text) ∈ store.leaves ↔ store.Leads keys (.leaf text) :=
  Entries.mem_leaves_iff store.sorted

variable {store : Store} {keys : List String} {text : String}

/-- The segments of a listed path are the shown keys. -/
theorem segmentKeys_listedPath (h : store.SeparatorFree) (hleaf : store.Leads keys (.leaf text)) :
    segmentKeys (listedPath keys) = shownKeys keys := by
  have hkeys : keys ≠ [] := by
    rintro rfl
    cases hleaf
  have hfree : ∀ key ∈ keys, pathSeparator ∉ key.toList := h.of_at? hleaf
  rw [listedPath, segmentKeys_dotted (shownKeys_ne_nil hkeys)]
  exact fun key hkey ↦ hfree key ((shownKeys_suffix keys).subset hkey)

/-- The lookup of a listed path walks along the shown keys. -/
theorem lookup_listedPath (h : store.SeparatorFree) (hleaf : store.Leads keys (.leaf text)) :
    store.lookup (listedPath keys) = store.at? (shownKeys keys) := by
  rw [lookup_of_separatorFree h, segmentKeys_listedPath h hleaf]

theorem paths_flatten (store : Store) :
    store.flatten.map Prod.fst = (store.leaves.map Prod.fst).map listedPath := by
  rw [flatten_eq_map, List.map_map, List.map_map]
  rfl

/-- In a listing that is right no leaf lies behind an empty key at the top: the lookup of its path
would find another leaf, which is listed with the same path. -/
theorem not_leads_behind (h : store.SeparatorFree) (hdistinct : (store.flatten.map Prod.fst).Nodup)
    (hlookup : ∀ entry ∈ store.flatten, store.lookupText entry.1 = some entry.2) (key : String) :
    ¬ store.Leads ("" :: key :: keys) (.leaf text) := by
  intro hleaf
  have hmem := mem_leaves.2 hleaf
  have hentry : (listedPath ("" :: key :: keys), text) ∈ store.flatten := by
    rw [flatten_eq_map]
    exact List.mem_map_of_mem hmem
  have hfound := lookupText_eq_some_iff.1 (hlookup _ hentry)
  rw [lookup_listedPath h hleaf] at hfound
  have hsame : listedPath (shownKeys ("" :: key :: keys)) = listedPath ("" :: key :: keys) := by
    rw [listedPath, shownKeys_shownKeys, listedPath]
  rw [paths_flatten] at hdistinct
  have heq := List.inj_on_of_nodup_map hdistinct
    (List.mem_map_of_mem (f := Prod.fst) (mem_leaves.2 hfound))
    (List.mem_map_of_mem (f := Prod.fst) hmem) hsame
  exact shownKeys_ne_self_iff.2 ⟨key, keys, rfl⟩ heq

section NothingBehind

variable (hbehind : ∀ key keys text, ¬ store.Leads ("" :: key :: keys) (.leaf text))
include hbehind

/-- All keys of a leaf are shown. -/
theorem shownKeys_of_leads (hleaf : store.Leads keys (.leaf text)) : shownKeys keys = keys := by
  by_contra hne
  obtain ⟨key, rest, rfl⟩ := shownKeys_ne_self_iff.1 hne
  exact hbehind key rest text hleaf

/-- The leaves are listed with distinct paths. -/
theorem nodup_paths_flatten (h : store.SeparatorFree) : (store.flatten.map Prod.fst).Nodup := by
  rw [paths_flatten]
  refine List.Nodup.map_on ?_ (Entries.nodup_leaves store.sorted)
  intro keys hkeys others hothers heq
  obtain ⟨⟨_, text⟩, hleaf, rfl⟩ := List.mem_map.1 hkeys
  obtain ⟨⟨_, other⟩, hother, rfl⟩ := List.mem_map.1 hothers
  have hleaf := mem_leaves.1 hleaf
  have hother := mem_leaves.1 hother
  rw [← shownKeys_of_leads hbehind hleaf, ← shownKeys_of_leads hbehind hother,
    ← segmentKeys_listedPath h hleaf, ← segmentKeys_listedPath h hother, heq]

/-- A listed path leads to its text. -/
theorem lookupText_of_mem_flatten (h : store.SeparatorFree) {entry : String × String}
    (hentry : entry ∈ store.flatten) : store.lookupText entry.1 = some entry.2 := by
  rw [flatten_eq_map] at hentry
  obtain ⟨⟨keys, text⟩, hleaf, rfl⟩ := List.mem_map.1 hentry
  have hleads := mem_leaves.1 hleaf
  rw [lookupText_eq_some_iff, lookup_listedPath h hleads, shownKeys_of_leads hbehind hleads]
  exact hleads

end NothingBehind

/-- The listing of a store without separators in its keys is right, with distinct paths that lead
to the listed texts, exactly if no leaf lies behind an empty key at the top. -/
theorem listing_faithful_iff (h : store.SeparatorFree) :
    ((store.flatten.map Prod.fst).Nodup ∧
      ∀ entry ∈ store.flatten, store.lookupText entry.1 = some entry.2) ↔
      ∀ key keys text, ¬ store.Leads ("" :: key :: keys) (.leaf text) := by
  constructor
  · rintro ⟨hdistinct, hlookup⟩ key keys text
    exact not_leads_behind h hdistinct hlookup key
  · intro hbehind
    exact ⟨nodup_paths_flatten hbehind h, fun entry ↦ lookupText_of_mem_flatten hbehind h⟩

end Store

end BuildPlan
