import BuildPlan.Proofs.Store.Keys
import BuildPlan.Store.OfJson

/-!
# Snapshots of a store

A store is written as a JSON object and loaded again without loss (`Store.ofJson_toJson`). What a
merge gives already holds everything that the later store says, and agrees with the earlier store
everywhere else. So merging is not changed by repetition: a store merged into itself stays as it is
(`Store.merge_self`), the same layer merged twice counts once (`Store.merge_merge_self`), and a
merged store absorbs what it was made from (`Store.merge_absorb`). Together this makes a dump of a
merged store a stable snapshot (`Store.snapshot_stable`): loaded on top of the same values it gives
the merged store back.
-/

set_option autoImplicit false
set_option relaxedAutoImplicit false

namespace BuildPlan

namespace Store

/-! ### Merging again -/

/-- Merging a store into itself changes nothing. -/
theorem merge_self (store : Store) : store.merge store = store := by
  induction store using nested_induction with
  | step store ih =>
    refine ext_get? fun key ↦ ?_
    rw [get?_merge]
    cases hkey : store.get? key with
    | none => rfl
    | some value =>
      cases value with
      | leaf text => rfl
      | nested inner => rw [Value.overlay, ih key inner hkey]

/-- Merging the same later store twice is merging it once. -/
theorem merge_merge_self (earlier later : Store) :
    (earlier.merge later).merge later = earlier.merge later := by
  induction later using nested_induction generalizing earlier with
  | step later ih =>
    refine ext_get? fun key ↦ ?_
    rw [get?_merge, get?_merge]
    cases hlater : later.get? key with
    | none => rfl
    | some value =>
      cases value with
      | leaf text => rfl
      | nested inner =>
        -- where the first merge put the store itself, the second one merges it into itself
        have hself : some (Value.nested (inner.merge inner)) = some (.nested inner) := by
          rw [merge_self]
        cases earlier.get? key with
        | none => exact hself
        | some held =>
          cases held with
          | leaf text => exact hself
          | nested old => rw [Value.overlay, Value.overlay, ih key inner hlater]

/-- Merging a merged store into the earlier store that it was made from gives it again. -/
theorem merge_absorb (earlier later : Store) :
    earlier.merge (earlier.merge later) = earlier.merge later := by
  induction later using nested_induction generalizing earlier with
  | step later ih =>
    refine ext_get? fun key ↦ ?_
    rw [get?_merge, get?_merge]
    cases hlater : later.get? key with
    | none =>
      -- the earlier store is merged into itself here
      rw [Value.overlay, ← get?_merge, merge_self]
    | some value =>
      cases value with
      | leaf text => rfl
      | nested inner =>
        cases earlier.get? key with
        | none => rfl
        | some held =>
          cases held with
          | leaf text => rfl
          | nested old => rw [Value.overlay, Value.overlay, ih key inner hlater]

/-! ### Loading what was written -/

/-- Loading the members that entries are written as puts the entries into the store. -/
theorem get?_memberStore_toMembers {entries : Entries} (sorted : entries.Sorted) (store : Store)
    (key : String) : (Json.memberStore store entries.toMembers).get? key =
      (entries.get? key sorted).or (store.get? key) := by
  induction entries generalizing store key with
  | empty => rfl
  | leaf other text rest ih =>
    rw [Entries.toMembers, Json.memberStore, ih sorted.2, Entries.get?, Json.value?, update,
      get?_insert]
    by_cases hkey : other = key
    · subst hkey
      rw [Entries.get?_eq_none_of_above sorted.2 sorted.1, if_pos rfl, if_pos rfl]
      rfl
    · rw [if_neg hkey, if_neg hkey]
  | nested other inner rest ihinner ih =>
    have hinner : Json.memberStore empty inner.toMembers = ⟨inner, sorted.2.1⟩ :=
      ext_get? fun next ↦ (ihinner sorted.2.1 empty next).trans Option.or_none
    rw [Entries.toMembers, Json.memberStore, ih sorted.2.2, Entries.get?, Json.value?, update,
      get?_insert, hinner]
    by_cases hkey : other = key
    · subst hkey
      rw [Entries.get?_eq_none_of_above sorted.2.2 sorted.1, if_pos rfl, if_pos rfl]
      rfl
    · rw [if_neg hkey, if_neg hkey]

/-- A store is loaded again from the object that it is written as. -/
theorem ofJson_toJson (store : Store) : ofJson store.toJson = .ok store := by
  have hmembers : Json.memberStore empty store.entries.toMembers = store :=
    ext_get? fun key ↦ (get?_memberStore_toMembers store.sorted empty key).trans Option.or_none
  rw [ofJson, toJson, Json.store?, hmembers]

/-- A written store is a stable snapshot. It is loaded again as it was, and what is written of two
merged layers, loaded on top of the earlier layer, gives the merged layers again. Neither merging a
store into itself nor merging a layer a second time changes anything. -/
theorem snapshot_stable (store earlier later : Store) :
    ofJson store.toJson = .ok store ∧
    (ofJson (earlier.merge later).toJson).map earlier.merge = .ok (earlier.merge later) ∧
    store.merge store = store ∧
    (earlier.merge later).merge later = earlier.merge later := by
  refine ⟨ofJson_toJson store, ?_, merge_self store, merge_merge_self earlier later⟩
  rw [ofJson_toJson, Except.map, merge_absorb]

end Store

end BuildPlan
