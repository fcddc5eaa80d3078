import BuildPlan.Store.Basic

/-!
# Merging stores

A later layer of values overrides an earlier one. Where both hold a nested store, the two are
merged in turn; everywhere else the later value replaces the earlier one.
-/

set_option autoImplicit false
set_option relaxedAutoImplicit false

namespace BuildPlan

namespace Entries

/-- Merges entries into a store. -/
def mergeInto : (later : Entries) → later.Sorted → Store → Store
  | .empty, _, store => store
  | .leaf key text rest, sorted, store =>
    rest.mergeInto sorted.2 (store.insert key (.leaf text))
  | .nested key inner rest, sorted, store =>
    let merged := match store.get? key with
      | some (.nested earlier) => inner.mergeInto sorted.2.1 earlier
      | _ => ⟨inner, sorted.2.1⟩
    rest.mergeInto sorted.2.2 (store.insert key (.nested merged))

end Entries

/-- The store with the values of a later one on top. -/
def Store.merge (earlier later : Store) : Store :=
  later.entries.mergeInto later.sorted earlier

end BuildPlan
