import BuildPlan.Store.Path

/-!
# Listing a store

The leaves of a store with the keys that lead to them joined by dots, in increasing order of the
keys at every depth. An empty path in front of a key adds no dot.
-/

set_option autoImplicit false
set_option relaxedAutoImplicit false

namespace BuildPlan

/-- A path extended by one key. -/
def Store.joinPath (path key : String) : String :=
  if path = "" then key else path ++ .singleton Store.pathSeparator ++ key

/-- The leaves among some entries below a path. -/
def Entries.leavesBelow (path : String) : Entries → List (String × String)
  | .empty => []
  | .leaf key text rest => (Store.joinPath path key, text) :: rest.leavesBelow path
  | .nested key inner rest =>
    inner.leavesBelow (Store.joinPath path key) ++ rest.leavesBelow path

/-- The leaves of a store and their paths. -/
def Store.flatten (store : Store) : List (String × String) :=
  store.entries.leavesBelow ""

end BuildPlan
