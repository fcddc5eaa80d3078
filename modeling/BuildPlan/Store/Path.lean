import BuildPlan.Store.Basic
import BuildPlan.Text.Cut

/-!
# Dotted paths

A path names a value by keys joined with dots. Writing takes every dot as a separator: `assign`
goes down one segment at a time and makes a nested store wherever there is none. Reading allows
for keys that contain dots: `lookup` first tries the whole path as a literal key, then every way
to cut it in two at a dot, the longest first part before the others, and goes on in the nested
store under the first part with the second part.
-/

set_option autoImplicit false
set_option relaxedAutoImplicit false

namespace BuildPlan.Store

/-- The character between the keys of a path. -/
def pathSeparator : Char := '.'

/-- The value that a path leads to, with the path as a list of characters. -/
def find? (store : Store) (path : List Char) : Option Value :=
  match store.get? (.ofList path) with
  | some value => some value
  | none =>
    (Text.cuts pathSeparator path).attach.findSome? fun ⟨cut, _⟩ ↦
      match store.get? (.ofList cut.1) with
      | some (.nested inner) => inner.find? cut.2
      | _ => none
termination_by path.length
decreasing_by exact Text.length_lt_of_mem_cuts ‹_›

/-- The value that a path leads to. -/
def lookup (store : Store) (path : String) : Option Value :=
  store.find? path.toList

/-- The text that a path leads to; a path to a nested store leads to none. -/
def lookupText (store : Store) (path : String) : Option String :=
  (store.lookup path).bind Value.text?

/-- The first segment of a path and the segments after it. -/
def segments (path : String) : String × List String :=
  let parts := Text.pieces pathSeparator path.toList
  (.ofList parts.1, parts.2.map .ofList)

/-- Puts a value under the last of some keys, each of them leading into the store under it. -/
def assignAt (store : Store) (key : String) (value : Value) : List String → Store
  | [] => store.insert key value
  | next :: rest =>
    store.insert key (.nested ((store.nestedOrEmpty key).assignAt next value rest))

/-- Puts a value at a path, making nested stores as needed. A text in the way is replaced. -/
def assign (store : Store) (path : String) (value : Value) : Store :=
  store.assignAt (segments path).1 value (segments path).2

end BuildPlan.Store
