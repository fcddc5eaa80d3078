import BuildPlan.Error
import BuildPlan.Json.Basic
import BuildPlan.Store.Basic

/-!
# Stores and JSON values

A JSON object becomes a store: strings, booleans and numbers become texts, objects and arrays
become nested stores, an array keyed by the decimal index of its elements. A null leaves nothing,
and does not shift the indices of the elements after it. Of several members with one name the last
one counts, even if it is null.

In the other direction a store is written as an object of strings and objects.
-/

set_option autoImplicit false
set_option relaxedAutoImplicit false

namespace BuildPlan

/-- The store with an optional value under a key; nothing is left there if there is no value. -/
def Store.update (store : Store) (key : String) : Option Value → Store
  | some value => store.insert key value
  | none => store.erase key

namespace Json

mutual

/-- The value that a JSON value stands for; a null stands for none. -/
def value? : Json → Option Value
  | .null => none
  | .bool value => some (.leaf (toString value))
  | .number value => some (.leaf value.text)
  | .string text => some (.leaf text)
  | .array items => some (.nested (itemStore 0 .empty items))
  | .object members => some (.nested (memberStore .empty members))

/-- Adds the elements of an array to a store, from an index on. -/
def itemStore (index : Nat) (store : Store) : List Json → Store
  | [] => store
  | item :: rest => itemStore (index + 1) (store.update (toString index) item.value?) rest

/-- Adds the members of an object to a store. -/
def memberStore (store : Store) : List (String × Json) → Store
  | [] => store
  | (name, item) :: rest => memberStore (store.update name item.value?) rest

end

/-- The store that a JSON object stands for; no other value stands for a store. -/
def store? : Json → Option Store
  | .object members => some (memberStore .empty members)
  | _ => none

end Json

/-- The store that a JSON value is loaded as. -/
def Store.ofJson (json : Json) : Except ConfigError Store :=
  match json.store? with
  | some store => .ok store
  | none => .error (.invalidValue "values" ("expected a JSON object, found " ++ json.kind))

/-- The members of the JSON object that entries are written as. -/
def Entries.toMembers : Entries → List (String × Json)
  | .empty => []
  | .leaf key text rest => (key, .string text) :: rest.toMembers
  | .nested key inner rest => (key, .object inner.toMembers) :: rest.toMembers

/-- The JSON object that a store is written as. -/
def Store.toJson (store : Store) : Json :=
  .object store.entries.toMembers

end BuildPlan
