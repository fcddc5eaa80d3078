import BuildPlan.Proofs.Resolver.Fallback
import BuildPlan.Proofs.Store.Lookup

/-!
# Addressing with colons and with dots

A text of the store can be addressed by a context and a path behind a colon, or by the two joined
with a dot. The resolver goes different ways. Behind a colon it tries the whole body as one key,
then looks the context up, and then the path in the store that it finds. A plain path is looked up
at once, and every splitting of it counts.

Both come to the same in a store whose keys have neither dots nor colons (`Store.PlainKeys`). There
is one splitting to try (`Store.lookup_join`), and a key with a colon is never found
(`Store.lookup_eq_none_of_mem`). `Resolver.colon_resolves_as_dot` says that the two tokens resolve
to the same text, or are unresolved both, also where the context has dots of its own, is empty, or
leads to a text or nowhere.
-/

set_option autoImplicit false
set_option relaxedAutoImplicit false

namespace BuildPlan

namespace Store

/-! ### Joined paths -/

/-- Two paths with a separator between them are split as each of them is. -/
theorem Splits.append {first second : List Char} {keys others : List String}
    (h : Splits first keys) (h' : Splits second others) :
    Splits (first ++ pathSeparator :: second) (keys ++ others) := by
  induction h with
  | whole key => exact .cut key h'
  | cut key _ ih => simpa using Splits.cut key ih

/-- The segments of two joined paths are those of the first and then those of the second. -/
theorem segmentKeys_join (first second : String) :
    segmentKeys (first ++ "." ++ second) = segmentKeys first ++ segmentKeys second := by
  have hpath : (first ++ "." ++ second).toList =
      first.toList ++ pathSeparator :: second.toList := by
    simp [pathSeparator]
  have hsplits : Splits (first ++ "." ++ second).toList
      (segmentKeys first ++ segmentKeys second) :=
    hpath ▸ (splits_segmentKeys first).append (splits_segmentKeys second)
  refine (hsplits.eq_segmentKeys fun key hkey ↦ ?_).symm
  rcases List.mem_append.1 hkey with hkey | hkey
  · exact separator_not_mem_segmentKeys first key hkey
  · exact separator_not_mem_segmentKeys second key hkey

variable {store : Store}

/-- Without separators in its keys a store is searched for two joined paths by looking up the first
one, and then the second one in the store that was found. -/
theorem lookup_join (h : store.SeparatorFree) (first second : String) :
    store.lookup (first ++ "." ++ second) =
      ((store.lookup first).bind Value.store?).bind (·.lookup second) := by
  rw [lookup_of_separatorFree h, lookup_of_separatorFree h, segmentKeys_join, at?_append]
  cases hfound : store.at? (segmentKeys first) with
  | none => rfl
  | some value =>
    cases value with
    | leaf text => rfl
    | nested inner =>
      have hinner : inner.SeparatorFree := h.at? hfound
      exact (lookup_of_separatorFree hinner second).symm

/-- A path with a character that no key has leads nowhere, unless it is the separator. -/
theorem lookup_eq_none_of_mem {path : String} {c : Char} (hc : c ∈ path.toList)
    (hseparator : c ≠ pathSeparator) (h : (Value.nested store).AllKeys fun key ↦ c ∉ key.toList) :
    store.lookup path = none := by
  refine lookup_eq_none_iff.2 fun keys value hkeys hvalue ↦ ?_
  obtain ⟨key, hkey, hmem⟩ := (hkeys.mem_iff hseparator).1 hc
  exact h.of_at? hvalue key hkey hmem

/-- No key of the store, at any depth, has a dot or a colon. -/
def PlainKeys (store : Store) : Prop :=
  (Value.nested store).AllKeys fun key ↦
    pathSeparator ∉ key.toList ∧ Token.separator ∉ key.toList

end Store

namespace Resolver

variable {resolver : Resolver} {context path : String}

/-- A token without an extension and without a fallback is looked up under its path, in the store
that its context leads to. -/
theorem resolve_ofBody_colon (hcontext : Token.separator ∉ context.toList)
    (hpath : Token.separator ∉ path.toList) (hextension : resolver.extension? context = none)
    (hkeys : resolver.store.PlainKeys) (raw : String) :
    resolver.resolve (.ofBody raw (context ++ ":" ++ path).toList) =
      ofOption (resolver.store.lookupText (context ++ "." ++ path)) := by
  have htoken : Token.ofBody raw (context ++ ":" ++ path).toList =
      { raw, context := some context, path, fallback := none } := by
    simpa [Token.separator] using Token.ofBody_context hcontext hpath raw
  -- the body as one key has a colon, so it is not in the store
  have hwhole : resolver.store.lookupText (context ++ ":" ++ path) = none := by
    have hmem : Token.separator ∈ (context ++ ":" ++ path).toList := by simp [Token.separator]
    rw [Store.lookupText, Store.lookup_eq_none_of_mem hmem (by decide)
      (Entries.AllKeys.imp (fun _ h ↦ h.2) hkeys), Option.bind_none]
  have hlookup : lookupToken resolver.store context
      { raw, context := some context, path, fallback := none } =
        resolver.store.lookupText (context ++ "." ++ path) := by
    rw [lookupToken, Token.key, show String.singleton Token.separator = ":" from rfl, hwhole,
      Store.lookupText, Store.lookup_join (Entries.AllKeys.imp (fun _ h ↦ h.1) hkeys)]
    exact (Option.bind_assoc ..).symm
  rw [htoken, resolve_of_store rfl hextension, hlookup]
  cases resolver.store.lookupText (context ++ "." ++ path) <;> rfl

/-- A token without a context is looked up under its path. -/
theorem resolve_ofBody_dot (hcontext : Token.separator ∉ context.toList)
    (hpath : Token.separator ∉ path.toList) (raw : String) :
    resolver.resolve (.ofBody raw (context ++ "." ++ path).toList) =
      ofOption (resolver.store.lookupText (context ++ "." ++ path)) := by
  have hbody : Token.separator ∉ (context ++ "." ++ path).toList := by
    simp only [String.toList_append, List.mem_append, not_or]
    exact ⟨⟨hcontext, by decide⟩, hpath⟩
  rw [Token.ofBody_of_not_mem hbody, String.ofList_toList, resolve]

/-- A context and a path joined by a colon address the same as the two joined by a dot, if there is
no extension for the context and no key of the store has a dot or a colon. Both tokens resolve to
the text under the segments of the context and then those of the path, and both are unresolved where
there is no text. -/
theorem colon_resolves_as_dot (resolver : Resolver) (context path : String)
    (hcontext : Token.separator ∉ context.toList) (hpath : Token.separator ∉ path.toList)
    (hregistered : resolver.registered.get? context = none)
    (hbuiltin : resolver.builtin.get? context = none) (hkeys : resolver.store.PlainKeys)
    (raw other : String) :
    (∀ text, resolver.resolve (.ofBody raw (context ++ ":" ++ path).toList) = .resolved text ↔
      resolver.resolve (.ofBody other (context ++ "." ++ path).toList) = .resolved text) ∧
    (resolver.resolve (.ofBody raw (context ++ ":" ++ path).toList) = .unresolved ↔
      resolver.resolve (.ofBody other (context ++ "." ++ path).toList) = .unresolved) ∧
    resolver.resolve (.ofBody raw (context ++ ":" ++ path).toList) =
      ofOption ((resolver.store.at? ((context.toList.splitOn Store.pathSeparator ++
        path.toList.splitOn Store.pathSeparator).map String.ofList)).bind Value.text?) := by
  have hextension : resolver.extension? context = none := by
    rw [extension?_of_not_registered hregistered, hbuiltin]
  have hfree : resolver.store.SeparatorFree := Entries.AllKeys.imp (fun _ h ↦ h.1) hkeys
  rw [resolve_ofBody_colon hcontext hpath hextension hkeys, resolve_ofBody_dot hcontext hpath]
  refine ⟨fun text ↦ Iff.rfl, Iff.rfl, ?_⟩
  rw [Store.lookupText, Store.lookup_of_separatorFree hfree, Store.segmentKeys_join,
    Store.segmentKeys_eq_splitOn, Store.segmentKeys_eq_splitOn, List.map_append]

/-- The store of a text under the keys `some`, `deep` and `field`. -/
def deepField (text : String) : Store :=
  Store.empty.assign "some.deep.field" (.leaf text)

/-- A text three levels deep is addressed by `some.deep:field` as by `some.deep.field`, and behind
the text there is nothing for either. -/
theorem deep_field_addressed :
    (ofStore (deepField "value")).store.PlainKeys ∧
    (ofStore (deepField "value")).resolve (.ofBody "" "some.deep.field".toList) =
      .resolved "value" ∧
    (ofStore (deepField "value")).resolve (.ofBody "" "some.deep:field".toList) =
      .resolved "value" ∧
    (ofStore (deepField "value")).resolve (.ofBody "" "some.deep.field:".toList) =
      .unresolved := by
  have hstore : deepField "value" = Store.empty.insert "some" (.nested (Store.empty.insert "deep"
      (.nested (Store.empty.insert "field" (.leaf "value"))))) := by decide +kernel
  have hkeys : (ofStore (deepField "value")).store.PlainKeys := by
    rw [ofStore, hstore]
    refine ⟨?_, ⟨?_, ⟨?_, trivial⟩, trivial⟩, trivial⟩ <;> decide
  have hdeep := colon_resolves_as_dot (ofStore (deepField "value")) "some.deep" "field"
    (by decide) (by decide) rfl rfl hkeys "" ""
  have hbehind := colon_resolves_as_dot (ofStore (deepField "value")) "some.deep.field" ""
    (by decide) (by decide) rfl rfl hkeys "" ""
  have hdot : (ofStore (deepField "value")).resolve (.ofBody "" "some.deep.field".toList) =
      .resolved "value" := by
    rw [ofStore, hstore]
    decide +kernel
  refine ⟨hkeys, hdot, (hdeep.1 "value").2 hdot, hbehind.2.1.2 ?_⟩
  rw [ofStore, hstore]
  decide +kernel

end Resolver

end BuildPlan
