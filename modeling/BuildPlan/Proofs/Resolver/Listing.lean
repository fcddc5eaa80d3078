import BuildPlan.Proofs.Resolver.Pasting
import BuildPlan.Proofs.Store.Listing

/-!
# Placeholders of listed paths

A path that leads to a text can be written as a placeholder, unless the markers or the colons of the
path are in the way (`Resolver.Spells`), and then the placeholder is rendered as the text
(`Resolver.interpolate_placeholder`). With what is known of the listing of a store
(`Store.listing_faithful_iff`) this says which paths of a listing can be used in a template
(`Resolver.listing_agrees_iff`). A leaf behind an empty key is listed with a path that does not lead
to it (`Resolver.empty_key_not_shown`).
-/

set_option autoImplicit false
set_option relaxedAutoImplicit false

namespace BuildPlan.Resolver

variable {resolver : Resolver} {path text : String}

/-- A path can be written as a placeholder that is looked up in the store: the markers leave it
whole, it has no fallback, and if it has a context there is no extension for it. -/
structure Spells (resolver : Resolver) (path : String) : Prop where
  /-- The placeholder is in one line and ends behind the path. -/
  isBody : Markers.IsBody resolver.markers.closing path.toList []
  /-- No second colon cuts off a fallback. -/
  fallback : (resolver.tokenOf path.toList).fallback = none
  /-- No extension answers to the text before a colon. -/
  extension : ∀ context, (resolver.tokenOf path.toList).context = some context →
    resolver.extension? context = none

/-- Between the default markers every plain key can be written as a placeholder. -/
theorem IsPlainKey.spells (h : IsPlainKey path) (hmarkers : resolver.markers = .default) :
    resolver.Spells path := by
  have hseparator : Token.separator ∉ path.toList := fun hmem ↦ (h _ hmem).1 rfl
  have htoken := Token.ofBody_of_not_mem hseparator
    (.ofList (resolver.markers.written path.toList))
  refine ⟨?_, ?_, fun context hcontext ↦ ?_⟩
  · rw [hmarkers]
    exact h.isBody []
  · rw [tokenOf, htoken]
  · rw [tokenOf, htoken] at hcontext
    cases hcontext

/-- The token of a path resolves to the text that the path leads to. -/
theorem resolve_tokenOf (h : resolver.Spells path)
    (htext : resolver.store.lookupText path = some text) :
    resolver.resolve (resolver.tokenOf path.toList) = .resolved text := by
  have hkey : (resolver.tokenOf path.toList).key = path := by
    rw [tokenOf, Token.key_ofBody h.fallback, String.ofList_toList]
  unfold resolve
  split
  next hcontext =>
    have hpath : (resolver.tokenOf path.toList).path = path := by
      rwa [Token.key, hcontext] at hkey
    rw [hpath, htext, ofOption]
  next context hcontext =>
    rw [h.extension context hcontext, lookupToken, hkey, htext]

/-- The placeholder of a path is rendered as the text that the path leads to. -/
theorem interpolate_placeholder (h : resolver.Spells path)
    (htext : resolver.store.lookupText path = some text) :
    resolver.interpolate (.ofList (resolver.markers.written path.toList)) = .ok text := by
  have hresolve := resolve_tokenOf h htext
  have hsegments : resolver.markers.segments (resolver.markers.written path.toList) =
      ⟨[([], path.toList)], []⟩ := by
    rw [← List.append_nil (resolver.markers.written path.toList),
      Markers.segments_written_append h.isBody, Markers.segments_nil]
    rfl
  rw [interpolate_eq_ok_iff, tokens_eq_map, String.toList_ofList, hsegments]
  constructor
  · rintro token hmem ⟨-, what, hfailed⟩
    rw [List.map_singleton, List.mem_singleton] at hmem
    rw [hmem, hresolve] at hfailed
    cases hfailed
  · simp [filled, substitute, hresolve]

/-- The listing of a store without separators in its keys has one entry for each leaf, with a path
that shows the keys of the leaf but for the empty ones in front. The paths are distinct and lead to
the listed texts if and only if no leaf lies behind an empty key at the top. A listed path that
leads to the listed text and can be written as a placeholder is rendered as this text. -/
theorem listing_agrees_iff {store : Store} (h : store.SeparatorFree) :
    (∃ leaves : List (List String × String), (leaves.map Prod.fst).Nodup ∧
      (∀ keys text, (keys, text) ∈ leaves ↔ store.Leads keys (.leaf text)) ∧
      store.flatten = leaves.map fun leaf ↦ (Store.dotted (Store.shownKeys leaf.1), leaf.2)) ∧
    (((store.flatten.map Prod.fst).Nodup ∧
        ∀ entry ∈ store.flatten, store.lookupText entry.1 = some entry.2) ↔
      ∀ key keys text, ¬ store.Leads ("" :: key :: keys) (.leaf text)) ∧
    ∀ resolver : Resolver, resolver.store = store → ∀ entry ∈ store.flatten,
      store.lookupText entry.1 = some entry.2 → resolver.Spells entry.1 →
        resolver.interpolate (.ofList (resolver.markers.written entry.1.toList)) =
          .ok entry.2 := by
  refine ⟨⟨store.leaves, Entries.nodup_leaves store.sorted, fun keys text ↦ Store.mem_leaves,
    store.flatten_eq_map⟩, Store.listing_faithful_iff h, ?_⟩
  rintro resolver rfl entry - htext hspells
  exact interpolate_placeholder hspells htext

/-- A text along the keys `a` and `b` is listed with the path `a.b`, and `${a.b}` is rendered as the
text. -/
theorem nested_key_listed :
    (Store.nestedKey "value").SeparatorFree ∧
    (Store.nestedKey "value").flatten = [("a.b", "value")] ∧
    (ofStore (Store.nestedKey "value")).interpolate "$\x7ba.b\x7d" = .ok "value" := by
  have hfree : (Store.nestedKey "value").SeparatorFree := by
    refine ⟨?_, ⟨?_, trivial⟩, trivial⟩ <;> decide
  have hlisted : (Store.nestedKey "value").flatten = [("a.b", "value")] := by decide +kernel
  have hbehind : ∀ key keys text,
      ¬ (Store.nestedKey "value").Leads ("" :: key :: keys) (.leaf text) := by
    intro key keys text hleaf
    cases hleaf
  have hplain : IsPlainKey "a.b" := by simp [IsPlainKey, Token.separator, Markers.lineBreak]
  have hspells : (ofStore (Store.nestedKey "value")).Spells "a.b" := hplain.spells rfl
  have hwritten : String.ofList ((ofStore (Store.nestedKey "value")).markers.written
      "a.b".toList) = "$\x7ba.b\x7d" := by decide +kernel
  obtain ⟨-, hfaithful, hrendered⟩ := listing_agrees_iff hfree
  have hmem : ("a.b", "value") ∈ (Store.nestedKey "value").flatten := by
    rw [hlisted]
    exact List.mem_cons_self
  have hlookup := (hfaithful.2 hbehind).2 _ hmem
  have hresult := hrendered _ rfl _ hmem hlookup hspells
  rw [hwritten] at hresult
  exact ⟨hfree, hlisted, hresult⟩

/-- The store in which a text is assigned at the path `.a`. -/
def emptyKey : Store :=
  Store.empty.assign ".a" (.leaf "1")

/-- The text is listed with the path `a`, which does not lead to it. -/
theorem empty_key_not_shown :
    emptyKey.SeparatorFree ∧ emptyKey.flatten = [("a", "1")] ∧
    emptyKey.lookupText "a" = none ∧ emptyKey.lookupText ".a" = some "1" ∧
    ¬ ∀ entry ∈ emptyKey.flatten, emptyKey.lookupText entry.1 = some entry.2 := by
  have hstore : emptyKey =
      Store.empty.insert "" (.nested (Store.empty.insert "a" (.leaf "1"))) := by decide +kernel
  have hlisted : emptyKey.flatten = [("a", "1")] := by
    rw [hstore]
    decide +kernel
  have hnone : emptyKey.lookupText "a" = none := by
    rw [hstore]
    decide +kernel
  refine ⟨?_, hlisted, hnone, ?_, fun hall ↦ ?_⟩
  · rw [hstore]
    refine ⟨?_, ⟨?_, trivial⟩, trivial⟩ <;> decide
  · rw [hstore]
    decide +kernel
  · have hfound := hall ("a", "1") (by rw [hlisted]; exact List.mem_cons_self)
    cases hnone.symm.trans hfound

end BuildPlan.Resolver
