import BuildPlan.Proofs.Store.Keys

/-!
# Merged layers

A merge changes what the later store speaks about and nothing else. It speaks about its texts and
nested stores, and a text of it cuts off all that lies behind (`Store.CutsOff`), since no store can
be there any more. `Store.merge_exact` says of every list of keys whether the merged store holds a
text there, and which, and whether it holds a nested store.

So the earlier store leaves no trace in the merged one if the later store has something wherever
the earlier one does, or cuts the place off (`Store.merge_eq_later_iff`).
-/

set_option autoImplicit false
set_option relaxedAutoImplicit false

namespace BuildPlan.Store

variable {store : Store} {keys : List String}

/-- A text lies on the way along some keys, before their end. -/
def CutsOff (store : Store) (keys : List String) : Prop :=
  ∃ front text, front <+: keys ∧ front ≠ keys ∧ store.at? front = some (.leaf text)

/-- Behind a text there is nothing. -/
theorem not_cutsOff_of_at? {value : Value} (h : store.at? keys = some value) :
    ¬ store.CutsOff keys := by
  rintro ⟨front, text, hfront, hne, htext⟩
  exact hne (eq_of_prefix_of_leaf hfront htext h)

/-- The way to a place without a text is blocked if it is cut off. -/
theorem blocks_iff_cutsOff (h : ∀ text, store.at? keys ≠ some (.leaf text)) :
    store.Blocks keys ↔ store.CutsOff keys := by
  constructor
  · rintro ⟨front, text, hfront, htext⟩
    refine ⟨front, text, hfront, ?_, htext⟩
    rintro rfl
    exact h text htext
  · rintro ⟨front, text, hfront, -, htext⟩
    exact ⟨front, text, hfront, htext⟩

/-- A nested store of the later store is a nested store of the merged one. -/
theorem exists_at?_merge_of_nested (earlier : Store) {later inner : Store}
    (h : later.at? keys = some (.nested inner)) :
    ∃ merged, (earlier.merge later).at? keys = some (.nested merged) := by
  have hopen : ¬ later.Blocks keys := by
    rw [blocks_iff_cutsOff (by simp [h])]
    exact not_cutsOff_of_at? h
  rw [at?_merge_of_not_blocks hopen, h]
  cases earlier.at? keys with
  | none => exact ⟨inner, rfl⟩
  | some held =>
    cases held with
    | leaf text => exact ⟨inner, rfl⟩
    | nested old => exact ⟨old.merge inner, rfl⟩

/-- Where the later store holds nothing and cuts nothing off, the merged store holds what the
earlier one does. -/
theorem at?_merge_eq_some_iff {earlier later : Store} {value : Value}
    (h : later.at? keys = none) : (earlier.merge later).at? keys = some value ↔
      ¬ later.CutsOff keys ∧ earlier.at? keys = some value := by
  rw [at?_merge_of_none h, blocks_iff_cutsOff (by simp [h]), and_comm]

/-- A merge changes exactly what the later store speaks about. The merged store holds a text under
some keys if the later store does, or if the earlier one does and the later one has nothing there
and does not cut the place off. It holds a nested store, empty or not, under just the same
conditions. -/
theorem merge_exact (earlier later : Store) (keys : List String) :
    (∀ text, (earlier.merge later).at? keys = some (.leaf text) ↔
      later.at? keys = some (.leaf text) ∨
        later.at? keys = none ∧ ¬ later.CutsOff keys ∧
          earlier.at? keys = some (.leaf text)) ∧
    ((∃ merged, (earlier.merge later).at? keys = some (.nested merged)) ↔
      (∃ inner, later.at? keys = some (.nested inner)) ∨
        later.at? keys = none ∧ ¬ later.CutsOff keys ∧
          ∃ inner, earlier.at? keys = some (.nested inner)) := by
  cases hlater : later.at? keys with
  | none =>
    simp only [at?_merge_eq_some_iff hlater]
    simp
  | some held =>
    cases held with
    | leaf text => simp [at?_merge_of_leaf hlater]
    | nested inner =>
      obtain ⟨merged, hmerged⟩ := exists_at?_merge_of_nested earlier hlater
      simp [hmerged]

/-! ### Nothing left of the earlier store -/

/-- Wherever the earlier store holds something, the later one does too, or the way to the place is
blocked in it. -/
def Covers (later earlier : Store) : Prop :=
  ∀ keys value, earlier.at? keys = some value → later.at? keys ≠ none ∨ later.Blocks keys

/-- Coverage passes to the stores under a key. -/
theorem Covers.nested {later earlier new old : Store} {key : String} (h : later.Covers earlier)
    (hlater : later.get? key = some (.nested new))
    (hearlier : earlier.get? key = some (.nested old)) : new.Covers old := by
  intro keys value hvalue
  have hcovered := h (key :: keys) value (by rw [at?_cons, hearlier]; exact hvalue)
  rwa [blocks_cons_of_nested hlater, at?_cons, hlater] at hcovered

/-- Where the later store has nothing under a key, a store that it covers has nothing there. -/
theorem Covers.get?_eq_none {later earlier : Store} {key : String} (h : later.Covers earlier)
    (hlater : later.get? key = none) : earlier.get? key = none := by
  cases hearlier : earlier.get? key with
  | none => rfl
  | some value =>
    have hvalue : earlier.at? [key] = some value := by rw [at?_cons, hearlier]; rfl
    rcases h [key] value hvalue with hnone | hblocks
    · exact absurd (by rw [at?_cons, hlater]; rfl) hnone
    · exact absurd hblocks (not_blocks_cons_of_none hlater)

/-- A merge is the later store if and only if that covers the earlier one. -/
theorem merge_eq_later_iff {earlier later : Store} :
    earlier.merge later = later ↔ later.Covers earlier := by
  constructor
  · intro hmerge keys value hvalue
    by_contra hnot
    obtain ⟨hnone, hopen⟩ := not_or.1 hnot
    have hkept := (at?_merge_of_none (not_not.1 hnone)).2 ⟨hvalue, hopen⟩
    rw [hmerge] at hkept
    exact hnone (hkept ▸ Option.some_ne_none value)
  · intro hcovers
    induction later using nested_induction generalizing earlier with
    | step later ih =>
      refine ext_get? fun key ↦ ?_
      rw [get?_merge]
      cases hlater : later.get? key with
      | none => exact hcovers.get?_eq_none hlater
      | some value =>
        cases value with
        | leaf text => rfl
        | nested new =>
          cases hearlier : earlier.get? key with
          | none => rfl
          | some value =>
            cases value with
            | leaf text => rfl
            | nested old =>
              exact congrArg (some ∘ Value.nested)
                (ih key new hlater (hcovers.nested hlater hearlier))

end BuildPlan.Store
