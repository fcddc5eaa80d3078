import BuildPlan.Proofs.Dictionary
import BuildPlan.Proofs.Store.Keys
import BuildPlan.Store.OfJson

/-!
# Paths in JSON values

Keys lead from a JSON value to a value inside it (`Json.Reaches`): the name of a member to the last
member of that name, and the decimal index of an element to the element. Nulls count as elements, so
what stands behind one in an array keeps its index.

A JSON object is loaded as the store that has at every path what the keys reach in the object
(`Json.at?_memberStore_eq_some_iff`). A string, a boolean or a number is a text there, an object or an
array is a nested store, even an empty one, and a null is nothing (`Store.ofJson_exact`).
-/

set_option autoImplicit false
set_option relaxedAutoImplicit false

namespace BuildPlan

/-- A key holds the value that the store was updated with, and every other key what it held
before. -/
theorem Store.get?_update (store : Store) (key other : String) (value : Option Value) :
    (store.update key value).get? other = if key = other then value else store.get? other := by
  cases value with
  | none => exact get?_erase store key other
  | some value => exact get?_insert store key other value

namespace Json

/-! ### Reaching values -/

/-- A key leads from a value to a value directly inside it. -/
inductive Child : Json → String → Json → Prop
  /-- The index of an element, in the array as it is written. -/
  | element {items : List Json} {key : String} {item : Json} (index : Nat)
    (hitem : items[index]? = some item) (hkey : toString index = key) :
    Child (.array items) key item
  /-- The name of a member; of several with one name it is the last one. -/
  | member {members : List (String × Json)} {key : String} {item : Json}
    (hitem : members.reverse.lookup key = some item) : Child (.object members) key item

/-- Some keys lead from a value to a value inside it, one after the other. -/
inductive Reaches : Json → List String → Json → Prop
  /-- No keys lead to the value itself. -/
  | here (value : Json) : Reaches value [] value
  /-- A key leads into the value, and the others go on from there. -/
  | inside {value item found : Json} {key : String} {keys : List String}
    (hchild : value.Child key item) (hrest : item.Reaches keys found) :
    Reaches value (key :: keys) found

/-- A value has a text of its own. -/
inductive Prints : Json → String → Prop
  | string (text : String) : Prints (.string text) text
  | bool (value : Bool) : Prints (.bool value) (toString value)
  | number (value : JsonNumber) : Prints (.number value) value.text

/-- A value is an object or an array. -/
inductive IsContainer : Json → Prop
  | array (items : List Json) : IsContainer (.array items)
  | object (members : List (String × Json)) : IsContainer (.object members)

theorem Child.unique {value item other : Json} {key : String} (h : value.Child key item)
    (h' : value.Child key other) : item = other := by
  cases h with
  | element index hitem hkey =>
    cases h' with
    | element second hother hsecond =>
      have hnumber : index = second := by
        have hread := congrArg (Nat.ofDigitChars 10 ·.toList 0) (hkey.trans hsecond.symm)
        simpa only [Nat.toString_eq_repr, Nat.toList_repr,
          Nat.ofDigitChars_ten_toDigits] using hread
      subst hnumber
      exact Option.some.inj (hitem.symm.trans hother)
  | member hitem =>
    cases h' with
    | member hother => exact Option.some.inj (hitem.symm.trans hother)

/-- Keys lead to one value at most. -/
theorem Reaches.unique {value found other : Json} {keys : List String}
    (h : value.Reaches keys found) (h' : value.Reaches keys other) : found = other := by
  induction h with
  | here => cases h' with
    | here => rfl
  | inside hchild _ ih =>
    cases h' with
    | inside hother hrest => exact ih (hother.unique hchild ▸ hrest)

theorem reaches_nil_iff {value found : Json} : value.Reaches [] found ↔ found = value := by
  constructor
  · intro h
    cases h with
    | here => rfl
  · rintro rfl
    exact .here found

theorem reaches_cons_iff {value found : Json} {key : String} {keys : List String} :
    value.Reaches (key :: keys) found ↔ ∃ item, value.Child key item ∧ item.Reaches keys found := by
  constructor
  · intro h
    cases h with
    | inside hchild hrest => exact ⟨_, hchild, hrest⟩
  · rintro ⟨item, hchild, hrest⟩
    exact .inside hchild hrest

/-! ### What a value is loaded as -/

theorem value?_eq_leaf_iff {value : Json} {text : String} :
    value.value? = some (.leaf text) ↔ value.Prints text := by
  constructor
  · intro h
    cases value <;> cases h <;> constructor
  · rintro (_ | _ | _) <;> rfl

theorem exists_value?_eq_nested_iff {value : Json} :
    (∃ inner, value.value? = some (.nested inner)) ↔ value.IsContainer := by
  constructor
  · rintro ⟨inner, h⟩
    cases value <;> cases h <;> constructor
  · rintro (_ | _) <;> exact ⟨_, rfl⟩

/-! ### Elements and members -/

theorem itemStore_append (index : Nat) (store : Store) (items others : List Json) :
    itemStore index store (items ++ others) =
      itemStore (index + items.length) (itemStore index store items) others := by
  induction items generalizing index store with
  | nil => rfl
  | cons item items ih =>
    rw [List.cons_append, itemStore, ih, itemStore, List.length_cons, Nat.add_right_comm,
      Nat.add_assoc]

theorem memberStore_append (store : Store) (members others : List (String × Json)) :
    memberStore store (members ++ others) = memberStore (memberStore store members) others := by
  induction members generalizing store with
  | nil => rfl
  | cons member members ih => rw [List.cons_append, memberStore, ih, memberStore]

theorem child_concat_self (items : List Json) (item : Json) :
    (Json.array (items ++ [item])).Child (toString items.length) item :=
  .element items.length List.getElem?_concat_length rfl

/-- An element at the end of an array leaves the others where they are. -/
theorem child_concat_iff {items : List Json} {item found : Json} {key : String}
    (h : toString items.length ≠ key) :
    (Json.array (items ++ [item])).Child key found ↔ (Json.array items).Child key found := by
  constructor
  · rintro (⟨index, hitem, rfl⟩ | _)
    have hindex : index < items.length := by
      have hlt := (List.getElem?_eq_some_iff.1 hitem).1
      have hne : index ≠ items.length := fun heq ↦ h (heq ▸ rfl)
      rw [List.length_append, List.length_singleton] at hlt
      omega
    rw [List.getElem?_append_left hindex] at hitem
    exact .element index hitem rfl
  · rintro (⟨index, hitem, rfl⟩ | _)
    have hindex := (List.getElem?_eq_some_iff.1 hitem).1
    exact .element index ((List.getElem?_append_left hindex).trans hitem) rfl

/-- The store of an array holds the values of its elements under their indices. -/
theorem get?_itemStore_eq_some_iff {items : List Json} {key : String} {value : Value} :
    (itemStore 0 .empty items).get? key = some value ↔
      ∃ item, (Json.array items).Child key item ∧ item.value? = some value := by
  induction items using List.reverseRecOn with
  | nil =>
    constructor
    · intro h
      cases h
    · rintro ⟨_, ⟨index, hitem, -⟩, -⟩
      cases hitem
  | append_singleton items item ih =>
    have hconcat : itemStore 0 .empty (items ++ [item]) =
        (itemStore 0 .empty items).update (toString items.length) item.value? := by
      rw [itemStore_append, Nat.zero_add]
      rfl
    rw [hconcat, Store.get?_update]
    by_cases hkey : toString items.length = key
    · subst hkey
      rw [if_pos rfl]
      constructor
      · intro hvalue
        exact ⟨item, child_concat_self items item, hvalue⟩
      · rintro ⟨other, hother, hvalue⟩
        rwa [(child_concat_self items item).unique hother]
    · simp only [if_neg hkey, ih, child_concat_iff hkey]

/-- A name holds the value of the last member that has it. -/
theorem get?_memberStore (store : Store) (members : List (String × Json)) (key : String) :
    (memberStore store members).get? key =
      (members.reverse.lookup key).elim (store.get? key) value? := by
  induction members using List.reverseRecOn with
  | nil => rfl
  | append_singleton members member ih =>
    have hconcat : memberStore store (members ++ [member]) =
        (memberStore store members).update member.1 member.2.value? :=
      memberStore_append store members [member]
    rw [hconcat, Store.get?_update, List.reverse_concat, Dictionary.lookup_cons, ih]
    by_cases hkey : member.1 = key
    · rw [if_pos hkey, if_pos hkey.symm, Option.elim_some]
    · rw [if_neg hkey, if_neg (Ne.symm hkey)]

/-- The store of an object holds the values of its members under their names. -/
theorem get?_memberStore_eq_some_iff {members : List (String × Json)} {key : String}
    {value : Value} : (memberStore .empty members).get? key = some value ↔
      ∃ item, (Json.object members).Child key item ∧ item.value? = some value := by
  rw [get?_memberStore]
  constructor
  · intro h
    cases hitem : members.reverse.lookup key with
    | none =>
      rw [hitem] at h
      cases h
    | some item =>
      rw [hitem, Option.elim_some] at h
      exact ⟨item, .member hitem, h⟩
  · rintro ⟨item, _ | hitem, hvalue⟩
    rw [hitem, Option.elim_some, hvalue]

/-- Only an object or an array has values directly inside it. -/
theorem Child.isContainer {value item : Json} {key : String} (h : value.Child key item) :
    value.IsContainer := by
  cases h with
  | element => exact .array _
  | member => exact .object _

/-- The store that a value is loaded as holds the values of what is directly inside it. -/
theorem get?_eq_some_iff_child {value : Json} {store : Store} {key : String} {loaded : Value}
    (h : value.value? = some (.nested store)) : store.get? key = some loaded ↔
      ∃ item, value.Child key item ∧ item.value? = some loaded := by
  cases exists_value?_eq_nested_iff.1 ⟨store, h⟩ with
  | array items =>
    cases h
    exact get?_itemStore_eq_some_iff
  | object members =>
    cases h
    exact get?_memberStore_eq_some_iff

/-! ### Values at paths -/

/-- One key leads from what a value is loaded as to what a value directly inside it is loaded as. -/
theorem bind_at?_cons_eq_some_iff {value : Json} {key : String} {keys : List String}
    {loaded : Value} : value.value?.bind (·.at? (key :: keys)) = some loaded ↔
      ∃ item, value.Child key item ∧ item.value?.bind (·.at? keys) = some loaded := by
  by_cases hcontainer : value.IsContainer
  · obtain ⟨store, hstore⟩ := exists_value?_eq_nested_iff.2 hcontainer
    rw [hstore, Option.bind_some, Value.at?]
    simp only [Option.bind_eq_some_iff, get?_eq_some_iff_child hstore]
    constructor
    · rintro ⟨next, ⟨item, hitem, hnext⟩, hrest⟩
      exact ⟨item, hitem, next, hnext, hrest⟩
    · rintro ⟨item, hitem, next, hnext, hrest⟩
      exact ⟨next, ⟨item, hitem, hnext⟩, hrest⟩
  · refine iff_of_false ?_ ?_
    · intro h
      obtain ⟨next, hnext, hat⟩ := Option.bind_eq_some_iff.1 h
      -- behind a text there is nothing, so the value would be a nested store
      cases next with
      | leaf text => cases hat
      | nested store => exact hcontainer (exists_value?_eq_nested_iff.1 ⟨store, hnext⟩)
    · rintro ⟨item, hitem, -⟩
      exact hcontainer hitem.isContainer

/-- What a value is loaded as has at every path what the value that is reached there is loaded
as. -/
theorem bind_at?_eq_some_iff {value : Json} {keys : List String} {loaded : Value} :
    value.value?.bind (·.at? keys) = some loaded ↔
      ∃ found, value.Reaches keys found ∧ found.value? = some loaded := by
  induction keys generalizing value with
  | nil =>
    simp only [reaches_nil_iff, exists_eq_left]
    cases value.value? <;> rfl
  | cons key keys ih =>
    simp only [bind_at?_cons_eq_some_iff, ih, reaches_cons_iff]
    constructor
    · rintro ⟨item, hitem, found, hrest, hfound⟩
      exact ⟨found, ⟨item, hitem, hrest⟩, hfound⟩
    · rintro ⟨found, ⟨item, hitem, hrest⟩, hfound⟩
      exact ⟨item, hitem, found, hrest, hfound⟩

/-- The store of an object has at every path what the value that is reached there is loaded as. -/
theorem at?_memberStore_eq_some_iff {members : List (String × Json)} {keys : List String}
    {loaded : Value} : (memberStore .empty members).at? keys = some loaded ↔
      ∃ found, (Json.object members).Reaches keys found ∧ found.value? = some loaded :=
  @bind_at?_eq_some_iff (.object members) keys loaded

end Json

namespace Store

/-- A JSON object is loaded as the store that keeps its texts, booleans and numbers, its objects and
its arrays at their paths. At some keys there is a text exactly if the keys reach a value that is
written as this text, and a nested store exactly if they reach an object or an array. A null leaves
nothing. Every value that is no object is rejected. -/
theorem ofJson_exact :
    (∀ members, ∃ store, ofJson (.object members) = .ok store ∧ ∀ keys,
      (∀ text, store.at? keys = some (.leaf text) ↔
        ∃ scalar, (Json.object members).Reaches keys scalar ∧ scalar.Prints text) ∧
      ((∃ inner, store.at? keys = some (.nested inner)) ↔
        ∃ container, (Json.object members).Reaches keys container ∧ container.IsContainer) ∧
      ((Json.object members).Reaches keys .null → store.at? keys = none)) ∧
    ∀ value : Json, (∀ members, value ≠ .object members) →
      ofJson value = .error (.invalidValue "values"
        ("expected a JSON object, found " ++ value.kind)) := by
  constructor
  · intro members
    refine ⟨Json.memberStore .empty members, rfl, fun keys ↦ ?_⟩
    refine ⟨fun text ↦ ?texts, ?containers, fun hnull ↦ ?nulls⟩
    case texts => simp only [Json.at?_memberStore_eq_some_iff, Json.value?_eq_leaf_iff]
    case containers =>
      simp only [Json.at?_memberStore_eq_some_iff, ← Json.exists_value?_eq_nested_iff]
      constructor
      · rintro ⟨inner, found, hfound, hinner⟩
        exact ⟨found, hfound, inner, hinner⟩
      · rintro ⟨found, hfound, inner, hinner⟩
        exact ⟨inner, found, hfound, hinner⟩
    case nulls =>
      refine Option.eq_none_iff_forall_ne_some.2 fun loaded hloaded ↦ ?_
      obtain ⟨found, hfound, hvalue⟩ := Json.at?_memberStore_eq_some_iff.1 hloaded
      rw [hfound.unique hnull] at hvalue
      cases hvalue
  · intro value hvalue
    cases value with
    | object members => exact absurd rfl (hvalue members)
    | _ => rfl

/-- The members of an object of values of every kind. -/
def sampleMembers : List (String × Json) :=
  [("flag", .bool true), ("retries", .number (.integer 3)), ("skip", .null),
    ("targets", .array [.string "linux", .null, .string "darwin", .array []])]

/-- The elements behind a null keep their indices, and the null leaves nothing. -/
theorem sample_members_loaded : ∃ store, ofJson (.object sampleMembers) = .ok store ∧
    store.at? ["targets", "2"] = some (.leaf "darwin") ∧
    (∃ inner, store.at? ["targets", "3"] = some (.nested inner)) ∧
    store.at? ["targets", "1"] = none ∧
    ofJson (.array []) =
      .error (.invalidValue "values" "expected a JSON object, found an array") := by
  have htargets (index : Nat) {item : Json}
      (hitem : [Json.string "linux", .null, .string "darwin", .array []][index]? = some item) :
      (Json.object sampleMembers).Reaches ["targets", toString index] item :=
    .inside (.member rfl) (.inside (.element index hitem rfl) (.here item))
  obtain ⟨hloaded, hrejected⟩ := ofJson_exact
  obtain ⟨store, hstore, hat⟩ := hloaded sampleMembers
  refine ⟨store, hstore, ?_, ?_, ?_, hrejected (.array []) nofun⟩
  · exact ((hat ["targets", "2"]).1 "darwin").2 ⟨_, htargets 2 rfl, .string _⟩
  · exact (hat ["targets", "3"]).2.1.2 ⟨_, htargets 3 rfl, .array _⟩
  · exact (hat ["targets", "1"]).2.2 (htargets 1 rfl)

end Store

end BuildPlan
