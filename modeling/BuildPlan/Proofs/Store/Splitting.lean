import Mathlib.Data.List.Lex
import BuildPlan.Proofs.Store.Keys
import BuildPlan.Store.Path

/-!
# Splittings of a path

A path is read as a list of keys by cutting it at some of its separators (`Splits`). A lookup tries
all of these splittings, and of two splittings the one whose first different key is longer comes
first (`Ahead`). So the lookup gives the value of the first splitting that leads to one
(`lookup_eq_some_iff`).

The main result compares two readings of one path. If a splitting leads to a value in a store, then
the lookup gives that value unless a splitting ahead of it leads to another one
(`lookup_eq_some_iff_of_leads`).
-/

set_option autoImplicit false
set_option relaxedAutoImplicit false

namespace BuildPlan.Store

/-- The ways to read a path as a list of keys, by cutting it at some of its separators. -/
inductive Splits : List Char → List String → Prop
  /-- The whole path as one key. -/
  | whole (key : String) : Splits key.toList [key]
  /-- A key in front of a separator, and the keys of the path behind it. -/
  | cut (key : String) {path : List Char} {keys : List String} (rest : Splits path keys) :
    Splits (key.toList ++ pathSeparator :: path) (key :: keys)

/-- Where two splittings of a path differ first, one of them has the longer key. -/
def Ahead (keys others : List String) : Prop :=
  others.map String.length < keys.map String.length

theorem Ahead.trans {first second third : List String} (h : Ahead first second)
    (h' : Ahead second third) : Ahead first third :=
  lt_trans h' h

theorem Ahead.asymm {first second : List String} (h : Ahead first second) :
    ¬ Ahead second first :=
  lt_asymm h

theorem ahead_cons_iff {key other : String} {keys others : List String} :
    Ahead (key :: keys) (other :: others) ↔
      other.length < key.length ∨ other.length = key.length ∧ Ahead keys others :=
  List.cons_lt_cons_iff

theorem splits_cons_iff {path : List Char} {key : String} {keys : List String} :
    Splits path (key :: keys) ↔ keys = [] ∧ path = key.toList ∨
      ∃ back, path = key.toList ++ pathSeparator :: back ∧ Splits back keys := by
  constructor
  · intro h
    cases h with
    | whole => exact .inl ⟨rfl, rfl⟩
    | cut _ rest => exact .inr ⟨_, rfl, rest⟩
  · rintro (⟨rfl, rfl⟩ | ⟨back, rfl, rest⟩)
    · exact .whole key
    · exact .cut key rest

namespace Splits

/-- A splitting has a first key. -/
theorem exists_eq_cons {path : List Char} {keys : List String} (h : Splits path keys) :
    ∃ key rest, keys = key :: rest := by
  cases h with
  | whole key => exact ⟨key, [], rfl⟩
  | cut key rest => exact ⟨key, _, rfl⟩

/-- The characters of a path, apart from the separator, are those of its keys. -/
theorem mem_iff {path : List Char} {keys : List String} {c : Char} (h : Splits path keys)
    (hseparator : c ≠ pathSeparator) : c ∈ path ↔ ∃ key ∈ keys, c ∈ key.toList := by
  induction h with
  | whole key => simp
  | cut key _ ih => simp [hseparator, ih]

/-- Splittings of a path whose keys have the same lengths are the same. -/
theorem eq_of_map_length_eq {path : List Char} {keys others : List String} (h : Splits path keys)
    (h' : Splits path others) (hlength : keys.map String.length = others.map String.length) :
    keys = others := by
  induction h generalizing others with
  | whole key =>
    obtain ⟨other, others, rfl⟩ := h'.exists_eq_cons
    obtain rfl := List.map_eq_nil_iff.1 (List.cons.inj hlength).2.symm
    rcases splits_cons_iff.1 h' with ⟨-, hpath⟩ | ⟨back, -, hrest⟩
    · rw [String.toList_inj.1 hpath]
    · obtain ⟨_, _, hkeys⟩ := hrest.exists_eq_cons
      cases hkeys
  | @cut key path keys rest ih =>
    obtain ⟨other, others, rfl⟩ := h'.exists_eq_cons
    obtain ⟨hkey, hkeys⟩ := List.cons.inj hlength
    rw [← String.length_toList, ← String.length_toList] at hkey
    rcases splits_cons_iff.1 h' with ⟨-, hpath⟩ | ⟨back, hpath, hrest⟩
    · have hcount := congrArg List.length hpath
      rw [List.length_append, List.length_cons] at hcount
      omega
    · obtain ⟨hfirst, hsecond⟩ := List.append_inj hpath hkey
      obtain rfl := (List.cons.inj hsecond).2
      rw [String.toList_inj.1 hfirst, ih hrest hkeys]

/-- No splitting of a path goes on after another one. -/
theorem eq_of_begins {path : List Char} {keys others : List String} (h : Splits path keys)
    (h' : Splits path others) (hbegins : keys <+: others) : keys = others := by
  induction h generalizing others with
  | whole key =>
    obtain ⟨more, rfl⟩ := hbegins
    rcases splits_cons_iff.1 h' with ⟨hmore, -⟩ | ⟨back, hpath, -⟩
    · exact congrArg (key :: ·) hmore.symm
    · simp at hpath
  | @cut key path keys rest ih =>
    obtain ⟨more, rfl⟩ := hbegins
    rcases splits_cons_iff.1 h' with ⟨-, hpath⟩ | ⟨back, hpath, hrest⟩
    · simp at hpath
    · obtain rfl := (List.cons.inj (List.append_cancel_left hpath)).2
      exact congrArg (key :: ·) (ih hrest (List.prefix_append keys more))

/-- Of two different splittings of a path, one is ahead. -/
theorem eq_or_ahead {path : List Char} {keys others : List String} (h : Splits path keys)
    (h' : Splits path others) : keys = others ∨ Ahead keys others ∨ Ahead others keys := by
  rcases lt_trichotomy (keys.map String.length) (others.map String.length) with hlt | heq | hgt
  · exact .inr (.inr hlt)
  · exact .inl (h.eq_of_map_length_eq h' heq)
  · exact .inr (.inl hgt)

end Splits

/-! ### The splittings in the order of a lookup -/

/-- The splittings of a path, in the order in which a lookup tries them. -/
def splittings (path : List Char) : List (List String) :=
  [.ofList path] :: (Text.cuts pathSeparator path).attach.flatMap fun ⟨cut, _⟩ ↦
    (splittings cut.2).map (.ofList cut.1 :: ·)
termination_by path.length
decreasing_by exact Text.length_lt_of_mem_cuts ‹_›

theorem splittings_eq (path : List Char) : splittings path =
    [.ofList path] :: (Text.cuts pathSeparator path).flatMap fun cut ↦
      (splittings cut.2).map (.ofList cut.1 :: ·) := by
  rw [splittings, List.flatMap_subtype fun _ _ ↦ rfl, List.unattach_attach]

/-- The listed splittings are all splittings of the path. -/
theorem mem_splittings {path : List Char} {keys : List String} :
    keys ∈ splittings path ↔ Splits path keys := by
  induction path using splittings.induct generalizing keys with
  | case1 path ih =>
    rw [splittings_eq, List.mem_cons, List.mem_flatMap]
    constructor
    · rintro (rfl | ⟨⟨first, second⟩, hcut, hkeys⟩)
      · simpa using Splits.whole (.ofList path)
      · obtain ⟨rest, hrest, rfl⟩ := List.mem_map.1 hkeys
        rw [Text.mem_cuts_iff.1 hcut]
        simpa using Splits.cut (.ofList first) ((ih _ hcut).1 hrest)
    · intro h
      cases h with
      | whole key => exact .inl (by rw [String.ofList_toList])
      | @cut key path keys rest =>
        have hcut := Text.mem_cuts_iff.2 (Eq.refl (key.toList ++ pathSeparator :: path))
        refine .inr ⟨_, hcut, List.mem_map.2 ⟨keys, (ih _ hcut).2 rest, ?_⟩⟩
        rw [String.ofList_toList]

/-- Of the ways to cut a text in two, those with a longer first part come first. -/
theorem pairwise_cuts (mark : Char) (text : List Char) :
    (Text.cuts mark text).Pairwise fun cut other ↦ other.1.length < cut.1.length := by
  induction text with
  | nil => exact .nil
  | cons c rest ih =>
    rw [Text.cuts, List.pairwise_append, List.pairwise_map]
    refine ⟨ih.imp fun h ↦ Nat.succ_lt_succ h, ?_, ?_⟩
    · split <;> simp
    · intro cut hcut other hother
      obtain ⟨shorter, -, rfl⟩ := List.mem_map.1 hcut
      split at hother
      · rw [List.mem_singleton.1 hother]
        exact Nat.succ_pos _
      · cases hother

/-- A splitting is listed in front of those that it is ahead of. -/
theorem pairwise_splittings (path : List Char) : (splittings path).Pairwise Ahead := by
  induction path using splittings.induct with
  | case1 path ih =>
    rw [splittings_eq, List.pairwise_cons, List.pairwise_flatMap]
    refine ⟨?_, ?_, (pairwise_cuts _ _).imp ?_⟩
    · intro keys hkeys
      obtain ⟨cut, hcut, hkeys⟩ := List.mem_flatMap.1 hkeys
      obtain ⟨rest, -, rfl⟩ := List.mem_map.1 hkeys
      have hpath := congrArg List.length (Text.mem_cuts_iff.1 hcut)
      refine ahead_cons_iff.2 (.inl ?_)
      simp only [List.length_append, List.length_cons] at hpath
      rw [String.length_ofList, String.length_ofList]
      omega
    · intro cut hcut
      rw [List.pairwise_map]
      exact (ih cut hcut).imp fun h ↦ ahead_cons_iff.2 (.inr ⟨rfl, h⟩)
    · intro cut other hlength keys hkeys others hothers
      obtain ⟨rest, -, rfl⟩ := List.mem_map.1 hkeys
      obtain ⟨others, -, rfl⟩ := List.mem_map.1 hothers
      refine ahead_cons_iff.2 (.inl ?_)
      rwa [String.length_ofList, String.length_ofList]

theorem findSome?_flatMap {α β γ : Type} (members : List α) (f : α → List β) (g : β → Option γ) :
    (members.flatMap f).findSome? g = members.findSome? fun member ↦ (f member).findSome? g := by
  induction members with
  | nil => rfl
  | cons member members ih =>
    rw [List.flatMap_cons, List.findSome?_append, ih, List.findSome?_cons]
    cases (f member).findSome? g <;> rfl

theorem find?_of_get?_eq_none {store : Store} {path : List Char}
    (h : store.get? (.ofList path) = none) : store.find? path =
      (Text.cuts pathSeparator path).findSome? fun cut ↦
        ((store.get? (.ofList cut.1)).bind Value.store?).bind (·.find? cut.2) := by
  rw [find?, h]
  simp only
  rw [List.findSome?_subtype, List.unattach_attach]
  intro cut _
  cases store.get? (.ofList cut.1) with
  | none => rfl
  | some value => cases value <;> rfl

/-- The splittings that begin with a key are tried in the store under the key. -/
theorem findSome?_splittings_cons (store : Store) (key : String) (path : List Char) :
    (splittings path).findSome? (fun keys ↦ store.at? (key :: keys)) =
      ((store.get? key).bind Value.store?).bind fun inner ↦
        (splittings path).findSome? inner.at? := by
  cases hkey : store.get? key with
  | none =>
    refine List.findSome?_eq_none_iff.2 fun keys _ ↦ ?_
    rw [at?_cons, hkey]
    rfl
  | some value =>
    cases value with
    | leaf text =>
      refine List.findSome?_eq_none_iff.2 fun keys hkeys ↦ ?_
      obtain ⟨next, keys, rfl⟩ := (mem_splittings.1 hkeys).exists_eq_cons
      rw [at?_cons, hkey]
      rfl
    | nested inner =>
      refine congrArg (List.findSome? · _) (funext fun keys ↦ ?_)
      rw [at?_cons, hkey]
      rfl

/-- A lookup tries the splittings of the path one after the other. -/
theorem find?_eq_findSome?_splittings (store : Store) (path : List Char) :
    store.find? path = (splittings path).findSome? store.at? := by
  induction path using splittings.induct generalizing store with
  | case1 path ih =>
    rw [splittings_eq, List.findSome?_cons, at?_cons, findSome?_flatMap]
    cases hwhole : store.get? (.ofList path) with
    | some value =>
      rw [find?, hwhole]
      rfl
    | none =>
      rw [find?_of_get?_eq_none hwhole, Option.bind_none, ← List.head?_filterMap,
        ← List.head?_filterMap]
      refine congrArg List.head? (List.filterMap_congr fun cut hcut ↦ ?_)
      rw [List.findSome?_map]
      refine Eq.trans ?_ (findSome?_splittings_cons store _ cut.2).symm
      exact congrArg _ (funext fun inner ↦ ih cut hcut inner)

/-! ### The splitting that counts -/

/-- A splitting of a path leads to a value, and no splitting ahead of it leads anywhere. -/
def FirstLeads (path : List Char) (leads : List String → Value → Prop) (keys : List String)
    (value : Value) : Prop :=
  Splits path keys ∧ leads keys value ∧
    ∀ other, Splits path other → Ahead other keys → ∀ held, ¬ leads other held

/-- Some keys lead to a value of a store. -/
def Leads (store : Store) (keys : List String) (value : Value) : Prop :=
  store.at? keys = some value

/-- A lookup gives the value of the first splitting that leads to one. -/
theorem lookup_eq_some_iff {store : Store} {path : String} {value : Value} :
    store.lookup path = some value ↔ ∃ keys, FirstLeads path.toList store.Leads keys value := by
  have hpairwise := pairwise_splittings path.toList
  rw [lookup, find?_eq_findSome?_splittings, List.findSome?_eq_some_iff]
  constructor
  · rintro ⟨front, keys, back, hsplittings, hvalue, hfront⟩
    have hkeys : Splits path.toList keys := by
      rw [← mem_splittings, hsplittings]
      exact List.mem_append_right front List.mem_cons_self
    refine ⟨keys, hkeys, hvalue, fun other hother hahead held hheld ↦ ?_⟩
    -- a splitting ahead of the one that counts is listed before it
    rw [hsplittings, List.pairwise_append, List.pairwise_cons] at hpairwise
    rw [← mem_splittings, hsplittings, List.mem_append, List.mem_cons] at hother
    rcases hother with hmem | rfl | hmem
    · cases (hfront other hmem).symm.trans hheld
    · exact hahead.asymm hahead
    · exact hahead.asymm (hpairwise.2.1.1 other hmem)
  · rintro ⟨keys, hkeys, hvalue, hfirst⟩
    obtain ⟨front, back, hsplittings⟩ := List.append_of_mem (mem_splittings.2 hkeys)
    refine ⟨front, keys, back, hsplittings, hvalue, fun other hmem ↦ ?_⟩
    rw [hsplittings, List.pairwise_append] at hpairwise
    have hother : Splits path.toList other := by
      rw [← mem_splittings, hsplittings]
      exact List.mem_append_left _ hmem
    have hahead := hpairwise.2.2 other hmem keys List.mem_cons_self
    exact Option.eq_none_iff_forall_ne_some.2 (hfirst other hother hahead)

/-- A lookup finds something if a splitting leads to a value. -/
theorem exists_lookup_eq_some {store : Store} {path : String} {keys : List String} {value : Value}
    (hkeys : Splits path.toList keys) (hvalue : store.Leads keys value) :
    ∃ found, store.lookup path = some found := by
  refine Option.ne_none_iff_exists'.1 fun hnone ↦ ?_
  rw [lookup, find?_eq_findSome?_splittings, List.findSome?_eq_none_iff] at hnone
  cases (hnone keys (mem_splittings.2 hkeys)).symm.trans hvalue

/-- A splitting that leads to a value gives it to the lookup, unless one ahead of it leads to
another. The relation says what the splittings ahead lead to. -/
theorem lookup_eq_some_iff_of_leads {store : Store} {path : String} {own : List String}
    {value : Value} {leads : List String → Value → Prop} (hown : Splits path.toList own)
    (hvalue : store.Leads own value)
    (hleads : ∀ keys, Splits path.toList keys → Ahead keys own →
      ∀ held, store.Leads keys held ↔ leads keys held) :
    store.lookup path = some value ↔
      ∀ keys held, FirstLeads path.toList leads keys held → Ahead keys own → held = value := by
  constructor
  · intro hlookup keys held ⟨hkeys, hheld, hfirst⟩ hahead
    have hcounts : store.lookup path = some held := by
      refine lookup_eq_some_iff.2 ⟨keys, hkeys, (hleads keys hkeys hahead held).2 hheld, ?_⟩
      intro other hother hbefore old hold
      exact hfirst other hother hbefore old
        ((hleads other hother (hbefore.trans hahead) old).1 hold)
    exact Option.some.inj (hcounts.symm.trans hlookup)
  · intro hahead
    obtain ⟨found, hfound⟩ := exists_lookup_eq_some hown hvalue
    obtain ⟨keys, hkeys, hheld, hfirst⟩ := lookup_eq_some_iff.1 hfound
    rw [hfound]
    rcases hkeys.eq_or_ahead hown with rfl | hbefore | hbehind
    · exact hheld.symm.trans hvalue
    · refine congrArg some (hahead keys found ⟨hkeys, ?_, ?_⟩ hbefore)
      · exact (hleads keys hkeys hbefore found).1 hheld
      · intro other hother hfront old hold
        exact hfirst other hother hfront old
          ((hleads other hother (hfront.trans hbefore) old).2 hold)
    · exact absurd hvalue (hfirst own hown hbehind value)

end BuildPlan.Store
