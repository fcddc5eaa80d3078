import BuildPlan.Proofs.Store.Splitting

/-!
# Overriding values

A later layer overrides an earlier one: a value is assigned at a path, or a later store is merged
into an earlier one. Both write along one splitting of the path. An assignment cuts the path at
every separator (`segmentKeys`), which is the splitting that a lookup tries last
(`ahead_segmentKeys_iff`), and a merge writes along the keys of the later store. A lookup sees the
later value unless a splitting ahead of the written one leads to another value, so that a literal
key with separators keeps the value of the earlier layer (`lookup_override_iff`,
`literal_key_not_overridden`).
-/

set_option autoImplicit false
set_option relaxedAutoImplicit false

namespace BuildPlan.Store

/-! ### Assigning along keys -/

/-- What is found in the store under a key, if there is one, is found under the key. -/
theorem at?_nestedOrEmpty (store : Store) (key next : String) (keys : List String) :
    (store.nestedOrEmpty key).at? (next :: keys) = store.at? (key :: next :: keys) := by
  rw [at?_cons store, nestedOrEmpty]
  cases store.get? key with
  | none => rfl
  | some value => cases value <;> rfl

/-- An assigned value is found under its keys. -/
theorem at?_assignAt_self (store : Store) (key : String) (value : Value) (rest : List String) :
    (store.assignAt key value rest).at? (key :: rest) = some value := by
  induction rest generalizing store key with
  | nil =>
    rw [assignAt, at?_cons, get?_insert, if_pos rfl]
    cases value <;> rfl
  | cons next rest ih =>
    rw [assignAt, at?_cons, get?_insert, if_pos rfl]
    exact ih _ next

/-- An assignment changes nothing under keys that are neither on the way to the assigned value nor
lead beyond it. -/
theorem at?_assignAt_of_apart {store : Store} {key : String} {value : Value}
    {rest keys : List String} (hbefore : ¬ keys <+: key :: rest) (hafter : ¬ key :: rest <+: keys) :
    (store.assignAt key value rest).at? keys = store.at? keys := by
  induction rest generalizing store key keys with
  | nil =>
    cases keys with
    | nil => exact absurd List.nil_prefix hbefore
    | cons other keys =>
      have hkey : key ≠ other := by
        rintro rfl
        exact hafter (List.prefix_append [key] keys)
      rw [assignAt, at?_cons, get?_insert, if_neg hkey, at?_cons]
  | cons next rest ih =>
    cases keys with
    | nil => exact absurd List.nil_prefix hbefore
    | cons other keys =>
      rw [assignAt, at?_cons, get?_insert]
      by_cases hkey : key = other
      · subst hkey
        rw [List.prefix_cons_inj] at hbefore hafter
        rw [if_pos rfl]
        refine (ih hbefore hafter).trans ?_
        cases keys with
        | nil => exact absurd List.nil_prefix hbefore
        | cons second keys => exact at?_nestedOrEmpty store key second keys
      · rw [if_neg hkey, at?_cons]

/-! ### The splitting of an assignment -/

/-- The keys along which a path is assigned. -/
def segmentKeys (path : String) : List String :=
  (segments path).1 :: (segments path).2

/-- A character in front of a path belongs to the first key. -/
theorem Splits.push {path : List Char} {key : String} {keys : List String} (c : Char)
    (h : Splits path (key :: keys)) : Splits (c :: path) (.ofList (c :: key.toList) :: keys) := by
  rw [splits_cons_iff, String.toList_ofList]
  rcases splits_cons_iff.1 h with ⟨hkeys, rfl⟩ | ⟨back, rfl, hback⟩
  · exact .inl ⟨hkeys, rfl⟩
  · exact .inr ⟨back, rfl, hback⟩

theorem splits_pieces (text : List Char) :
    Splits text (.ofList (Text.pieces pathSeparator text).1 ::
      (Text.pieces pathSeparator text).2.map .ofList) := by
  induction text with
  | nil => exact .whole ""
  | cons c rest ih =>
    rw [Text.pieces]
    split
    next hc =>
      subst hc
      exact .cut "" ih
    next => simpa using ih.push c

theorem not_mem_pieces (mark : Char) (text : List Char) :
    ∀ piece ∈ (Text.pieces mark text).1 :: (Text.pieces mark text).2, mark ∉ piece := by
  induction text with
  | nil => simp [Text.pieces]
  | cons c rest ih =>
    rw [List.forall_mem_cons] at ih
    rw [Text.pieces]
    split
    next => simpa using ih
    next hc => simpa [Ne.symm hc] using ih

theorem splits_segmentKeys (path : String) : Splits path.toList (segmentKeys path) :=
  splits_pieces path.toList

theorem separator_not_mem_segmentKeys (path : String) :
    ∀ key ∈ segmentKeys path, pathSeparator ∉ key.toList := by
  have hpieces := not_mem_pieces pathSeparator path.toList
  rw [List.forall_mem_cons] at hpieces
  simpa [segmentKeys, segments] using hpieces

/-- What begins a text and does not contain a character ends before the character. -/
theorem length_le_of_not_mem {mark : Char} {first second back tail : List Char}
    (h : first ++ tail = second ++ mark :: back) (hfree : mark ∉ first) :
    first.length ≤ second.length := by
  rcases List.append_eq_append_iff.1 h with ⟨more, rfl, -⟩ | ⟨more, rfl, hmore⟩
  · simp
  · cases more with
    | nil => simp
    | cons c more =>
      obtain ⟨rfl, -⟩ := List.cons.inj hmore
      exact absurd (List.mem_append_right second List.mem_cons_self) hfree

/-- A splitting at every separator is ahead of no other. -/
theorem Splits.not_ahead {path : List Char} {own keys : List String} (hown : Splits path own)
    (hfree : ∀ key ∈ own, pathSeparator ∉ key.toList) (h : Splits path keys) :
    ¬ Ahead own keys := by
  induction hown generalizing keys with
  | whole key =>
    obtain ⟨other, keys, rfl⟩ := h.exists_eq_cons
    rcases splits_cons_iff.1 h with ⟨rfl, hpath⟩ | ⟨back, hpath, -⟩
    · rw [String.toList_inj.1 hpath]
      exact lt_irrefl _
    · have hseparator : pathSeparator ∈ key.toList := by simp [hpath]
      exact absurd hseparator (hfree key List.mem_cons_self)
  | @cut key path rest hrest ih =>
    rw [List.forall_mem_cons] at hfree
    obtain ⟨other, keys, rfl⟩ := h.exists_eq_cons
    rw [ahead_cons_iff, ← String.length_toList, ← String.length_toList]
    rcases splits_cons_iff.1 h with ⟨-, hpath⟩ | ⟨back, hpath, hback⟩
    · have hlength := congrArg List.length hpath
      rw [List.length_append, List.length_cons] at hlength
      omega
    · rintro (hlt | ⟨hlength, hahead⟩)
      · have hle := length_le_of_not_mem hpath hfree.1
        omega
      · obtain ⟨-, htail⟩ := List.append_inj hpath hlength.symm
        obtain rfl := (List.cons.inj htail).2
        exact ih hfree.2 hback hahead

/-- The splittings ahead of the one of an assignment are those with a separator in a key. -/
theorem ahead_segmentKeys_iff {path : String} {keys : List String}
    (h : Splits path.toList keys) :
    Ahead keys (segmentKeys path) ↔ ∃ key ∈ keys, pathSeparator ∈ key.toList := by
  have hown := splits_segmentKeys path
  have hfree := separator_not_mem_segmentKeys path
  constructor
  · intro hahead
    by_contra hnone
    push Not at hnone
    exact h.not_ahead hnone hown hahead
  · rintro ⟨key, hkey, hseparator⟩
    rcases h.eq_or_ahead hown with rfl | hahead | hbehind
    · exact absurd hseparator (hfree key hkey)
    · exact hahead
    · exact absurd hbehind (hown.not_ahead hfree h)

/-! ### What a lookup sees of the later layer -/

/-- Some keys lead to a value of a store past a later one, which holds no text on the way there. -/
def LeadsPast (later earlier : Store) (keys : List String) (value : Value) : Prop :=
  earlier.Leads keys value ∧ ¬ later.Blocks keys

theorem lookupText_eq_some_iff {store : Store} {path text : String} :
    store.lookupText path = some text ↔ store.lookup path = some (.leaf text) := by
  rw [lookupText, Option.bind_eq_some_iff]
  constructor
  · rintro ⟨value, hvalue, htext⟩
    cases value with
    | leaf other => rw [hvalue, Option.some.inj htext]
    | nested inner => cases htext
  · intro h
    exact ⟨_, h, rfl⟩

/-- The splittings ahead of the one of an assignment lead to what they led to before. -/
theorem leads_assign_iff {store : Store} {path : String} {value held : Value}
    {keys : List String} (hkeys : Splits path.toList keys)
    (hahead : Ahead keys (segmentKeys path)) :
    (store.assign path value).Leads keys held ↔ store.Leads keys held := by
  have hown := splits_segmentKeys path
  have hne : keys ≠ segmentKeys path := by
    rintro rfl
    exact hahead.asymm hahead
  have hbefore : ¬ keys <+: segmentKeys path := fun h ↦ hne (hkeys.eq_of_begins hown h)
  have hafter : ¬ segmentKeys path <+: keys := fun h ↦ hne (hown.eq_of_begins hkeys h).symm
  rw [Leads, assign, at?_assignAt_of_apart hbefore hafter, Leads]

/-- An assigned value is looked up again, unless a splitting with a separator in a key leads to
another value first. -/
theorem lookup_assign_eq_some_iff (store : Store) (path : String) (value : Value) :
    (store.assign path value).lookup path = some value ↔
      ∀ keys held, FirstLeads path.toList store.Leads keys held →
        (∃ key ∈ keys, pathSeparator ∈ key.toList) → held = value := by
  have hvalue : (store.assign path value).Leads (segmentKeys path) value :=
    at?_assignAt_self store _ value _
  rw [lookup_eq_some_iff_of_leads (splits_segmentKeys path) hvalue
    fun keys hkeys hahead held ↦ leads_assign_iff hkeys hahead]
  refine forall₂_congr fun keys held ↦ forall_congr' fun hfirst ↦ ?_
  rw [ahead_segmentKeys_iff hfirst.1]

/-- A text of the later store is looked up again in the merged store, unless a splitting ahead of
the one that leads to it leads to another value of the earlier store first. -/
theorem lookupText_merge_eq_some_iff {earlier later : Store} {path text : String}
    {own : List String} (hown : FirstLeads path.toList later.Leads own (.leaf text)) :
    (earlier.merge later).lookupText path = some text ↔
      ∀ keys held, FirstLeads path.toList (later.LeadsPast earlier) keys held →
        Ahead keys own → held = .leaf text := by
  obtain ⟨hsplits, hleads, hfirst⟩ := hown
  rw [lookupText_eq_some_iff]
  refine lookup_eq_some_iff_of_leads hsplits (at?_merge_of_leaf hleads) ?_
  intro keys hkeys hahead held
  exact at?_merge_of_none (Option.eq_none_iff_forall_ne_some.2 (hfirst keys hkeys hahead))

/-- A later layer overrides an earlier one as far as the keys are cut in the same way. An assigned
value is looked up again unless a splitting with a separator in a key leads to another value of the
store first. A text of a later store is looked up again after a merge unless, ahead of the
splitting that leads to it there, another leads first to another value of the earlier store, past
the texts of the later one. -/
theorem lookup_override_iff (store earlier later : Store) (path text : String) (value : Value) :
    ((store.assign path value).lookup path = some value ↔
      ∀ keys held, FirstLeads path.toList store.Leads keys held →
        (∃ key ∈ keys, pathSeparator ∈ key.toList) → held = value) ∧
    (later.lookupText path = some text →
      ((earlier.merge later).lookupText path = some text ↔
        ∀ own keys held, FirstLeads path.toList later.Leads own (.leaf text) →
          FirstLeads path.toList (later.LeadsPast earlier) keys held → Ahead keys own →
            held = .leaf text)) := by
  refine ⟨lookup_assign_eq_some_iff store path value, fun hlater ↦ ?_⟩
  constructor
  · intro hmerged own keys held hown
    exact (lookupText_merge_eq_some_iff hown).1 hmerged keys held
  · intro hahead
    obtain ⟨own, hown⟩ := lookup_eq_some_iff.1 (lookupText_eq_some_iff.1 hlater)
    exact (lookupText_merge_eq_some_iff hown).2 fun keys held ↦ hahead own keys held hown

/-- The store of a text under the literal key `a.b`. -/
def literalKey (text : String) : Store :=
  empty.insert "a.b" (.leaf text)

/-- The store of a text under the key `b` of the store under the key `a`. -/
def nestedKey (text : String) : Store :=
  empty.insert "a" (.nested (empty.insert "b" (.leaf text)))

theorem eq_of_leads_nestedKey {text : String} {keys : List String} {held : Value}
    (h : Splits "a.b".toList keys) (hheld : (nestedKey text).Leads keys held) :
    keys = ["a", "b"] := by
  have hsplittings : splittings "a.b".toList = [["a.b"], ["a", "b"]] := by decide +kernel
  rw [← mem_splittings, hsplittings, List.mem_pair] at h
  rcases h with rfl | rfl
  · cases hheld
  · rfl

/-- A text along the keys `a` and `b` is overridden at the path `a.b`, by an assignment and by a
merge. -/
theorem nested_key_overridden :
    ((nestedKey "old").assign "a.b" (.leaf "new")).lookup "a.b" = some (.leaf "new") ∧
    (nestedKey "new").lookupText "a.b" = some "new" ∧
    ((nestedKey "old").merge (nestedKey "new")).lookupText "a.b" = some "new" := by
  have hlater : (nestedKey "new").lookupText "a.b" = some "new" := by decide +kernel
  obtain ⟨hassign, hmerge⟩ := lookup_override_iff (nestedKey "old") (nestedKey "old")
    (nestedKey "new") "a.b" "new" (.leaf "new")
  refine ⟨hassign.2 ?_, hlater, (hmerge hlater).2 ?_⟩
  · intro keys held hfirst hseparator
    rw [eq_of_leads_nestedKey hfirst.1 hfirst.2.1] at hseparator
    exact absurd hseparator (by decide)
  · intro own keys held hown hfirst hahead
    rw [eq_of_leads_nestedKey hown.1 hown.2.1, eq_of_leads_nestedKey hfirst.1 hfirst.2.1.1]
      at hahead
    exact absurd hahead hahead.asymm

/-- The literal key `a.b` keeps its text when another one is assigned at the path `a.b`, and when a
store that leads to another one along the keys `a` and `b` is merged on top. -/
theorem literal_key_not_overridden :
    ((literalKey "old").assign "a.b" (.leaf "new")).lookup "a.b" = some (.leaf "old") ∧
    (nestedKey "new").lookupText "a.b" = some "new" ∧
    ((literalKey "old").merge (nestedKey "new")).lookupText "a.b" = some "old" := by
  have hmerged : (literalKey "old").merge (nestedKey "new") =
      (literalKey "old").insert "a" (.nested (empty.insert "b" (.leaf "new"))) := rfl
  rw [hmerged]
  refine ⟨?_, ?_, ?_⟩ <;> decide +kernel

end BuildPlan.Store
