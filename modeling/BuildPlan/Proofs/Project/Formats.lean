import Mathlib.Algebra.Group.Int.Defs
import BuildPlan.Proofs.Project.Splitting
import BuildPlan.Proofs.Store.JsonPath

/-!
# Values in two formats

Values are given in a block of a document or in a JSON object, and the readers of the two have
nothing in common. A tree of named values (`NamedValue`) can be written in both formats: a single
value as a node with one argument or as a member, a group as a node with a block or as an object.

`NamedValue.formats_agree` says that the two readers accept every such tree and give the same store.
If the names of each group are distinct, the store has each single value and each group at the names
that lead to it, and nothing else. Nothing is asked of the names, which may be empty and may have
dots and colons, and a group may be empty.
-/

set_option autoImplicit false
set_option relaxedAutoImplicit false

namespace BuildPlan

/-- A single value that both formats have: a text, a boolean, or an integer that a number of a JSON
text keeps exactly. -/
inductive Atom where
  | string (text : String)
  | bool (value : Bool)
  | integer (value : Int) (lower : -2 ^ 63 ≤ value) (upper : value < 2 ^ 64)

/-- A single value with a name, or a group of named values with a name. -/
inductive NamedValue where
  | single (name : String) (atom : Atom)
  | group (name : String) (members : List NamedValue)

namespace Atom

/-- The argument of a node that a single value is written as. -/
def argument : Atom → Kdl.Value
  | .string text => .string text
  | .bool value => .bool value
  | .integer value _ _ => .integer value

/-- The JSON value that a single value is written as. -/
def json : Atom → Json
  | .string text => .string text
  | .bool value => .bool value
  | .integer value _ _ => .number (.integer value)

/-- The text that a single value is loaded as. -/
def printed : Atom → String
  | .string text => text
  | .bool value => toString value
  | .integer value _ _ => toString value

theorem text?_argument (atom : Atom) : atom.argument.text? = some atom.printed := by
  cases atom <;> rfl

theorem value?_json (atom : Atom) : atom.json.value? = some (.leaf atom.printed) := by
  cases atom <;> rfl

end Atom

namespace NamedValue

/-- The name of a named value. -/
def name : NamedValue → String
  | .single name _ => name
  | .group name _ => name

/-! ### Writing named values -/

mutual

/-- The node that a named value is written as: a single value is its argument, and the members of a
group are its block. -/
def node : NamedValue → Kdl.Node
  | .single name atom => .plain name [.argument atom.argument]
  | .group name members => .block name [] (nodes members)

/-- The nodes that named values are written as. -/
def nodes : List NamedValue → List Kdl.Node
  | [] => []
  | value :: rest => value.node :: nodes rest

end

mutual

/-- The JSON value that a named value is written as, without its name. -/
def json : NamedValue → Json
  | .single _ atom => atom.json
  | .group _ members => .object (jsonMembers members)

/-- The members of a JSON object that named values are written as. -/
def jsonMembers : List NamedValue → List (String × Json)
  | [] => []
  | value :: rest => (value.name, value.json) :: jsonMembers rest

end

theorem name_node (value : NamedValue) : value.node.name = value.name := by
  cases value <;> rfl

theorem jsonMembers_eq_map (values : List NamedValue) :
    jsonMembers values = values.map fun value ↦ (value.name, value.json) := by
  induction values with
  | nil => rfl
  | cons value rest ih => rw [jsonMembers, ih, List.map_cons]

/-! ### Reading them again -/

mutual

/-- A named value is loaded from its node as from its JSON value. -/
theorem exists_ofNode_node : ∀ value : NamedValue, ∃ loaded,
    Value.ofNode value.node = .ok loaded ∧ value.json.value? = some loaded
  | .single name atom => by
    refine ⟨.leaf atom.printed, ?_, atom.value?_json⟩
    have hargument : ([Kdl.Entry.argument atom.argument].findSome? Kdl.Entry.argument?).bind
        Kdl.Value.text? = some atom.printed := atom.text?_argument
    rw [node, Value.ofNode, Value.ofEntries, hargument]
  | .group name members => by
    refine ⟨.nested (Json.memberStore .empty (jsonMembers members)), ?_, rfl⟩
    rw [node, Value.ofNode, addNodes_nodes .empty members]
    rfl

/-- Named values are added to a store from their nodes as from their members. -/
theorem addNodes_nodes (store : Store) : ∀ values : List NamedValue,
    store.addNodes (nodes values) = .ok (Json.memberStore store (jsonMembers values))
  | [] => rfl
  | value :: rest => by
    obtain ⟨loaded, hnode, hjson⟩ := exists_ofNode_node value
    rw [nodes, Store.addNodes, hnode, name_node, jsonMembers, Json.memberStore, hjson]
    exact addNodes_nodes (store.insert value.name loaded) rest

end

/-- Only single values are loaded as texts. -/
theorem value?_json_eq_leaf_iff {value : NamedValue} {text : String} :
    value.json.value? = some (.leaf text) ↔
      ∃ name atom, value = single name atom ∧ atom.printed = text := by
  constructor
  · intro h
    cases value with
    | single name atom =>
      rw [json, atom.value?_json, Option.some_inj, Value.leaf.injEq] at h
      exact ⟨name, atom, rfl, h⟩
    | group name members => cases h
  · rintro ⟨name, atom, rfl, rfl⟩
    exact atom.value?_json

/-- Only groups are loaded as nested stores. -/
theorem exists_value?_json_eq_nested_iff {value : NamedValue} :
    (∃ inner, value.json.value? = some (.nested inner)) ↔
      ∃ name members, value = group name members := by
  constructor
  · rintro ⟨inner, h⟩
    cases value with
    | single name atom =>
      rw [json, atom.value?_json] at h
      cases h
    | group name members => exact ⟨name, members, rfl⟩
  · rintro ⟨name, members, rfl⟩
    exact ⟨_, rfl⟩

/-- A document with one block of values is loaded as the project with these values. -/
theorem ofNodes_valuesBlock {children : List Kdl.Node} {store : Store}
    (h : Store.ofNodes children = .ok store) : Project.ofNodes [Project.valuesBlock children] =
      .ok { Project.empty with values := store } := by
  have hblock : Project.addNode .empty (Project.valuesBlock children) =
      (Store.ofNodes children >>= fun values ↦
        .ok { Project.empty with values := Store.empty.merge values }) := rfl
  rw [Project.ofNodes, List.foldlM_cons, hblock, h]
  change Except.ok { Project.empty with values := Store.empty.merge store } = _
  rw [Store.empty_merge]

/-! ### Names that lead to values -/

/-- Some names lead from a group into it, one after the other. -/
inductive Leads : NamedValue → List String → NamedValue → Prop
  /-- No names lead to the value itself. -/
  | here (value : NamedValue) : Leads value [] value
  /-- The name of a member leads into a group, and the others go on from there. -/
  | inside {name : String} {members : List NamedValue} {value found : NamedValue}
    {names : List String} (hmember : value ∈ members) (hrest : value.Leads names found) :
    Leads (.group name members) (value.name :: names) found

/-- The members of each group have distinct names. -/
inductive Distinct : NamedValue → Prop
  | single (name : String) (atom : Atom) : Distinct (.single name atom)
  | group (name : String) {members : List NamedValue}
    (hnames : (members.map NamedValue.name).Nodup) (hmembers : ∀ value ∈ members, value.Distinct) :
    Distinct (.group name members)

theorem leads_nil_iff {value found : NamedValue} : value.Leads [] found ↔ found = value := by
  constructor
  · intro h
    cases h with
    | here => rfl
  · rintro rfl
    exact .here found

/-- A single value leads nowhere. -/
theorem not_leads_single {name key : String} {atom : Atom} {names : List String}
    {found : NamedValue} : ¬ (single name atom).Leads (key :: names) found := by
  intro h
  cases h

theorem leads_group_iff {name key : String} {members : List NamedValue} {names : List String}
    {found : NamedValue} : (group name members).Leads (key :: names) found ↔
      ∃ value ∈ members, value.name = key ∧ value.Leads names found := by
  constructor
  · intro h
    cases h with
    | inside hmember hrest => exact ⟨_, hmember, rfl, hrest⟩
  · rintro ⟨value, hmember, rfl, hrest⟩
    exact .inside hmember hrest

/-- In an object of named values with distinct names a key leads to the value of its name. -/
theorem child_jsonMembers_iff {members : List NamedValue} {key : String} {item : Json}
    (h : (members.map name).Nodup) : (Json.object (jsonMembers members)).Child key item ↔
      ∃ value ∈ members, value.name = key ∧ value.json = item := by
  have hnames : ((jsonMembers members).reverse.map Prod.fst).Nodup := by
    rw [List.map_reverse, List.nodup_reverse, jsonMembers_eq_map, List.map_map]
    exact h
  have hmem : (key, item) ∈ (jsonMembers members).reverse ↔
      ∃ value ∈ members, value.name = key ∧ value.json = item := by
    rw [List.mem_reverse, jsonMembers_eq_map]
    simp only [List.mem_map, Prod.mk.injEq]
  rw [← hmem, ← Dictionary.lookup_eq_some_iff_mem hnames]
  constructor
  · rintro (_ | hitem)
    exact hitem
  · exact .member

/-- The JSON value of a named value leads where the named value leads. -/
theorem reaches_json_iff {value : NamedValue} {names : List String} {item : Json}
    (h : value.Distinct) : value.json.Reaches names item ↔
      ∃ found, value.Leads names found ∧ found.json = item := by
  induction names generalizing value with
  | nil =>
    simp only [Json.reaches_nil_iff, leads_nil_iff, exists_eq_left]
    exact eq_comm
  | cons key names ih =>
    rw [Json.reaches_cons_iff]
    cases h with
    | single name atom =>
      refine iff_of_false ?_ ?_
      · rintro ⟨child, hchild, -⟩
        obtain ⟨_, _, hgroup⟩ := exists_value?_json_eq_nested_iff.1
          (Json.exists_value?_eq_nested_iff.2 hchild.isContainer)
        cases hgroup
      · rintro ⟨found, hfound, -⟩
        exact not_leads_single hfound
    | group name hnames hmembers =>
      simp only [json, child_jsonMembers_iff hnames, leads_group_iff]
      constructor
      · rintro ⟨_, ⟨value, hvalue, hname, rfl⟩, hrest⟩
        obtain ⟨found, hfound, hitem⟩ := (ih (hmembers value hvalue)).1 hrest
        exact ⟨found, ⟨value, hvalue, hname, hfound⟩, hitem⟩
      · rintro ⟨found, ⟨value, hvalue, hname, hfound⟩, hitem⟩
        exact ⟨value.json, ⟨value, hvalue, hname, rfl⟩,
          (ih (hmembers value hvalue)).2 ⟨found, hfound, hitem⟩⟩

/-- The store of named values with distinct names has at every path what the named value that the
names lead to is loaded as. -/
theorem at?_memberStore_iff {name : String} {members : List NamedValue} {keys : List String}
    {loaded : Value} (h : (group name members).Distinct) :
    (Json.memberStore .empty (jsonMembers members)).at? keys = some loaded ↔
      ∃ found, (group name members).Leads keys found ∧ found.json.value? = some loaded := by
  have hreaches (item : Json) : (Json.object (jsonMembers members)).Reaches keys item ↔
      ∃ found, (group name members).Leads keys found ∧ found.json = item := reaches_json_iff h
  simp only [Json.at?_memberStore_eq_some_iff, hreaches]
  constructor
  · rintro ⟨_, ⟨found, hfound, rfl⟩, hloaded⟩
    exact ⟨found, hfound, hloaded⟩
  · rintro ⟨found, hfound, hloaded⟩
    exact ⟨found.json, ⟨found, hfound, rfl⟩, hloaded⟩

/-- Named values can be written as a block of values and as a JSON object, and the readers of both
give one store. If the names of each group are distinct, the store has each single value as a text
and each group as a nested store at the names that lead there, and nothing else. -/
theorem formats_agree (values : List NamedValue) : ∃ store,
    Store.ofNodes (nodes values) = .ok store ∧
    Project.ofNodes [Project.valuesBlock (nodes values)] =
      .ok { Project.empty with values := store } ∧
    Store.ofJson (.object (jsonMembers values)) = .ok store ∧
    ((group "values" values).Distinct → ∀ keys,
      (∀ text, store.at? keys = some (.leaf text) ↔
        ∃ name atom, (group "values" values).Leads keys (single name atom) ∧
          atom.printed = text) ∧
      ((∃ inner, store.at? keys = some (.nested inner)) ↔
        ∃ name members, (group "values" values).Leads keys (group name members))) := by
  have hnodes : Store.ofNodes (nodes values) =
      .ok (Json.memberStore .empty (jsonMembers values)) := addNodes_nodes .empty values
  refine ⟨_, hnodes, ofNodes_valuesBlock hnodes, rfl, fun hdistinct keys ↦ ?_⟩
  refine ⟨fun text ↦ ?texts, ?groups⟩
  case texts =>
    simp only [at?_memberStore_iff hdistinct, value?_json_eq_leaf_iff]
    constructor
    · rintro ⟨_, hfound, name, atom, rfl, htext⟩
      exact ⟨name, atom, hfound, htext⟩
    · rintro ⟨name, atom, hfound, htext⟩
      exact ⟨_, hfound, name, atom, rfl, htext⟩
  case groups =>
    simp only [at?_memberStore_iff hdistinct]
    constructor
    · rintro ⟨inner, found, hfound, hinner⟩
      obtain ⟨name, members, rfl⟩ := exists_value?_json_eq_nested_iff.1 ⟨inner, hinner⟩
      exact ⟨name, members, hfound⟩
    · rintro ⟨name, members, hfound⟩
      exact ⟨_, _, hfound, rfl⟩

/-- Named values of each kind, with separators in two names and a group without members. -/
def sampleValues : List NamedValue :=
  [single "a.b" (.bool true),
    group "a" [group "b" [], single "b:c" (.integer 7 (by decide) (by decide))]]

/-- The separators in the names count for nothing, and the group without members is kept. -/
theorem sample_values_agree : ∃ store,
    Project.ofNodes [Project.valuesBlock (nodes sampleValues)] =
      .ok { Project.empty with values := store } ∧
    Store.ofJson (.object (jsonMembers sampleValues)) = .ok store ∧
    (group "values" sampleValues).Distinct ∧
    store.at? ["a.b"] = some (.leaf "true") ∧ store.at? ["a", "b:c"] = some (.leaf "7") ∧
    ∃ inner, store.at? ["a", "b"] = some (.nested inner) := by
  have hdistinct : (group "values" sampleValues).Distinct := by
    refine .group "values" (by decide) (List.forall_mem_cons.2 ⟨.single .., ?_⟩)
    refine List.forall_mem_singleton.2 (.group "a" (by decide) (List.forall_mem_cons.2 ⟨?_, ?_⟩))
    · exact .group "b" .nil nofun
    · exact List.forall_mem_singleton.2 (.single ..)
  have hgroup : group "a" _ ∈ sampleValues := .tail _ (.head _)
  obtain ⟨store, -, hblock, hobject, hat⟩ := formats_agree sampleValues
  refine ⟨store, hblock, hobject, hdistinct, ?_, ?_, ?_⟩
  · exact ((hat hdistinct ["a.b"]).1 "true").2 ⟨_, _, .inside (.head _) (.here _), rfl⟩
  · exact ((hat hdistinct ["a", "b:c"]).1 "7").2
      ⟨_, _, .inside hgroup (.inside (.tail _ (.head _)) (.here _)), rfl⟩
  · exact (hat hdistinct ["a", "b"]).2.2 ⟨_, _, .inside hgroup (.inside (.head _) (.here _))⟩

end NamedValue

end BuildPlan
