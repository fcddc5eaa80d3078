import BuildPlan.Proofs.Outcome
import BuildPlan.Proofs.Store.Keys
import BuildPlan.Project.Basic

/-!
# Blocks of values

The nodes of a block of values at every depth, in the order in which the document has them
(`Kdl.inOrder`), all need a value: a block of their own, or a first argument that is not null
(`Kdl.Node.HasValue`). A block is read if all of them have one, and otherwise the failure is about
the first that has none (`Store.reports_ofNodes`). The store that is read holds under each key what
the last node of that name gives (`Store.DeclaredBy`).
-/

set_option autoImplicit false
set_option relaxedAutoImplicit false

namespace BuildPlan

/-! ### Nodes in order -/

namespace Kdl

/-- The nodes in the block of a node. -/
def Node.children (node : Node) : List Node :=
  node.children?.getD []

/-- A node has a block, or a first argument that is not null. -/
def Node.HasValue (node : Node) : Prop :=
  node.children?.isSome ∨ ∃ value ∈ node.argument?, value ≠ .null

instance : DecidablePred Node.HasValue := fun node ↦
  inferInstanceAs (Decidable (node.children?.isSome ∨ ∃ value ∈ node.argument?, value ≠ .null))

mutual

/-- A node and the nodes at every depth below it, in document order. -/
def Node.inOrder : Node → List Node
  | .plain name entries => [.plain name entries]
  | .block name entries children => .block name entries children :: Kdl.inOrder children

/-- Nodes and the nodes at every depth below them, in document order. -/
def inOrder : List Node → List Node
  | [] => []
  | node :: rest => node.inOrder ++ inOrder rest

end

theorem Value.text?_eq_none_iff {value : Value} : value.text? = none ↔ value = .null := by
  cases value <;> simp [text?]

/-- A node without a block has a value if its first argument can be written as a text. -/
theorem Node.hasValue_plain {name : String} {entries : List Entry} :
    (Node.plain name entries).HasValue ↔
      (entries.findSome? Entry.argument?).bind Value.text? ≠ none := by
  change (false = true ∨ ∃ value ∈ entries.findSome? Entry.argument?, value ≠ .null) ↔ _
  cases entries.findSome? Entry.argument? <;> simp [Value.text?_eq_none_iff]

end Kdl

/-! ### Values that are missing -/

/-- What is wrong with a node of a block of values. -/
def Value.failures (node : Kdl.Node) : List ConfigError :=
  if node.HasValue then [] else [.missingField ("value for " ++ quoted node.name)]

/-- What is wrong with a block of values, in document order. -/
def Store.failures (nodes : List Kdl.Node) : List ConfigError :=
  (Kdl.inOrder nodes).flatMap Value.failures

theorem Store.failures_eq_nil_iff {nodes : List Kdl.Node} :
    failures nodes = [] ↔ ∀ node ∈ Kdl.inOrder nodes, node.HasValue := by
  simp [failures, Value.failures]

theorem Value.reports_ofEntries (name : String) (entries : List Kdl.Entry) :
    (ofEntries name entries).Reports (failures (.plain name entries)) := by
  unfold ofEntries
  split
  next text htext =>
    exact if_pos (Kdl.Node.hasValue_plain.2 (htext ▸ Option.some_ne_none text))
  next htext =>
    rw [failures, if_neg fun hvalue ↦ Kdl.Node.hasValue_plain.1 hvalue htext]
    rfl

mutual

theorem Value.reports_ofNode :
    ∀ node : Kdl.Node, (Value.ofNode node).Reports (node.inOrder.flatMap Value.failures)
  | .plain name entries => by
    rw [Value.ofNode, Kdl.Node.inOrder, List.flatMap_singleton]
    exact Value.reports_ofEntries name entries
  | .block name entries children => by
    have hblock : Value.failures (.block name entries children) = [] := if_pos (.inl rfl)
    rw [Value.ofNode, Kdl.Node.inOrder, List.flatMap_cons, hblock, List.nil_append]
    exact (Store.reports_addNodes .empty children).map _

theorem Store.reports_addNodes (store : Store) :
    ∀ nodes : List Kdl.Node, (store.addNodes nodes).Reports (Store.failures nodes)
  | [] => rfl
  | node :: rest => by
    rw [Store.addNodes, Store.failures, Kdl.inOrder, List.flatMap_append]
    exact (Value.reports_ofNode node).bind fun _ _ ↦ Store.reports_addNodes _ rest

end

/-- A block of values fails for its first node without a value. -/
theorem Store.reports_ofNodes (nodes : List Kdl.Node) :
    (ofNodes nodes).Reports (failures nodes) :=
  reports_addNodes .empty nodes

/-! ### Values that are given -/

namespace Kdl

variable {α : Type} (give : Node → Option α) (name : String)

/-- What the last of the nodes with a name gives, those apart that give nothing. -/
def lastGiven? (nodes : List Node) : Option α :=
  ((nodes.filter (·.name = name)).filterMap give).getLast?

theorem lastGiven?_append (nodes others : List Node) :
    lastGiven? give name (nodes ++ others) =
      (lastGiven? give name others).or (lastGiven? give name nodes) := by
  simp only [lastGiven?, List.filter_append, List.filterMap_append, List.getLast?_append]

theorem lastGiven?_singleton (node : Node) :
    lastGiven? give name [node] = if node.name = name then give node else none := by
  by_cases hname : node.name = name <;> cases hgive : give node <;> simp [lastGiven?, hname, hgive]

end Kdl

/-- The value of a node, if it can be read. -/
def Value.ofNode? (node : Kdl.Node) : Option Value :=
  (ofNode node).toOption

theorem Store.get?_addNodes {store result : Store} {nodes : List Kdl.Node}
    (h : store.addNodes nodes = .ok result) (key : String) :
    result.get? key = (Kdl.lastGiven? Value.ofNode? key nodes).or (store.get? key) := by
  induction nodes generalizing store with
  | nil =>
    obtain rfl := Except.ok.inj h
    rfl
  | cons node rest ih =>
    rw [addNodes, Except.bind_eq_ok_iff] at h
    obtain ⟨value, hvalue, h⟩ := h
    have hgiven : Value.ofNode? node = some value := by rw [Value.ofNode?, hvalue]; rfl
    rw [ih h, get?_insert, ← List.singleton_append, Kdl.lastGiven?_append, Kdl.lastGiven?_singleton,
      hgiven, Option.or_assoc]
    split <;> rfl

namespace Store

/-- A store holds under each key what the last node of that name gives. -/
def DeclaredBy (nodes : List Kdl.Node) (store : Store) : Prop :=
  ∀ key, store.get? key = Kdl.lastGiven? Value.ofNode? key nodes

theorem declaredBy_of_ofNodes {store : Store} {nodes : List Kdl.Node}
    (h : ofNodes nodes = .ok store) : DeclaredBy nodes store := by
  intro key
  rw [get?_addNodes h key, show empty.get? key = none from rfl, Option.or_none]

/-- The store of a block is determined by its nodes. -/
theorem DeclaredBy.unique {nodes : List Kdl.Node} {store other : Store}
    (h : DeclaredBy nodes store) (h' : DeclaredBy nodes other) : store = other :=
  ext_get? fun key ↦ (h key).trans (h' key).symm

end Store

end BuildPlan
