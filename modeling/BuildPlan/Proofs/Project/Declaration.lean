import BuildPlan.Project.Basic
import BuildPlan.Proofs.Outcome

/-!
# What the nodes of a document declare

The steps of a project are those of the step nodes of its document, one for each node and in the
same order (`steps_ofNodes`). A step has the name that its node has as first argument, and its gate
is the property `when` of the node, where it is a string (`Step.name_of_ofNode`,
`Step.gate_of_ofNode`).
-/

set_option autoImplicit false
set_option relaxedAutoImplicit false

namespace BuildPlan

/-! ### Properties of a node -/

namespace Kdl.Entry

theorem property?_eq_some_iff {name : String} {entry : Entry} {value : Value} :
    entry.property? name = some value ↔ entry = .property name value := by
  cases entry with
  | argument _ => simp [property?]
  | property other _ => by_cases h : other = name <;> simp [property?, h]

theorem property?_eq_none_iff {name : String} {entry : Entry} :
    entry.property? name = none ↔ ∀ value, entry ≠ .property name value := by
  simp only [Option.eq_none_iff_forall_ne_some, ne_eq, property?_eq_some_iff]

end Kdl.Entry

namespace Kdl.Node

/-- A node has a property with a value: of all properties of that name it is the last one. -/
def Declares (node : Node) (name : String) (value : Value) : Prop :=
  ∃ before after, node.entries = before ++ .property name value :: after ∧
    ∀ other, .property name other ∉ after

/-- A node has no property of a name. -/
def Lacks (node : Node) (name : String) : Prop :=
  ∀ value, .property name value ∉ node.entries

theorem property?_eq_some_iff {node : Node} {name : String} {value : Value} :
    node.property? name = some value ↔ node.Declares name value := by
  unfold property? Declares
  simp only [List.findSome?_eq_some_iff, Entry.property?_eq_some_iff, Entry.property?_eq_none_iff]
  constructor
  · rintro ⟨after, _, before, hentries, rfl, hafter⟩
    refine ⟨before.reverse, after.reverse, ?_, fun other hother ↦ ?_⟩
    · rw [← List.reverse_reverse node.entries, hentries]
      simp
    · exact hafter _ (List.mem_reverse.1 hother) other rfl
  · rintro ⟨before, after, hentries, hafter⟩
    refine ⟨after.reverse, _, before.reverse, ?_, rfl, ?_⟩
    · simp [hentries]
    · rintro entry hentry other rfl
      exact hafter other (List.mem_reverse.1 hentry)

theorem property?_eq_none_iff {node : Node} {name : String} :
    node.property? name = none ↔ node.Lacks name := by
  unfold property? Lacks
  simp only [List.findSome?_eq_none_iff, List.mem_reverse, Entry.property?_eq_none_iff]
  exact ⟨fun h value hmem ↦ h _ hmem value rfl, fun h entry hmem value heq ↦ h value (heq ▸ hmem)⟩

end Kdl.Node

/-! ### Steps -/

namespace Step

theorem addNode_keeps {step step' : Step} {node : Kdl.Node} (h : step.addNode node = .ok step') :
    step'.name = step.name ∧ step'.gate = step.gate := by
  unfold addNode at h
  split_ifs at h
  · split at h
    · obtain rfl := Except.ok.inj h
      exact ⟨rfl, rfl⟩
    · cases h
  · obtain rfl := Except.ok.inj h
    exact ⟨rfl, rfl⟩
  · obtain rfl := Except.ok.inj h
    exact ⟨rfl, rfl⟩

/-- The nodes in the block of a step change neither its name nor its gate. -/
theorem foldlM_addNode_keeps {step step' : Step} {nodes : List Kdl.Node}
    (h : nodes.foldlM addNode step = .ok step') :
    step'.name = step.name ∧ step'.gate = step.gate := by
  induction nodes generalizing step with
  | nil =>
    obtain rfl := Except.ok.inj h
    exact ⟨rfl, rfl⟩
  | cons node nodes ih =>
    rw [List.foldlM_cons, Except.bind_eq_ok_iff] at h
    obtain ⟨next, hnext, h⟩ := h
    obtain ⟨hname, hgate⟩ := addNode_keeps hnext
    obtain ⟨hname', hgate'⟩ := ih h
    exact ⟨hname'.trans hname, hgate'.trans hgate⟩

/-- A step is named by its node. -/
theorem name_of_ofNode {node : Kdl.Node} {step : Step} (h : ofNode node = .ok step) :
    node.stringArgument? = some step.name := by
  unfold ofNode at h
  split at h
  · cases h
  next name hname => rw [hname, (foldlM_addNode_keeps h).1]

/-- The gate of a step is the property `when` of its node, if that is a string. -/
theorem gate_of_ofNode {node : Kdl.Node} {step : Step} (h : ofNode node = .ok step) :
    step.gate = (node.property? "when").bind Kdl.Value.string? := by
  unfold ofNode at h
  split at h
  · cases h
  · exact (foldlM_addNode_keeps h).2

end Step

/-! ### Projects -/

namespace Project

/-- A node that is no step node leaves the steps as they are. -/
theorem steps_addNode_of_ne {project project' : Project} {node : Kdl.Node}
    (hname : node.name ≠ "step") (h : project.addNode node = .ok project') :
    project'.steps = project.steps := by
  unfold addNode at h
  rw [if_neg hname] at h
  split_ifs at h
  · obtain rfl := Except.ok.inj h
    rfl
  · split at h
    · obtain rfl := Except.ok.inj h
      rfl
    · obtain ⟨values, -, h⟩ := Except.bind_eq_ok_iff.1 h
      obtain rfl := Except.ok.inj h
      rfl
  · obtain rfl := Except.ok.inj h
    rfl

/-- A step node adds its step at the end. -/
theorem steps_addNode {project project' : Project} {node : Kdl.Node} (hname : node.name = "step")
    (h : project.addNode node = .ok project') :
    ∃ step, Step.ofNode node = .ok step ∧ project'.steps = project.steps ++ [step] := by
  unfold addNode at h
  rw [hname, if_neg (by decide), if_neg (by decide), if_pos rfl] at h
  obtain ⟨step, hstep, h⟩ := Except.bind_eq_ok_iff.1 h
  split_ifs at h
  obtain rfl := Except.ok.inj h
  exact ⟨step, hstep, rfl⟩

/-- The nodes of a document add the steps of the step nodes, in order. -/
theorem steps_foldlM_addNode {project project' : Project} {nodes : List Kdl.Node}
    (h : nodes.foldlM addNode project = .ok project') :
    ∃ steps, project'.steps = project.steps ++ steps ∧
      List.Forall₂ (fun node step ↦ Step.ofNode node = .ok step)
        (nodes.filter (·.name = "step")) steps := by
  induction nodes generalizing project with
  | nil =>
    obtain rfl := Except.ok.inj h
    exact ⟨[], by simp, .nil⟩
  | cons node nodes ih =>
    rw [List.foldlM_cons, Except.bind_eq_ok_iff] at h
    obtain ⟨next, hnext, h⟩ := h
    obtain ⟨steps, hsteps, hall⟩ := ih h
    by_cases hname : node.name = "step"
    · obtain ⟨step, hstep, hadded⟩ := steps_addNode hname hnext
      refine ⟨step :: steps, by rw [hsteps, hadded, List.append_assoc, List.singleton_append], ?_⟩
      rw [List.filter_cons_of_pos (by simpa using hname)]
      exact .cons hstep hall
    · refine ⟨steps, by rw [hsteps, steps_addNode_of_ne hname hnext], ?_⟩
      rwa [List.filter_cons_of_neg (by simpa using hname)]

/-- The steps of a project are those of the step nodes of its document, in order. -/
theorem steps_ofNodes {nodes : List Kdl.Node} {project : Project}
    (h : ofNodes nodes = .ok project) :
    List.Forall₂ (fun node step ↦ Step.ofNode node = .ok step)
      (nodes.filter (·.name = "step")) project.steps := by
  obtain ⟨steps, hsteps, hall⟩ := steps_foldlM_addNode h
  rw [hsteps]
  exact hall

end Project

end BuildPlan
