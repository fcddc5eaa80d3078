import BuildPlan.Proofs.Dictionary
import BuildPlan.Proofs.Project.Declaration
import BuildPlan.Proofs.Project.Values

/-!
# What the node of a step says

A step has the commands of the `run` nodes of its block, in order, and for each variable the last
text that the `env` nodes of the block give it (`Step.DeclaredBy`). What is read from a part of the
block and then from the rest is read from the whole (`Step.Collects.append`), so the block is
followed node by node.

The reading of a step fails for the first thing that is wrong with it: a name that is no string, or
else a command that is none (`Step.reports_ofNode`).
-/

set_option autoImplicit false
set_option relaxedAutoImplicit false

namespace BuildPlan

/-! ### What a step is -/

/-- The text of the first argument of a node, if that is not null. -/
def Kdl.Node.text? (node : Kdl.Node) : Option String :=
  node.argument?.bind Kdl.Value.text?

theorem Kdl.Node.stringArgument?_eq_some_iff {node : Kdl.Node} {text : String} :
    node.stringArgument? = some text ↔ node.argument? = some (.string text) := by
  unfold stringArgument?
  rw [Option.bind_eq_some_iff]
  constructor
  · rintro ⟨value, hvalue, htext⟩
    cases value with
    | string other =>
      obtain rfl := Option.some.inj htext
      exact hvalue
    | null | bool _ | integer _ | float _ => cases htext
  · exact fun hargument ↦ ⟨_, hargument, rfl⟩

namespace Step

/-- The nodes that declare variables, among the nodes in the block of a step. -/
def variableNodes (nodes : List Kdl.Node) : List Kdl.Node :=
  (nodes.filter (·.name = "env")).flatMap Kdl.Node.children

/-- What the nodes of a block add to a step: the commands in order, and for each variable the last
text that is given. -/
structure Collects (nodes : List Kdl.Node) (step step' : Step) : Prop where
  commands : ∃ commands, step'.commands = step.commands ++ commands ∧
    List.Forall₂ (fun child command ↦ child.argument? = some (.string command))
      (nodes.filter (·.name = "run")) commands
  environment : ∀ name, step'.environment.get? name =
    (Kdl.lastGiven? Kdl.Node.text? name (variableNodes nodes)).or (step.environment.get? name)

theorem Collects.append {nodes others : List Kdl.Node} {step step' step'' : Step}
    (h : Collects nodes step step') (h' : Collects others step' step'') :
    Collects (nodes ++ others) step step'' where
  commands := by
    obtain ⟨commands, hcommands, hall⟩ := h.commands
    obtain ⟨commands', hcommands', hall'⟩ := h'.commands
    refine ⟨commands ++ commands', by rw [hcommands', hcommands, List.append_assoc], ?_⟩
    rw [List.filter_append]
    exact List.rel_append hall hall'
  environment name := by
    rw [h'.environment, h.environment, variableNodes, variableNodes, variableNodes,
      List.filter_append, List.flatMap_append, Kdl.lastGiven?_append, Option.or_assoc]

theorem get?_addVariable (environment : Dictionary String) (node : Kdl.Node) (name : String) :
    (addVariable environment node).get? name =
      (if node.name = name then node.text? else none).or (environment.get? name) := by
  unfold addVariable Kdl.Node.text?
  cases node.argument?.bind Kdl.Value.text? with
  | none => rw [ite_self, Option.none_or]
  | some text =>
    rw [Dictionary.get?_insert]
    by_cases hname : node.name = name
    · rw [if_pos hname, if_pos hname.symm, Option.some_or]
    · rw [if_neg hname, if_neg (Ne.symm hname), Option.none_or]

theorem get?_foldl_addVariable (environment : Dictionary String) (nodes : List Kdl.Node)
    (name : String) : (nodes.foldl addVariable environment).get? name =
      (Kdl.lastGiven? Kdl.Node.text? name nodes).or (environment.get? name) := by
  induction nodes generalizing environment with
  | nil => rfl
  | cons node rest ih =>
    rw [List.foldl_cons, ih, ← List.singleton_append, Kdl.lastGiven?_append,
      Kdl.lastGiven?_singleton, Option.or_assoc, get?_addVariable]

theorem collects_addNode {step step' : Step} {node : Kdl.Node} (h : step.addNode node = .ok step') :
    Collects [node] step step' := by
  unfold addNode at h
  split_ifs at h with hrun henv
  · split at h
    next command hcommand =>
      obtain rfl := Except.ok.inj h
      refine ⟨⟨[command], rfl, ?_⟩, fun name ↦ ?_⟩
      · rw [List.filter_singleton, hrun]
        exact .cons (Kdl.Node.stringArgument?_eq_some_iff.1 hcommand) .nil
      · rw [variableNodes, List.filter_singleton, hrun]
        rfl
    next => cases h
  · obtain rfl := Except.ok.inj h
    refine ⟨⟨[], (List.append_nil _).symm, ?_⟩, fun name ↦ ?_⟩
    · rw [List.filter_singleton, henv]
      exact .nil
    · have hvariables : variableNodes [node] = node.children := by simp [variableNodes, henv]
      rw [hvariables]
      exact get?_foldl_addVariable _ _ _
  · obtain rfl := Except.ok.inj h
    refine ⟨⟨[], (List.append_nil _).symm, ?_⟩, fun name ↦ ?_⟩
    · simp [hrun]
    · simp [variableNodes, henv, Kdl.lastGiven?]

theorem collects_foldlM_addNode {step step' : Step} {nodes : List Kdl.Node}
    (h : nodes.foldlM addNode step = .ok step') : Collects nodes step step' := by
  induction nodes generalizing step with
  | nil =>
    obtain rfl := Except.ok.inj h
    exact ⟨⟨[], by simp, .nil⟩, fun name ↦ rfl⟩
  | cons node nodes ih =>
    rw [List.foldlM_cons, Except.bind_eq_ok_iff] at h
    obtain ⟨next, hnext, h⟩ := h
    exact (collects_addNode hnext).append (ih h)

/-- What the node of a step says about the step. -/
structure DeclaredBy (node : Kdl.Node) (step : Step) : Prop where
  /-- The name is the first argument. -/
  name : node.argument? = some (.string step.name)
  /-- The gate is the property `when`, if that is a string. -/
  gate : step.gate = (node.property? "when").bind Kdl.Value.string?
  /-- There is one command for each `run` node of the block, in order. -/
  commands : List.Forall₂ (fun child command ↦ child.argument? = some (.string command))
    (node.children.filter (·.name = "run")) step.commands
  /-- A variable has the last text that an `env` block gives it. -/
  environment : ∀ name, step.environment.get? name =
    Kdl.lastGiven? Kdl.Node.text? name (variableNodes node.children)

theorem declaredBy_of_ofNode {node : Kdl.Node} {step : Step} (h : ofNode node = .ok step) :
    DeclaredBy node step := by
  have hname := Kdl.Node.stringArgument?_eq_some_iff.1 (name_of_ofNode h)
  have hgate := gate_of_ofNode h
  unfold ofNode at h
  split at h
  · cases h
  obtain ⟨⟨commands, hcommands, hall⟩, henvironment⟩ := collects_foldlM_addNode h
  obtain rfl : step.commands = commands := hcommands
  exact ⟨hname, hgate, hall, fun name ↦ (henvironment name).trans (Option.or_none ..)⟩

/-- A step is determined by what its node says. -/
theorem DeclaredBy.unique {node : Kdl.Node} {step step' : Step} (h : DeclaredBy node step)
    (h' : DeclaredBy node step') : step = step' := by
  have hname := h.name.symm.trans h'.name
  have hgate := h.gate.trans h'.gate.symm
  have hcommands : step.commands = step'.commands := by
    refine Relator.RightUnique.forall₂ ?_ h.commands h'.commands
    intro child command command' hcommand hcommand'
    simpa using hcommand.symm.trans hcommand'
  have henvironment : step.environment = step'.environment :=
    Dictionary.ext_get? fun name ↦ (h.environment name).trans (h'.environment name).symm
  cases step
  cases step'
  simp_all

/-- Steps have the names that their nodes give them. -/
theorem filterMap_stringArgument? {nodes : List Kdl.Node} {steps : List Step}
    (h : List.Forall₂ DeclaredBy nodes steps) :
    nodes.filterMap Kdl.Node.stringArgument? = steps.map Step.name := by
  induction h with
  | nil => rfl
  | cons hhead _ ih =>
    rw [List.filterMap_cons_some (Kdl.Node.stringArgument?_eq_some_iff.2 hhead.name), ih]
    rfl

/-! ### What is wrong with a step -/

/-- What is wrong with a node in the block of a step. -/
def commandFailures (name : String) (child : Kdl.Node) : List ConfigError :=
  if child.name = "run" then
    match child.stringArgument? with
    | some _ => []
    | none => [.missingField ("command for step " ++ quoted name)]
  else []

theorem commandFailures_eq_nil_iff {name : String} {child : Kdl.Node} :
    commandFailures name child = [] ↔
      (child.name = "run" → ∃ command, child.argument? = some (.string command)) := by
  unfold commandFailures
  simp only [← Kdl.Node.stringArgument?_eq_some_iff]
  by_cases hrun : child.name = "run"
  · cases child.stringArgument? <;> simp [hrun]
  · simp [hrun]

theorem reports_addNode (step : Step) (child : Kdl.Node) :
    (step.addNode child).Reports (commandFailures step.name child) := by
  unfold addNode commandFailures
  split_ifs
  · cases child.stringArgument? <;> rfl
  · rfl
  · rfl

/-- What is wrong with the node of a step and its block, in document order. -/
def failures (node : Kdl.Node) : List ConfigError :=
  match node.stringArgument? with
  | none => [.missingField "step name"]
  | some name => node.children.flatMap (commandFailures name)

/-- A step is read if its name and its commands are strings. -/
theorem failures_eq_nil_iff {node : Kdl.Node} :
    failures node = [] ↔ (∃ name, node.argument? = some (.string name)) ∧
      ∀ child ∈ node.children, child.name = "run" →
        ∃ command, child.argument? = some (.string command) := by
  unfold failures
  simp only [← @Kdl.Node.stringArgument?_eq_some_iff node]
  cases node.stringArgument? <;> simp [List.flatMap_eq_nil_iff, commandFailures_eq_nil_iff]

theorem reports_ofNode (node : Kdl.Node) : (ofNode node).Reports (failures node) := by
  unfold ofNode failures
  cases node.stringArgument? with
  | none => rfl
  | some name =>
    -- the failures speak of the name, which no node of the block changes
    refine .foldlM (fun step ↦ step.name = name) ?_ ?_ rfl node.children
    · rintro step child rfl
      exact reports_addNode step child
    · exact fun step child step' hstep h ↦ (addNode_keeps h).1.trans hstep

end Step

end BuildPlan
