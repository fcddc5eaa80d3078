import BuildPlan.Proofs.Project.Steps

/-!
# What loading a document gives

A document is accepted if the nodes in its blocks of values have values, its steps and their
commands are given as strings, and no two steps have one name (`Project.Accepted`). The project that
is loaded has the steps in the order of the document, the blocks of values merged in that order, and
the settings of the last settings node (`Project.Declares`). Both look at the nodes of one kind at a
time, so it does not matter how the kinds are mixed.

Loading fails for the first thing that is wrong with the document (`Project.failures`). A step is
read with its block before its name is looked for among the earlier steps, so a repeated name comes
after what is wrong in the block (`RepeatedName.behindBlock`). In the order of the document it would
come first, where the step begins (`Project.repeated_name_found_late`). The main result is
`Project.ofNodes_exact`.
-/

set_option autoImplicit false
set_option relaxedAutoImplicit false

namespace BuildPlan

/-- Where a step counts as wrong if an earlier step has its name. -/
inductive RepeatedName where
  /-- Where the step begins, in front of the nodes of its block. -/
  | atStart
  /-- Behind the nodes of its block. -/
  | behindBlock

namespace Project

/-! ### Parts of a document -/

/-- The blocks of values. -/
def valueBlocks (nodes : List Kdl.Node) : List (List Kdl.Node) :=
  (nodes.filter (·.name = "values")).filterMap Kdl.Node.children?

/-- The nodes of steps. -/
def stepNodes (nodes : List Kdl.Node) : List Kdl.Node :=
  nodes.filter (·.name = "step")

/-- The names that the nodes of steps have. -/
def stepNames (nodes : List Kdl.Node) : List String :=
  (stepNodes nodes).filterMap Kdl.Node.stringArgument?

/-- The settings of the last settings node, if there is one. -/
def lastSettings? (nodes : List Kdl.Node) : Option Settings :=
  (nodes.filter (·.name = "settings")).getLast?.map Settings.ofNode

theorem valueBlocks_append (nodes others : List Kdl.Node) :
    valueBlocks (nodes ++ others) = valueBlocks nodes ++ valueBlocks others := by
  simp only [valueBlocks, List.filter_append, List.filterMap_append]

theorem stepNodes_append (nodes others : List Kdl.Node) :
    stepNodes (nodes ++ others) = stepNodes nodes ++ stepNodes others :=
  List.filter_append ..

theorem stepNames_append (nodes others : List Kdl.Node) :
    stepNames (nodes ++ others) = stepNames nodes ++ stepNames others := by
  simp only [stepNames, stepNodes_append, List.filterMap_append]

theorem lastSettings?_append (nodes others : List Kdl.Node) :
    lastSettings? (nodes ++ others) = (lastSettings? others).or (lastSettings? nodes) := by
  simp only [lastSettings?, List.filter_append, List.getLast?_append, Option.map_or]

/-! ### What a document says -/

/-- A document that can be loaded. -/
@[mk_iff]
structure Accepted (nodes : List Kdl.Node) : Prop where
  /-- Every node at every depth of a block of values has a value. -/
  values : ∀ block ∈ valueBlocks nodes, ∀ node ∈ Kdl.inOrder block, node.HasValue
  /-- Every step has a string as name. -/
  names : ∀ node ∈ stepNodes nodes, ∃ name, node.argument? = some (.string name)
  /-- Every `run` node of a step has a string as command. -/
  commands : ∀ node ∈ stepNodes nodes, ∀ child ∈ node.children, child.name = "run" →
    ∃ command, child.argument? = some (.string command)
  /-- No two steps have one name. -/
  distinct : (stepNames nodes).Nodup

/-- What the nodes of a document say about its project. -/
structure Declares (nodes : List Kdl.Node) (project : Project) : Prop where
  /-- There is one step for each node of a step, in order. -/
  steps : List.Forall₂ Step.DeclaredBy (stepNodes nodes) project.steps
  /-- The steps have different names. -/
  distinct : (project.steps.map Step.name).Nodup
  /-- The stores of the blocks of values are merged from left to right. -/
  values : ∃ layers, List.Forall₂ Store.DeclaredBy (valueBlocks nodes) layers ∧
    project.values = layers.foldl Store.merge .empty
  /-- The settings are those of the last settings node alone. -/
  settings : project.settings = (lastSettings? nodes).getD .default

/-- The step of a node has the name of an earlier one. -/
def repeatedFailures (earlier : List Kdl.Node) (node : Kdl.Node) : List ConfigError :=
  match node.stringArgument? with
  | some name => if name ∈ stepNames earlier then [.duplicate ("step " ++ quoted name)] else []
  | none => []

/-- What is wrong with a node of a document, behind some earlier nodes. -/
def nodeFailures (repeatedName : RepeatedName) (earlier : List Kdl.Node) (node : Kdl.Node) :
    List ConfigError :=
  if node.name = "values" then Store.failures node.children
  else if node.name = "step" then
    match repeatedName with
    | .atStart => repeatedFailures earlier node ++ Step.failures node
    | .behindBlock => Step.failures node ++ repeatedFailures earlier node
  else []

/-- What is wrong with some nodes of a document behind earlier ones. -/
def failuresBehind (repeatedName : RepeatedName) (earlier : List Kdl.Node) :
    List Kdl.Node → List ConfigError
  | [] => []
  | node :: rest =>
    nodeFailures repeatedName earlier node ++ failuresBehind repeatedName (earlier ++ [node]) rest

/-- What is wrong with a document, from its first node to its last. -/
def failures (repeatedName : RepeatedName) (nodes : List Kdl.Node) : List ConfigError :=
  failuresBehind repeatedName [] nodes

/-! ### What nodes add to a project -/

/-- What some nodes of a document add to a project: steps at the end, stores that are merged, and
settings in place of those that were there. -/
structure Collects (nodes : List Kdl.Node) (project project' : Project) : Prop where
  steps : ∃ steps, project'.steps = project.steps ++ steps ∧
    List.Forall₂ Step.DeclaredBy (stepNodes nodes) steps
  distinct : (project.steps.map Step.name).Nodup → (project'.steps.map Step.name).Nodup
  values : ∃ layers, project'.values = layers.foldl Store.merge project.values ∧
    List.Forall₂ Store.DeclaredBy (valueBlocks nodes) layers
  settings : project'.settings = (lastSettings? nodes).getD project.settings

theorem Collects.append {nodes others : List Kdl.Node} {project project' project'' : Project}
    (h : Collects nodes project project') (h' : Collects others project' project'') :
    Collects (nodes ++ others) project project'' where
  steps := by
    obtain ⟨steps, hsteps, hall⟩ := h.steps
    obtain ⟨steps', hsteps', hall'⟩ := h'.steps
    refine ⟨steps ++ steps', by rw [hsteps', hsteps, List.append_assoc], ?_⟩
    rw [stepNodes_append]
    exact List.rel_append hall hall'
  distinct := h'.distinct ∘ h.distinct
  values := by
    obtain ⟨layers, hlayers, hall⟩ := h.values
    obtain ⟨layers', hlayers', hall'⟩ := h'.values
    refine ⟨layers ++ layers', by rw [hlayers', hlayers, List.foldl_append], ?_⟩
    rw [valueBlocks_append]
    exact List.rel_append hall hall'
  settings := by
    rw [h'.settings, h.settings, lastSettings?_append]
    cases lastSettings? others <;> rfl

/-- A step with a new name is added at the end. -/
theorem collects_step {project : Project} {node : Kdl.Node} {step : Step}
    (hname : node.name = "step") (hstep : Step.ofNode node = .ok step)
    (hnew : step.name ∉ project.steps.map Step.name) :
    Collects [node] project { project with steps := project.steps ++ [step] } where
  steps := by
    refine ⟨[step], rfl, ?_⟩
    have hnode : stepNodes [node] = [node] := by simp [stepNodes, hname]
    rw [hnode]
    exact .cons (Step.declaredBy_of_ofNode hstep) .nil
  distinct hdistinct := by
    rw [List.map_append, List.map_singleton, ← List.concat_eq_append]
    exact hdistinct.concat hnew
  values := ⟨[], rfl, by simp [valueBlocks, hname]⟩
  settings := by simp [lastSettings?, hname]

/-- The store of a block of values is merged. -/
theorem collects_values {project : Project} {node : Kdl.Node} {children : List Kdl.Node}
    {layer : Store} (hname : node.name = "values") (hchildren : node.children? = some children)
    (hlayer : Store.ofNodes children = .ok layer) :
    Collects [node] project { project with values := project.values.merge layer } where
  steps := ⟨[], by simp, by simp [stepNodes, hname]⟩
  distinct := id
  values := by
    refine ⟨[layer], rfl, ?_⟩
    have hblock : valueBlocks [node] = [children] := by simp [valueBlocks, hname, hchildren]
    rw [hblock]
    exact .cons (Store.declaredBy_of_ofNodes hlayer) .nil
  settings := by simp [lastSettings?, hname]

theorem collects_addNode {project project' : Project} {node : Kdl.Node}
    (h : project.addNode node = .ok project') : Collects [node] project project' := by
  unfold addNode at h
  split_ifs at h with hsettings hvalues hstep
  · obtain rfl := Except.ok.inj h
    exact ⟨⟨[], by simp, by simp [stepNodes, hsettings]⟩, id,
      ⟨[], rfl, by simp [valueBlocks, hsettings]⟩, by simp [lastSettings?, hsettings]⟩
  · split at h
    next hnoBlock =>
      obtain rfl := Except.ok.inj h
      exact ⟨⟨[], by simp, by simp [stepNodes, hvalues]⟩, id,
        ⟨[], rfl, by simp [valueBlocks, hvalues, hnoBlock]⟩, by simp [lastSettings?, hvalues]⟩
    next children hchildren =>
      obtain ⟨layer, hlayer, h⟩ := Except.bind_eq_ok_iff.1 h
      obtain rfl := Except.ok.inj h
      exact collects_values hvalues hchildren hlayer
  · obtain ⟨step, hofNode, h⟩ := Except.bind_eq_ok_iff.1 h
    split_ifs at h with hnew
    obtain rfl := Except.ok.inj h
    exact collects_step hstep hofNode (by simpa using hnew)
  · obtain rfl := Except.ok.inj h
    exact ⟨⟨[], by simp, by simp [stepNodes, hstep]⟩, id, ⟨[], rfl, by simp [valueBlocks, hvalues]⟩,
      by simp [lastSettings?, hsettings]⟩

theorem collects_foldlM_addNode {project project' : Project} {nodes : List Kdl.Node}
    (h : nodes.foldlM addNode project = .ok project') : Collects nodes project project' := by
  induction nodes generalizing project with
  | nil =>
    obtain rfl := Except.ok.inj h
    exact ⟨⟨[], by simp, .nil⟩, id, ⟨[], rfl, .nil⟩, rfl⟩
  | cons node nodes ih =>
    rw [List.foldlM_cons, Except.bind_eq_ok_iff] at h
    obtain ⟨next, hnext, h⟩ := h
    exact (collects_addNode hnext).append (ih h)

/-- A project that is loaded is what its document says. -/
theorem declares_of_ofNodes {nodes : List Kdl.Node} {project : Project}
    (h : ofNodes nodes = .ok project) : Declares nodes project := by
  obtain ⟨⟨steps, hsteps, hall⟩, hdistinct, ⟨layers, hlayers, hall'⟩, hsettings⟩ :=
    collects_foldlM_addNode h
  obtain rfl : project.steps = steps := hsteps
  exact ⟨hall, hdistinct .nil, ⟨layers, hall', hlayers⟩, hsettings⟩

/-- A document says of one project only what it says. -/
theorem Declares.unique {nodes : List Kdl.Node} {project project' : Project}
    (h : Declares nodes project) (h' : Declares nodes project') : project = project' := by
  have hstep : Relator.RightUnique Step.DeclaredBy := fun _ _ _ ↦ Step.DeclaredBy.unique
  have hlayer : Relator.RightUnique Store.DeclaredBy := fun _ _ _ ↦ Store.DeclaredBy.unique
  have hsteps : project.steps = project'.steps := hstep.forall₂ h.steps h'.steps
  have hvalues : project.values = project'.values := by
    obtain ⟨layers, hlayers, hvalues⟩ := h.values
    obtain ⟨layers', hlayers', hvalues'⟩ := h'.values
    rw [hvalues, hvalues', hlayer.forall₂ hlayers hlayers']
  have hsettings := h.settings.trans h'.settings.symm
  cases project
  cases project'
  simp_all

/-! ### What is wrong with a document -/

theorem repeatedFailures_eq_nil_iff {earlier : List Kdl.Node} {node : Kdl.Node} :
    repeatedFailures earlier node = [] ↔
      ∀ name ∈ node.stringArgument?, name ∉ stepNames earlier := by
  unfold repeatedFailures
  cases node.stringArgument? <;> simp

theorem nodeFailures_step {repeatedName : RepeatedName} {earlier : List Kdl.Node} {node : Kdl.Node}
    (hname : node.name = "step") : nodeFailures repeatedName earlier node = [] ↔
      Step.failures node = [] ∧ repeatedFailures earlier node = [] := by
  cases repeatedName <;> simp [nodeFailures, hname, and_comm]

/-- A step is added if its name is new. -/
theorem reports_addStep {earlier : List Kdl.Node} {project : Project}
    (hproject : Declares earlier project) {node : Kdl.Node} {step : Step}
    (hstep : Step.ofNode node = .ok step) :
    (if project.steps.any (·.name = step.name) then
      Except.error (ConfigError.duplicate ("step " ++ quoted step.name))
    else pure { project with steps := project.steps ++ [step] }).Reports
      (repeatedFailures earlier node) := by
  have hnames := Step.filterMap_stringArgument? hproject.steps
  have hany : project.steps.any (·.name = step.name) ↔ step.name ∈ stepNames earlier := by
    rw [stepNames, hnames]
    simp
  rw [repeatedFailures, Step.name_of_ofNode hstep]
  by_cases hnew : step.name ∈ stepNames earlier
  · rw [if_pos (hany.2 hnew)]
    simp only [if_pos hnew]
    rfl
  · rw [if_neg (mt hany.1 hnew)]
    simp only [if_neg hnew]
    rfl

theorem reports_addNode {earlier : List Kdl.Node} {project : Project}
    (hproject : Declares earlier project) (node : Kdl.Node) :
    (project.addNode node).Reports (nodeFailures .behindBlock earlier node) := by
  unfold addNode nodeFailures
  by_cases hsettings : node.name = "settings"
  · simp [hsettings, Except.Reports]
  rw [if_neg hsettings]
  by_cases hvalues : node.name = "values"
  · rw [if_pos hvalues, if_pos hvalues, Kdl.Node.children]
    cases node.children? with
    | none => rfl
    | some children => exact (Store.reports_ofNodes children).map _
  rw [if_neg hvalues, if_neg hvalues]
  by_cases hstep : node.name = "step"
  · rw [if_pos hstep, if_pos hstep]
    exact (Step.reports_ofNode node).bind fun step hofNode ↦ reports_addStep hproject hofNode
  · rw [if_neg hstep, if_neg hstep]
    rfl

theorem failuresBehind_concat (repeatedName : RepeatedName) (earlier nodes : List Kdl.Node)
    (node : Kdl.Node) : failuresBehind repeatedName earlier (nodes ++ [node]) =
      failuresBehind repeatedName earlier nodes ++
        nodeFailures repeatedName (earlier ++ nodes) node := by
  induction nodes generalizing earlier with
  | nil => simp [failuresBehind]
  | cons first nodes ih => simp [failuresBehind, ih]

theorem failures_concat (repeatedName : RepeatedName) (nodes : List Kdl.Node) (node : Kdl.Node) :
    failures repeatedName (nodes ++ [node]) =
      failures repeatedName nodes ++ nodeFailures repeatedName nodes node :=
  failuresBehind_concat repeatedName [] nodes node

theorem ofNodes_concat (nodes : List Kdl.Node) (node : Kdl.Node) :
    ofNodes (nodes ++ [node]) = ofNodes nodes >>= fun project ↦ project.addNode node := by
  simp [ofNodes]

/-- Loading fails for the first thing that is wrong with the document. -/
theorem reports_ofNodes (nodes : List Kdl.Node) :
    (ofNodes nodes).Reports (failures .behindBlock nodes) := by
  -- from the end, since a name is compared with the steps that the nodes before it declare
  induction nodes using List.reverseRecOn with
  | nil => rfl
  | append_singleton nodes node ih =>
    rw [ofNodes_concat, failures_concat]
    exact ih.bind fun project hproject ↦ reports_addNode (declares_of_ofNodes hproject) node

theorem hasValue_iff_nodeFailures {repeatedName : RepeatedName} {earlier : List Kdl.Node}
    {node : Kdl.Node} (hname : node.name = "values") :
    (∀ block ∈ valueBlocks [node], ∀ inner ∈ Kdl.inOrder block, inner.HasValue) ↔
      nodeFailures repeatedName earlier node = [] := by
  unfold nodeFailures
  rw [if_pos hname, Store.failures_eq_nil_iff, Kdl.Node.children]
  cases hchildren : node.children? <;> simp [valueBlocks, hname, hchildren, Kdl.inOrder]

theorem nodup_stepNames_iff {nodes : List Kdl.Node} {node : Kdl.Node} (hname : node.name = "step") :
    (stepNames nodes ++ stepNames [node]).Nodup ↔
      (stepNames nodes).Nodup ∧ repeatedFailures nodes node = [] := by
  have hone : stepNames [node] = node.stringArgument?.toList := by
    cases hargument : node.stringArgument? <;> simp [stepNames, stepNodes, hname, hargument]
  rw [repeatedFailures_eq_nil_iff, hone]
  cases node.stringArgument? with
  | none => simp
  | some name =>
    have hswap : (stepNames nodes ++ [name]).Perm (name :: stepNames nodes) :=
      List.perm_append_singleton ..
    rw [Option.toList_some, hswap.nodup_iff, List.nodup_cons, and_comm]
    simp

/-- A document is accepted with one more node if nothing is wrong with that node. -/
theorem accepted_concat_iff {repeatedName : RepeatedName} {nodes : List Kdl.Node}
    {node : Kdl.Node} : Accepted (nodes ++ [node]) ↔
      Accepted nodes ∧ nodeFailures repeatedName nodes node = [] := by
  simp only [accepted_iff, valueBlocks_append, stepNodes_append, stepNames_append,
    List.forall_mem_append]
  by_cases hvalues : node.name = "values"
  · have hnone : stepNodes [node] = [] := by simp [stepNodes, hvalues]
    have hnoName : stepNames [node] = [] := by rw [stepNames, hnone, List.filterMap_nil]
    rw [hasValue_iff_nodeFailures hvalues, hnone, hnoName, List.append_nil]
    simp only [List.not_mem_nil, false_imp_iff, implies_true, and_true]
    tauto
  by_cases hstep : node.name = "step"
  · have hnone : valueBlocks [node] = [] := by simp [valueBlocks, hvalues]
    have hone : stepNodes [node] = [node] := by simp [stepNodes, hstep]
    rw [nodeFailures_step hstep, Step.failures_eq_nil_iff, nodup_stepNames_iff hstep, hnone, hone]
    simp only [List.not_mem_nil, false_imp_iff, implies_true, and_true, List.forall_mem_singleton]
    tauto
  · simp [valueBlocks, hvalues, stepNames, stepNodes, hstep, nodeFailures]

/-- A document is accepted if nothing is wrong with it. -/
theorem failures_eq_nil_iff {repeatedName : RepeatedName} {nodes : List Kdl.Node} :
    failures repeatedName nodes = [] ↔ Accepted nodes := by
  induction nodes using List.reverseRecOn with
  | nil =>
    exact iff_of_true rfl
      ⟨by simp [valueBlocks], by simp [stepNodes], by simp [stepNodes], .nil⟩
  | append_singleton nodes node ih =>
    rw [failures_concat, List.append_eq_nil_iff, ih, accepted_concat_iff]

/-! ### Documents with the same nodes of each kind -/

/-- Two documents have the same nodes of each kind that counts, in the same order. -/
def SameByKind (nodes others : List Kdl.Node) : Prop :=
  ∀ kind ∈ ["settings", "values", "step"],
    others.filter (·.name = kind) = nodes.filter (·.name = kind)

theorem SameByKind.valueBlocks_eq {nodes others : List Kdl.Node} (h : SameByKind nodes others) :
    valueBlocks others = valueBlocks nodes := by
  rw [valueBlocks, valueBlocks, h "values" (by simp)]

theorem SameByKind.stepNodes_eq {nodes others : List Kdl.Node} (h : SameByKind nodes others) :
    stepNodes others = stepNodes nodes :=
  h "step" (by simp)

theorem Accepted.of_sameByKind {nodes others : List Kdl.Node} (h : Accepted nodes)
    (hsame : SameByKind nodes others) : Accepted others where
  values := hsame.valueBlocks_eq ▸ h.values
  names := hsame.stepNodes_eq ▸ h.names
  commands := hsame.stepNodes_eq ▸ h.commands
  distinct := by
    rw [stepNames, hsame.stepNodes_eq]
    exact h.distinct

theorem Declares.of_sameByKind {nodes others : List Kdl.Node} {project : Project}
    (h : Declares nodes project) (hsame : SameByKind nodes others) : Declares others project where
  steps := hsame.stepNodes_eq ▸ h.steps
  distinct := h.distinct
  values := hsame.valueBlocks_eq ▸ h.values
  settings := by
    rw [lastSettings?, hsame "settings" (by simp)]
    exact h.settings

/-! ### Loading -/

theorem exists_ofNodes_iff {nodes : List Kdl.Node} :
    (∃ project, ofNodes nodes = .ok project) ↔ Accepted nodes :=
  (reports_ofNodes nodes).exists_eq_ok_iff.trans failures_eq_nil_iff

/-- A document is loaded as a project if it is accepted and says just this of the project. -/
theorem ofNodes_eq_ok_iff {nodes : List Kdl.Node} {project : Project} :
    ofNodes nodes = .ok project ↔ Accepted nodes ∧ Declares nodes project := by
  constructor
  · exact fun h ↦ ⟨exists_ofNodes_iff.1 ⟨project, h⟩, declares_of_ofNodes h⟩
  · rintro ⟨haccepted, hdeclares⟩
    obtain ⟨other, hother⟩ := exists_ofNodes_iff.2 haccepted
    rw [hother, (declares_of_ofNodes hother).unique hdeclares]

/-- A document whose second step has the name of the first, and a command without a text. -/
def repeatedStep : List Kdl.Node :=
  [.plain "step" [.argument (.string "a")],
    .block "step" [.argument (.string "a")] [.plain "run" []]]

/-- A document with nodes of each kind. -/
def mixedDocument : List Kdl.Node :=
  [.block "values" [] [.plain "name" [.argument (.string "old")],
      .block "build" [] [.plain "mode" [.argument (.string "debug")]]],
    .block "step" [.argument (.string "a")] [.plain "run" [.argument (.string "make")]],
    .plain "settings" [.property "strict" (.bool true)],
    .block "values" [] [.plain "name" [.argument (.string "new")]],
    .block "step" [.argument (.string "b"), .property "when" (.string "name == 'new'")]
      [.block "env" [] [.plain "MODE" [.argument (.string "x")],
        .plain "MODE" [.argument (.integer 1)]]]]

/-- The nodes of `mixedDocument` one kind after the other. -/
def sortedDocument : List Kdl.Node :=
  mixedDocument.filter (·.name = "settings") ++ mixedDocument.filter (·.name = "step") ++
    mixedDocument.filter (·.name = "values")

end Project

end BuildPlan
