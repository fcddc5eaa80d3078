import BuildPlan.Kdl.Basic
import BuildPlan.Resolver.Basic
import BuildPlan.Store.Merge

/-!
# Projects

A project holds values, settings, and steps. It is declared by the nodes of a document:

* `settings` nodes, of which the last one counts;
* `values` nodes, whose blocks become stores that are merged in order, a block inside a block
  becoming a nested store;
* `step` nodes with the name of the step as argument, an optional gate, and a block with commands
  and environment variables.

All other nodes are ignored. A property of the wrong type counts as not given.
-/

set_option autoImplicit false
set_option relaxedAutoImplicit false

namespace BuildPlan

/-- A step of a build. -/
structure Step where
  name : String
  /-- The gate of the step; without one it always runs. -/
  gate : Option String
  /-- The commands, in order. -/
  commands : List String
  /-- The environment variables of the commands. -/
  environment : Dictionary String
  deriving DecidableEq

/-- A project. -/
structure Project where
  settings : Settings
  values : Store
  steps : List Step
  deriving DecidableEq

/-- The project about which nothing is said. -/
def Project.empty : Project where
  settings := .default
  values := .empty
  steps := []

/-! ### Settings -/

/-- The settings that a node declares. -/
def Settings.ofNode (node : Kdl.Node) : Settings where
  strict := ((node.property? "strict").bind Kdl.Value.bool?).getD Settings.default.strict
  opening := ((node.property? "open").bind Kdl.Value.string?).getD Settings.default.opening
  closing := ((node.property? "close").bind Kdl.Value.string?).getD Settings.default.closing

/-! ### Values -/

/-- The value that a node without a block declares. -/
def Value.ofEntries (name : String) (entries : List Kdl.Entry) : Except ConfigError Value :=
  match (entries.findSome? Kdl.Entry.argument?).bind Kdl.Value.text? with
  | some text => .ok (.leaf text)
  | none => .error (.missingField ("value for " ++ quoted name))

mutual

/-- The value that a node declares: the store of its block, or the text of its first argument. -/
def Value.ofNode : Kdl.Node → Except ConfigError Value
  | .plain name entries => Value.ofEntries name entries
  | .block _ _ children => (Store.addNodes .empty children).map .nested

/-- The store with the values of some nodes added, each in place of an earlier one of its name. -/
def Store.addNodes (store : Store) : List Kdl.Node → Except ConfigError Store
  | [] => .ok store
  | node :: rest => do
    let value ← Value.ofNode node
    Store.addNodes (store.insert node.name value) rest

end

/-- The store that the nodes of a block declare. -/
def Store.ofNodes (nodes : List Kdl.Node) : Except ConfigError Store :=
  Store.addNodes .empty nodes

/-! ### Steps -/

/-- The text that a node has as its first argument. -/
def Kdl.Node.stringArgument? (node : Kdl.Node) : Option String :=
  node.argument?.bind Kdl.Value.string?

namespace Step

/-- The step with a command at the end. -/
def addCommand (step : Step) (command : String) : Step :=
  { step with commands := step.commands ++ [command] }

/-- The environment with the variable that a node declares; a node without a value declares none. -/
def addVariable (environment : Dictionary String) (node : Kdl.Node) : Dictionary String :=
  match node.argument?.bind Kdl.Value.text? with
  | some text => environment.insert node.name text
  | none => environment

/-- The step with what a node of its block declares. -/
def addNode (step : Step) (node : Kdl.Node) : Except ConfigError Step :=
  if node.name = "run" then
    match node.stringArgument? with
    | some command => .ok (step.addCommand command)
    | none => .error (.missingField ("command for step " ++ quoted step.name))
  else if node.name = "env" then
    .ok { step with
      environment := (node.children?.getD []).foldl addVariable step.environment }
  else .ok step

/-- The step that a node declares. -/
def ofNode (node : Kdl.Node) : Except ConfigError Step :=
  match node.stringArgument? with
  | none => .error (.missingField "step name")
  | some name =>
    (node.children?.getD []).foldlM addNode
      { name
        gate := (node.property? "when").bind Kdl.Value.string?
        commands := []
        environment := .empty }

end Step

/-! ### Projects -/

namespace Project

/-- The project with what a node declares. -/
def addNode (project : Project) (node : Kdl.Node) : Except ConfigError Project :=
  if node.name = "settings" then .ok { project with settings := .ofNode node }
  else if node.name = "values" then
    match node.children? with
    | none => .ok project
    | some children => do
      let values ← Store.ofNodes children
      return { project with values := project.values.merge values }
  else if node.name = "step" then do
    let step ← Step.ofNode node
    if project.steps.any (·.name = step.name) then
      .error (.duplicate ("step " ++ quoted step.name))
    else return { project with steps := project.steps ++ [step] }
  else .ok project

/-- The project that the nodes of a document declare. -/
def ofNodes (nodes : List Kdl.Node) : Except ConfigError Project :=
  nodes.foldlM addNode empty

end Project

end BuildPlan
