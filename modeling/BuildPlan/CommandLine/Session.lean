import BuildPlan.CommandLine.Invocation
import BuildPlan.CommandLine.Report
import BuildPlan.Host.Survey
import BuildPlan.Json.Reader
import BuildPlan.Project.Document

/-!
# Sessions

A session is a loaded project with a resolver over its values. The values come in layers: those of
the project, those of a values file merged on top, and single assignments after that.
-/

set_option autoImplicit false
set_option relaxedAutoImplicit false

namespace BuildPlan.CommandLine

/-! ### Attempts -/

/-- Work on a host that may fail. What it reads of the standard input is gone from the host. -/
abbrev Attempt := StateT Host (Except Failure)

namespace Attempt

/-- Reads what is left of the standard input. -/
def readInput : Attempt String :=
  modifyGet fun host ↦ (host.input, host.drained)

/-- Reads a file. -/
def readFile (path : String) (failure : SystemFault → Failure) : Attempt String := do
  match (← get).source path with
  | .ok (.text content) => return content
  | .ok .input => readInput
  | .error fault => throw (failure fault)

end Attempt

/-! ### Sessions -/

/-- A loaded project and the resolver over its values. -/
structure Session where
  project : Project
  resolver : Resolver

namespace Session

/-- The project file if none is given. -/
def defaultConfig : String := "brix.kdl"

/-- Loads the project of a file. -/
def loadProject (path : String) : Attempt Project := do
  let summary := "Failed to load project: " ++ path
  let text ← Attempt.readFile path fun fault ↦
    .of summary (ConfigError.system fault.message).chain
  match Project.ofText text with
  | .error error => throw (.of summary error.chain)
  | .ok project => return project

/-- Loads the project of a file that is given, else of the usual file if there is one. -/
def openProject : Option String → Attempt Project
  | some path => loadProject path
  | none => do if (← get).exists? defaultConfig then loadProject defaultConfig else return .empty

/-- The values of a project with those of a file on top. -/
def layerFile (store : Store) (path : String) : Attempt Store := do
  let text ← Attempt.readFile path fun fault ↦
    .of ("Failed to read values file: " ++ path) [fault.message]
  match Json.ofText? text with
  | none => throw (.of ("Failed to parse values file: " ++ path) ["invalid JSON"])
  | some json =>
    match Store.ofJson json with
    | .error error => throw (.ofChain error.chain)
    | .ok later => return store.merge later

/-- The values with single assignments on top. -/
def layerAssignments (store : Store) (assignments : List (String × String)) : Store :=
  assignments.foldl (fun store pair ↦ store.assign pair.1 (.leaf pair.2)) store

/-- Opens a session. -/
def start (options : Options) : Attempt Session := do
  let project ← openProject options.config
  let layered ← match options.values with
    | some path => layerFile project.values path
    | none => pure project.values
  let store := layerAssignments layered options.assignments
  let settings := { project.settings with strict := project.settings.strict || options.strict }
  let registered := Dictionary.ofList
    [(Extension.argumentContext, Extension.arguments (.ofList options.arguments))]
  let surroundings := (← get).surroundings options.repository
  match Resolver.make settings store registered surroundings with
  | .error error => throw (.of "Failed to configure interpolation engine" error.chain)
  | .ok resolver => return { project, resolver }

end Session

end BuildPlan.CommandLine
