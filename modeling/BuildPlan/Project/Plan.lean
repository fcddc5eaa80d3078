import BuildPlan.Project.Basic
import BuildPlan.Resolver.Gate

/-!
# Planning and checking a project

A plan tells for every step whether its gate lets it run and, if so, its commands and environment
with their placeholders replaced. The first gate that has no answer, and the first text that cannot
be rendered in a step that runs, stop the planning.

Checking a project evaluates every gate too, but looks at the placeholders of all steps one by one
and lists those that would stay in the text.
-/

set_option autoImplicit false
set_option relaxedAutoImplicit false

namespace BuildPlan

/-- Why a project has no plan. -/
inductive PlanError where
  /-- The gate of a step has no answer. -/
  | gate (step : String) (cause : GateError)
  /-- A text of a step cannot be rendered. -/
  | render (step : String) (cause : ConfigError)
  deriving DecidableEq

/-- The words for a cause. -/
def PlanError.message : PlanError → String
  | .gate step cause => "gate for step " ++ quoted step ++ " failed: " ++ cause.message
  | .render step cause => "rendering step " ++ quoted step ++ " failed: " ++ cause.message

/-- A step whose gate was evaluated and, if it runs, whose texts were rendered. -/
structure PlannedStep where
  name : String
  /-- Whether the step runs. -/
  enabled : Bool
  /-- The rendered commands; none if the step does not run. -/
  commands : List String
  /-- The rendered environment variables; none if the step does not run. -/
  environment : Dictionary String
  deriving DecidableEq

namespace Step

/-- Whether the gate of a step lets it run. -/
def isEnabled (resolver : Resolver) (step : Step) : Except GateError Bool :=
  match step.gate with
  | none => .ok true
  | some gate => resolver.evaluateGate gate

/-- The commands and the environment of a step with their placeholders replaced. -/
def rendered (resolver : Resolver) (step : Step) :
    Except ConfigError (List String × Dictionary String) := do
  let commands ← resolver.interpolateAll step.commands
  let environment ← resolver.interpolateValues step.environment
  return (commands, environment)

/-- The plan of a step. -/
def plan (resolver : Resolver) (step : Step) : Except PlanError PlannedStep :=
  match step.isEnabled resolver with
  | .error cause => .error (.gate step.name cause)
  | .ok false => .ok { name := step.name, enabled := false, commands := [], environment := .empty }
  | .ok true =>
    match step.rendered resolver with
    | .error cause => .error (.render step.name cause)
    | .ok (commands, environment) =>
      .ok { name := step.name, enabled := true, commands, environment }

/-- The texts of a step that may hold placeholders. -/
def templates (step : Step) : List String :=
  step.commands ++ step.environment.values

end Step

/-- A token that would stay in a text of a step. -/
structure Warning where
  step : String
  token : Token
  /-- The failure of the extension, if it was asked. -/
  cause : Option ExtensionError
  deriving DecidableEq

/-- The words for a warning. -/
def Warning.message (warning : Warning) : String :=
  "step " ++ quoted warning.step ++ ": " ++ warning.token.raw ++
    match warning.cause with
    | none => " does not resolve"
    | some cause => " failed: " ++ cause.message

namespace Step

/-- The warning about a token, if there is something to warn of. -/
def warning? (resolver : Resolver) (step : Step) (token : Token) : Option Warning :=
  match resolver.resolve token with
  | .resolved _ => none
  | .unresolved => some { step := step.name, token, cause := none }
  | .failed cause => some { step := step.name, token, cause := some cause }

/-- The warnings about the texts of a step. -/
def warnings (resolver : Resolver) (step : Step) : List Warning :=
  (step.templates.flatMap resolver.tokens).filterMap (step.warning? resolver)

/-- The warnings about a step, or the failure of its gate. -/
def check (resolver : Resolver) (step : Step) : Except (String × GateError) (List Warning) :=
  match step.isEnabled resolver with
  | .error cause => .error (step.name, cause)
  | .ok _ => .ok (step.warnings resolver)

end Step

namespace Project

/-- The plan of a project: the plans of its steps, in order. -/
def plan (project : Project) (resolver : Resolver) : Except PlanError (List PlannedStep) :=
  project.steps.mapM (Step.plan resolver)

/-- The warnings about a project, or the first step whose gate has no answer. -/
def validate (project : Project) (resolver : Resolver) :
    Except (String × GateError) (List Warning) :=
  (project.steps.mapM (Step.check resolver)).map List.flatten

end Project

end BuildPlan
