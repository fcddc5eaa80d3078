import BuildPlan.CommandLine.Session

/-!
# Running a command line

`run` answers a command line on a host: the exit status, what is written to the standard output and
to the standard error, and at most one file to be written. It reads the host but changes nothing,
so that the caller may carry the answer out.
-/

set_option autoImplicit false
set_option relaxedAutoImplicit false

namespace BuildPlan.CommandLine

/-- The answer to a command line. -/
structure Outcome where
  /-- The exit status. -/
  status : Nat
  /-- What is written to the standard output. -/
  output : String
  /-- What is written to the standard error. -/
  errors : String
  /-- The path and the content of a file to be written. -/
  file : Option (String × String)
  deriving DecidableEq

namespace Outcome

/-- The exit status of a run that did its work. -/
def success : Nat := 0

/-- The exit status of a run that failed, and of a gate that is false if the status is to tell. -/
def failure : Nat := 1

/-- The exit status of a command line that does not follow the rules. -/
def misuse : Nat := 2

/-- A run that writes a text. -/
def print (text : String) : Outcome :=
  { status := success, output := text, errors := "", file := none }

/-- A run that fails. -/
def fail (error : Failure) : Outcome :=
  { status := failure, output := "", errors := error.text, file := none }

/-- A run that fails because a file cannot be written. -/
def failWriting (path : String) (fault : SystemFault) : Outcome :=
  fail (.of ("Failed to write output: " ++ path) [fault.message])

/-- The outcome of an attempt on a host. -/
def ofAttempt (host : Host) (attempt : Attempt Outcome) : Outcome :=
  match attempt.run' host with
  | .ok outcome => outcome
  | .error error => fail error

end Outcome

/-- A JSON value on lines of its own. -/
def jsonText (json : Json) : String :=
  json.text ++ "\n"

/-- The template of a source. -/
def TemplateSource.read : TemplateSource → Attempt String
  | .inline text => return text
  | .input => Attempt.readInput
  | .file path => Attempt.readFile path fun fault ↦
      .of ("Failed to read template: " ++ path) [fault.message]

namespace Command

/-- A template with its placeholders replaced. -/
def rendered (session : Session) (template : String) : Except Failure String :=
  (session.resolver.interpolate template).mapError fun error ↦
    .of "Failed to render template" error.chain

/-- Replaces the placeholders of a template. -/
def runRender (session : Session) (source : TemplateSource) (output : Option String) :
    Attempt Outcome := do
  let text ← rendered session (← source.read)
  match output with
  | none => return .print text
  | some path =>
    match (← get).writeFault? path text with
    | some fault => return .failWriting path fault
    | none => return { Outcome.print "" with file := some (path, text) }

/-- Evaluates a gate. -/
def runEval (session : Session) (expression : String) (exitCode : Bool) :
    Except Failure Outcome := do
  let answer ← (session.resolver.evaluateGate expression).mapError fun error ↦
    .of ("Failed to evaluate gate: " ++ expression) error.chain
  return { Outcome.print (linesText [toString answer]) with
    status := if exitCode && !answer then Outcome.failure else Outcome.success }

/-- Shows the plan. -/
def runPlan (session : Session) (format : OutputFormat) : Except Failure Outcome := do
  let planned ← (session.project.plan session.resolver).mapError fun error ↦
    .of "Failed to plan steps" error.chain
  match format with
  | .json => return .print (jsonText (planJson planned))
  | .text => return .print (planText planned session.project.steps)

/-- Lists the tokens of a template. -/
def runTokens (session : Session) (source : TemplateSource) (format : OutputFormat) :
    Attempt Outcome := do
  let template ← source.read
  let resolver := session.resolver
  let tokens := resolver.tokens template
  match format with
  | .json =>
    return .print (jsonText (.array (tokens.map fun token ↦
      Resolution.toJson token (resolver.resolve token))))
  | .text =>
    return .print (linesText (tokens.map fun token ↦
      Resolution.line token (resolver.resolve token)))

/-- Shows the values. -/
def runValues (session : Session) (format : OutputFormat) : Outcome :=
  let store := session.resolver.store
  match format with
  | .json => .print (jsonText store.toJson)
  | .text => .print (valuesText store)

/-- Checks the project. -/
def runValidate (session : Session) : Except Failure Outcome := do
  let warnings ← (session.project.validate session.resolver).mapError fun error ↦
    .of ("Gate for step " ++ quoted error.1 ++ " is invalid") error.2.chain
  return .print (validationText warnings)

/-- Runs a command in a session. -/
def run (session : Session) : Command → Attempt Outcome
  | .render source output => runRender session source output
  | .eval expression exitCode => runEval session expression exitCode
  | .plan format => runPlan session format
  | .tokens source format => runTokens session source format
  | .values format => return runValues session format
  | .validate => runValidate session

/-- The source of the template, if there is one. -/
def template? : Command → Option TemplateSource
  | .render source _ => some source
  | .tokens source _ => some source
  | _ => none

end Command

/-! ### Whole command lines -/

/-- The files that a run may read. -/
def Invocation.filesToRead (invocation : Invocation) : List String :=
  let template := match invocation.command.template? with
    | some (.file path) => [path]
    | _ => []
  invocation.options.config.getD Session.defaultConfig ::
    (invocation.options.values.toList ++ template)

/-- Whether a run may read the standard input. -/
def Invocation.readsInput (invocation : Invocation) : Bool :=
  invocation.command.template? = some .input

/-- Runs what a command line asks for. -/
def Invocation.run (host : Host) (invocation : Invocation) : Outcome :=
  .ofAttempt host do invocation.command.run (← Session.start invocation.options)

/-- The text that a user sees who asks for help. -/
def helpText : String :=
  linesText
    ["Resolve placeholders and gates in build configuration", "",
      "Usage: brix [OPTIONS] <COMMAND>", "", "Commands:",
      "  render    Interpolate a template",
      "  eval      Evaluate a gate expression",
      "  plan      Evaluate step gates and show the rendered commands",
      "  tokens    List the tokens a template references and how they resolve",
      "  values    Show the merged value store",
      "  validate  Validate the project file"]

/-- Answers a command line. -/
def run (host : Host) (arguments : List String) : Outcome :=
  match Invocation.read host.environment arguments with
  | .ok invocation => invocation.run host
  | .error .help => .print helpText
  | .error .usage =>
    { status := Outcome.misuse, output := "", errors := helpText, file := none }

end BuildPlan.CommandLine
