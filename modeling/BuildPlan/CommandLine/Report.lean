import BuildPlan.Json.Printer
import BuildPlan.Project.Plan
import BuildPlan.Store.Flatten
import BuildPlan.Store.OfJson

/-!
# Reports

The texts that the commands write: listings of plans, tokens and values, for people and as JSON,
and failures with the chain of their causes.
-/

set_option autoImplicit false
set_option relaxedAutoImplicit false

namespace BuildPlan

/-! ### Failures -/

/-- A failure: what could not be done, and why, each cause being explained by the next one. -/
structure Failure where
  summary : String
  causes : List String
  deriving DecidableEq

/-- A failure and what explains it. -/
def ConfigError.chain (error : ConfigError) : List String :=
  match error with
  | .malformedDocument => [error.message, documentMessage]
  | .system reason => [error.message, reason]
  | _ => [error.message]

/-- A failure and what explains it. -/
def GateError.chain : GateError → List String
  | .interpolation cause => cause.chain
  | error => [error.message]

/-- A failure and what explains it. -/
def PlanError.chain (error : PlanError) : List String :=
  match error with
  | .gate _ cause => error.message :: cause.chain
  | .render _ cause => error.message :: cause.chain

namespace Failure

/-- The failure of something, explained by a chain of causes. -/
def of (summary : String) (chain : List String) : Failure :=
  { summary, causes := chain }

/-- A chain of causes as a failure. -/
def ofChain : List String → Failure
  | [] => { summary := "", causes := [] }
  | summary :: causes => { summary, causes }

/-- Spaces in front of a text, and in front of each of its further lines. -/
def indented (first : String) (width : Nat) (text : String) : String :=
  let margin := List.replicate width ' '
  first ++ .ofList (text.toList.flatMap fun c ↦ if c = '\n' then '\n' :: margin else [c])

/-- A number that is aligned to the right. -/
def alignedNumber (width n : Nat) : String :=
  let digits := Nat.toDigits 10 n
  .ofList (List.replicate (width - digits.length) ' ' ++ digits)

/-- The columns of the numbers of causes. -/
def numberWidth : Nat := 5

/-- The columns in front of a cause without a number. -/
def causeMargin : Nat := 4

/-- The line of a cause with its number. -/
def numberedCause (number : Nat) (cause : String) : String :=
  indented (alignedNumber numberWidth number ++ ": ") (numberWidth + 2) cause

/-- The lines of causes. Several causes are numbered. -/
def causeLines : List String → List String
  | [] => []
  | [cause] => [indented (.ofList (List.replicate causeMargin ' ')) causeMargin cause]
  | causes => causes.mapIdx numberedCause

/-- The text of a failure. -/
def text (failure : Failure) : String :=
  let causes := if failure.causes.isEmpty then []
    else "" :: "Caused by:" :: causeLines failure.causes
  "\n".intercalate (("Error: " ++ failure.summary) :: causes) ++ "\n"

end Failure

/-! ### Listings -/

/-- Lines with their ends. -/
def linesText (lines : List String) : String :=
  String.join (lines.map (· ++ "\n"))

/-- An optional text as JSON. -/
def Json.ofOption : Option String → Json
  | some text => .string text
  | none => .null

/-- A dictionary of texts as JSON. -/
def Json.ofDictionary (dictionary : Dictionary String) : Json :=
  .object (dictionary.entries.map fun entry ↦ (entry.1, .string entry.2))

namespace PlannedStep

/-- A planned step as JSON. -/
def toJson (step : PlannedStep) : Json :=
  .object [("name", .string step.name), ("enabled", .bool step.enabled),
    ("commands", .array (step.commands.map .string)), ("env", .ofDictionary step.environment)]

/-- The lines that show a planned step of a step with a gate. -/
def lines (planned : PlannedStep) (step : Step) : List String :=
  if planned.enabled then
    ("▶ " ++ planned.name) ::
      planned.environment.entries.map (fun entry ↦ "    " ++ entry.1 ++ "=" ++ entry.2) ++
      planned.commands.map ("    $ " ++ ·)
  else ["⊘ " ++ planned.name ++ " - skipped: " ++ backquoted (step.gate.getD "") ++ " is false"]

end PlannedStep

/-- The text that shows a plan. -/
def planText (planned : List PlannedStep) (steps : List Step) : String :=
  if planned.isEmpty then linesText ["No steps defined"]
  else linesText ((planned.zip steps).flatMap fun pair ↦ pair.1.lines pair.2)

/-- A plan as JSON. -/
def planJson (planned : List PlannedStep) : Json :=
  .array (planned.map PlannedStep.toJson)

/-- The line that shows a token and what it resolves to. -/
def Resolution.line (token : Token) : Resolution → String
  | .resolved text => token.raw ++ "\t= " ++ text
  | .failed error => token.raw ++ "\tfailed: " ++ error.message
  | .unresolved => token.raw ++ "\tunresolved"

/-- The members of a token and what it resolves to. -/
def Resolution.members : Resolution → List (String × Json)
  | .resolved text => [("status", .string "resolved"), ("value", .string text)]
  | .failed error => [("status", .string "failed"), ("error", .string error.message)]
  | .unresolved => [("status", .string "unresolved")]

/-- A token and what it resolves to, as JSON. -/
def Resolution.toJson (token : Token) (resolution : Resolution) : Json :=
  .object ([("raw", .string token.raw), ("context", .ofOption token.context),
    ("path", .string token.path), ("default", .ofOption token.fallback)] ++ resolution.members)

/-- The text that shows the values of a store. -/
def valuesText (store : Store) : String :=
  if store.isEmpty then linesText ["No values defined"]
  else linesText (store.flatten.map fun leaf ↦ leaf.1 ++ " = " ++ leaf.2)

/-- The text that shows a project without failures. -/
def validationText (warnings : List Warning) : String :=
  linesText (warnings.map ("warning: " ++ ·.message) ++ ["Configuration is valid"])

end BuildPlan
