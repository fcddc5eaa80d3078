import BuildPlan.Environment

/-!
# Reading the command line

A command line is options, a command, and the options and operands of the command. The general
options may stand on both sides of the command. If one does, what stands behind the command counts.
Most options may be given once on each side; those that collect values may be repeated, but the
values from both sides are not put together.

An option that takes a value takes it from the same argument (`--set=k=v`, `-cfile`) or from the
next one, which must not look like an option. After `--` everything is an operand. Some options are
taken from environment variables where they are not given.

Arguments are looked at one after the other, and the first that is wrong, or asks for help, decides.
What only all of them together can tell, such as an operand that is missing, comes last.
-/

set_option autoImplicit false
set_option relaxedAutoImplicit false

namespace BuildPlan.CommandLine

/-! ### What an invocation asks for -/

/-- The form of a listing. -/
inductive OutputFormat where
  /-- For people. -/
  | text
  /-- For programs. -/
  | json
  deriving DecidableEq

/-- Where a template comes from. -/
inductive TemplateSource where
  /-- From the command line itself. -/
  | inline (text : String)
  /-- From a file. -/
  | file (path : String)
  /-- From the standard input. -/
  | input
  deriving DecidableEq

/-- What is to be done. -/
inductive Command where
  /-- Replace the placeholders of a template, and write the result to a file if one is given. -/
  | render (source : TemplateSource) (output : Option String)
  /-- Evaluate a gate, and tell the answer by the exit status too if asked to. -/
  | eval (expression : String) (exitCode : Bool)
  /-- Show the plan of the project. -/
  | plan (format : OutputFormat)
  /-- List the tokens of a template and what they resolve to. -/
  | tokens (source : TemplateSource) (format : OutputFormat)
  /-- Show the values. -/
  | values (format : OutputFormat)
  /-- Check the project. -/
  | validate
  deriving DecidableEq

/-- The options that every command takes. -/
structure Options where
  /-- The project file. -/
  config : Option String
  /-- A file with values that go on top of those of the project. -/
  values : Option String
  /-- Whether failures show, even if the project does not ask for it. -/
  strict : Bool
  /-- The directory of the repository; without one version control is not used. -/
  repository : Option String
  /-- The build arguments, in order. -/
  arguments : List (String × String)
  /-- The values that go on top of all others, in order. -/
  assignments : List (String × String)
  deriving DecidableEq

/-- What a command line asks for. -/
structure Invocation where
  options : Options
  command : Command
  deriving DecidableEq

/-- Why a command line asks for nothing. -/
inductive Refusal where
  /-- It does not follow the rules. -/
  | usage
  /-- It asks for help instead. -/
  | help
  deriving DecidableEq

/-! ### Options and operands -/

/-- A path; the empty one is refused. -/
def asPath (text : String) : Except Refusal String :=
  if text = "" then .error .usage else .ok text

/-- A key and a value around an equals sign. -/
def asPair (text : String) : Except Refusal (String × String) :=
  match Text.cutAt? '=' text.toList with
  | some (key, value) =>
    if key.isEmpty then .error .usage else .ok (.ofList key, .ofList value)
  | none => .error .usage

/-- The form of a listing. -/
def asFormat (text : String) : Except Refusal OutputFormat :=
  if text = "text" then .ok .text
  else if text = "json" then .ok .json
  else .error .usage

/-- What may follow an option. -/
inductive ValueRule where
  /-- No value. -/
  | nothing
  /-- A path. -/
  | path
  /-- A key and a value. -/
  | pair
  /-- The form of a listing. -/
  | format
  /-- Any text. -/
  | text
  deriving DecidableEq

/-- Whether a value that stands on the command line may follow an option. -/
def ValueRule.accepts (rule : ValueRule) (value : String) : Bool :=
  match rule with
  | .nothing | .text => true
  | .path => (asPath value).isOk
  | .pair => (asPair value).isOk
  | .format => (asFormat value).isOk

/-- An option that is known. -/
structure OptionRule where
  /-- The name behind two dashes. -/
  name : String
  /-- The letter behind one dash. -/
  letter : Option Char
  /-- What value follows. -/
  value : ValueRule
  /-- Whether the option may be repeated. -/
  repeats : Bool
  deriving DecidableEq

/-- Whether a value follows an option. -/
def OptionRule.takesValue (rule : OptionRule) : Bool :=
  rule.value ≠ .nothing

/-- The option that asks for help. -/
def helpName : String := "help"

/-- The options that every command takes. -/
def generalRules : List OptionRule :=
  [⟨"config", some 'c', .path, false⟩, ⟨"values", none, .path, false⟩,
    ⟨"strict", none, .nothing, false⟩, ⟨"repo", none, .path, false⟩,
    ⟨"no-git", none, .nothing, false⟩, ⟨"arg", none, .pair, true⟩, ⟨"set", none, .pair, true⟩,
    ⟨"verbose", some 'v', .nothing, false⟩, ⟨helpName, some 'h', .nothing, false⟩]

/-- What one side of a command line says. -/
structure Side where
  /-- The options with their values, in order; an option without a value has the empty one. -/
  options : List (String × String)
  /-- The operands, in order. -/
  operands : List String

namespace Side

/-- The side that says nothing. -/
def empty : Side := { options := [], operands := [] }

/-- Whether an option is given. -/
def has (side : Side) (name : String) : Bool :=
  side.options.any (·.1 = name)

/-- The value of an option. -/
def value? (side : Side) (name : String) : Option String :=
  side.options.lookup name

/-- The values of an option, in order. -/
def values (side : Side) (name : String) : List String :=
  side.options.filterMap fun given ↦ if given.1 = name then some given.2 else none

/-- The side with one more option, which may be one too many or ask for help. -/
def give (side : Side) (rule : OptionRule) (value : String) : Except Refusal Side :=
  if rule.name = helpName then .error .help
  else if side.has rule.name && !rule.repeats then .error .usage
  else if rule.value.accepts value then
    .ok { side with options := side.options ++ [(rule.name, value)] }
  else .error .usage

/-- The side with one more operand, of which it may have only some number. -/
def addOperand (limit : Nat) (side : Side) (operand : String) : Except Refusal Side :=
  if side.operands.length < limit then
    .ok { side with operands := side.operands ++ [operand] }
  else .error .usage

end Side

/-- Whether an argument is taken for an option rather than for a value. -/
def looksLikeOption (argument : String) : Bool :=
  match argument.toList with
  | '-' :: _ :: _ => true
  | _ => false

/-- What reading an argument leads to. -/
inductive Reading where
  /-- The argument is complete. -/
  | complete (side : Side)
  /-- An option waits for its value. -/
  | waiting (side : Side) (rule : OptionRule)

/-- Reads the letters behind one dash. -/
def readLetters (rules : List OptionRule) (side : Side) : List Char → Except Refusal Reading
  | [] => .ok (.complete side)
  | letter :: rest =>
    match rules.find? (·.letter = some letter) with
    | none => .error .usage
    | some rule =>
      if rule.takesValue then
        match rest with
        | [] => .ok (.waiting side rule)
        | '=' :: value => (side.give rule (.ofList value)).map .complete
        | value => (side.give rule (.ofList value)).map .complete
      else do readLetters rules (← side.give rule "") rest

/-- Reads what stands behind two dashes. -/
def readLong (rules : List OptionRule) (side : Side) (text : List Char) :
    Except Refusal Reading :=
  let (name, value?) := match Text.cutAt? '=' text with
    | some (name, value) => (name, some value)
    | none => (text, none)
  match rules.find? (·.name = .ofList name), value? with
  | none, _ => .error .usage
  | some rule, some value =>
    if rule.takesValue then (side.give rule (.ofList value)).map .complete else .error .usage
  | some rule, none =>
    if rule.takesValue then .ok (.waiting side rule)
    else (side.give rule "").map .complete

/-- Reads an argument that looks like an option. -/
def readOption (rules : List OptionRule) (side : Side) (argument : String) :
    Except Refusal Reading :=
  match argument.toList with
  | '-' :: '-' :: text => readLong rules side text
  | '-' :: letters => readLetters rules side letters
  | _ => .error .usage

/-- The argument after which all others are operands. -/
def endOfOptions : String := "--"

/-- What stands in front of a command, and the arguments from the command on. -/
structure Front where
  side : Side
  rest : List String

/-- Reads arguments up to the first operand. -/
def readFront (rules : List OptionRule) (side : Side) : List String → Except Refusal Front
  | [] => .ok { side, rest := [] }
  | argument :: rest =>
    if argument = endOfOptions then .error .usage
    else if looksLikeOption argument then
      match readOption rules side argument with
      | .error refusal => .error refusal
      | .ok (.complete side) => readFront rules side rest
      | .ok (.waiting side rule) =>
        match rest with
        | [] => .error .usage
        | value :: rest =>
          if looksLikeOption value then .error .usage
          else
            match side.give rule value with
            | .error refusal => .error refusal
            | .ok side => readFront rules side rest
    else .ok { side, rest := argument :: rest }

/-- Reads arguments to the end, with at most some number of operands. -/
def readSide (rules : List OptionRule) (limit : Nat) (side : Side) :
    List String → Except Refusal Side
  | [] => .ok side
  | argument :: rest =>
    if argument = endOfOptions then rest.foldlM (Side.addOperand limit) side
    else if looksLikeOption argument then
      match readOption rules side argument with
      | .error refusal => .error refusal
      | .ok (.complete side) => readSide rules limit side rest
      | .ok (.waiting side rule) =>
        match rest with
        | [] => .error .usage
        | value :: rest =>
          if looksLikeOption value then .error .usage
          else
            match side.give rule value with
            | .error refusal => .error refusal
            | .ok side => readSide rules limit side rest
    else
      match side.addOperand limit argument with
      | .error refusal => .error refusal
      | .ok side => readSide rules limit side rest

/-! ### The general options -/

/-- The variables that stand in for options that are not given. -/
def optionVariables : List (String × String) :=
  [("config", "BRIX_CONFIG"), ("values", "BRIX_VALUES"), ("strict", "BRIX_STRICT"),
    ("repo", "BRIX_REPO")]

/-- The directory of the repository if none is given. -/
def defaultRepository : String := "."

/-- A switch in an environment variable. -/
def asSwitch (text : String) : Except Refusal Bool :=
  if text = "true" then .ok true
  else if text = "false" then .ok false
  else .error .usage

/-- The two sides of a command line. -/
structure Sides where
  /-- What stands in front of the command. -/
  front : Side
  /-- What stands behind it. -/
  back : Side

namespace Sides

/-- The value of a general option. -/
def value? (sides : Sides) (name : String) : Option String :=
  match sides.back.value? name with
  | some value => some value
  | none => sides.front.value? name

/-- The values of a general option. -/
def values (sides : Sides) (name : String) : List String :=
  if sides.back.has name then sides.back.values name else sides.front.values name

/-- Whether a general option is given. -/
def has (sides : Sides) (name : String) : Bool :=
  sides.back.has name || sides.front.has name

/-- The variable that stands in for a general option, read in some way. Each side on which the
option is not given asks for it, and refuses a value that makes no sense. -/
def substitute? {α : Type} (sides : Sides) (environment : Environment) (name : String)
    (read : String → Except Refusal α) : Except Refusal (Option α) :=
  if sides.back.has name && sides.front.has name then .ok none
  else
    match (optionVariables.lookup name).bind environment with
    | none => .ok none
    | some text => (read text).map some

/-- A path that a general option or its variable gives. -/
def path? (sides : Sides) (environment : Environment) (name : String) :
    Except Refusal (Option String) := do
  let front ← (sides.front.value? name).mapM asPath
  let back ← (sides.back.value? name).mapM asPath
  let fallback ← sides.substitute? environment name asPath
  return back <|> front <|> fallback

/-- The pairs that a general option gives. -/
def pairs (sides : Sides) (name : String) : Except Refusal (List (String × String)) := do
  let front ← (sides.front.values name).mapM asPair
  let back ← (sides.back.values name).mapM asPair
  return if sides.back.has name then back else front

/-- The general options. -/
def options (sides : Sides) (environment : Environment) : Except Refusal Options := do
  let config ← sides.path? environment "config"
  let values ← sides.path? environment "values"
  let repository ← sides.path? environment "repo"
  let strict ← sides.substitute? environment "strict" asSwitch
  let arguments ← sides.pairs "arg"
  let assignments ← sides.pairs "set"
  return {
    config
    values
    strict := sides.has "strict" || strict.getD false
    repository := if sides.has "no-git" then none else repository.getD defaultRepository
    arguments
    assignments }

end Sides

/-! ### Commands -/

/-- The option that gives a template. -/
def templateRule : OptionRule := ⟨"template", some 't', .text, false⟩

/-- The option that gives an output file. -/
def outputRule : OptionRule := ⟨"output", some 'o', .path, false⟩

/-- The option that makes the exit status tell an answer. -/
def exitCodeRule : OptionRule := ⟨"exit-code", none, .nothing, false⟩

/-- The option that gives the form of a listing. -/
def formatRule : OptionRule := ⟨"format", none, .format, false⟩

/-- The operand that stands for the standard input. -/
def inputOperand : String := "-"

/-- The template that an option or an operand gives, but not both. -/
def Side.source (side : Side) : Except Refusal TemplateSource :=
  match side.value? templateRule.name, side.operands with
  | some text, [] => .ok (.inline text)
  | none, [] => .ok .input
  | none, [operand] => .ok (if operand = inputOperand then .input else .file operand)
  | _, _ => .error .usage

/-- The form of a listing. -/
def Side.format (side : Side) : Except Refusal OutputFormat :=
  match side.value? formatRule.name with
  | none => .ok .text
  | some text => asFormat text

/-- A command that is known. -/
structure CommandRule where
  /-- The name of the command. -/
  name : String
  /-- The options that only this command takes. -/
  rules : List OptionRule
  /-- How many operands the command takes at most. -/
  limit : Nat
  /-- The command that its options and operands ask for. -/
  read : Side → Except Refusal Command

/-- The known commands. -/
def commandRules : List CommandRule :=
  [{ name := "render"
     rules := [templateRule, outputRule]
     limit := 1
     read := fun side ↦ do
      let output ← (side.value? outputRule.name).mapM asPath
      return .render (← side.source) output },
    { name := "eval"
      rules := [exitCodeRule]
      limit := 1
      read := fun side ↦
        match side.operands with
        | [expression] => .ok (.eval expression (side.has exitCodeRule.name))
        | _ => .error .usage },
    { name := "plan"
      rules := [formatRule]
      limit := 0
      read := fun side ↦ do return .plan (← side.format) },
    { name := "tokens"
      rules := [templateRule, formatRule]
      limit := 1
      read := fun side ↦ do return .tokens (← side.source) (← side.format) },
    { name := "values"
      rules := [formatRule]
      limit := 0
      read := fun side ↦ do return .values (← side.format) },
    { name := "validate", rules := [], limit := 0, read := fun _ ↦ .ok .validate }]

/-- The known command of a name. -/
def commandRule? (name : String) : Option CommandRule :=
  commandRules.find? (·.name = name)

/-- What the command that asks for help gives, which takes the name of a command at most. -/
def refusalOfHelp : List String → Refusal
  | [] => .help
  | [name] => if name = helpName ∨ (commandRule? name).isSome then .help else .usage
  | _ => .usage

/-- Reads a command line, with the environment variables that stand in for options. -/
def Invocation.read (environment : Environment) (arguments : List String) :
    Except Refusal Invocation := do
  let front ← readFront generalRules .empty arguments
  match front.rest with
  | [] => .error .usage
  | name :: rest =>
    if name = helpName then .error (refusalOfHelp rest)
    else
      match commandRule? name with
      | none => .error .usage
      | some rule =>
        let back ← readSide (generalRules ++ rule.rules) rule.limit .empty rest
        let sides : Sides := { front := front.side, back }
        let options ← sides.options environment
        let command ← rule.read back
        return { options, command }

end BuildPlan.CommandLine
