import BuildPlan.Gate.Eval
import BuildPlan.Gate.Parser

/-!
# Gates

A gate is a boolean expression over a store. It never falls back to an answer: an expression that
cannot be read, or that has no boolean value, is an error.
-/

set_option autoImplicit false
set_option relaxedAutoImplicit false

namespace BuildPlan

/-- Why a gate has no answer. All but the first name the expression as it was evaluated. -/
inductive GateError where
  /-- The placeholders of the expression could not be replaced. -/
  | interpolation (cause : ConfigError)
  /-- The expression cannot be read. -/
  | malformed (expression : String) (error : Gate.Malformed)
  /-- An identifier names nothing. -/
  | unknownIdentifier (expression name : String)
  /-- A value is of the wrong kind. -/
  | type (expression : String) (fault : Gate.TypeFault)
  /-- The value of the expression is not a boolean. -/
  | notBoolean (expression : String) (found : Gate.Scalar)
  deriving DecidableEq

/-- The words for a cause. -/
def GateError.message : GateError → String
  | .interpolation cause => cause.message
  | .malformed expression error =>
    "syntax error in " ++ backquoted expression ++ " at offset " ++ toString error.offset ++ ": " ++
      error.fault.message
  | .unknownIdentifier expression name =>
    "unknown identifier " ++ backquoted name ++ " in " ++ backquoted expression
  | .type expression fault => "type error in " ++ backquoted expression ++ ": " ++ fault.message
  | .notBoolean expression found =>
    backquoted expression ++ " evaluated to " ++ found.describe ++ ", expected a boolean"

/-- A failure of the evaluation, with the expression it belongs to. -/
def GateError.ofEvalError (expression : String) : Gate.EvalError → GateError
  | .unknownIdentifier name => .unknownIdentifier expression name
  | .type fault => .type expression fault

/-- A gate that was read. -/
structure Gate where
  /-- The text that was read. -/
  source : String
  /-- The tree of the expression. -/
  expr : Gate.Expr
  deriving DecidableEq

namespace Gate

/-- Reads a gate. -/
def compile (source : String) : Except GateError Gate :=
  match lexemes source with
  | .error error => .error (.malformed source error)
  | .ok text =>
    match parse source.utf8ByteSize text with
    | .error error => .error (.malformed source error)
    | .ok expr => .ok { source, expr }

/-- The answer of a gate over a store. -/
def evaluate (gate : Gate) (store : Store) : Except GateError Bool :=
  match gate.expr.eval store with
  | .ok (.bool value) => .ok value
  | .ok found => .error (.notBoolean gate.source found)
  | .error error => .error (.ofEvalError gate.source error)

end Gate

end BuildPlan
