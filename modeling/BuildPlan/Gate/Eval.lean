import BuildPlan.Gate.Expr
import BuildPlan.Gate.Lexeme
import BuildPlan.Store.Path

/-!
# Evaluating gate expressions

An expression is evaluated from left to right over a store. `&&` and `||` evaluate their right
operand only if the left one does not settle the matter; everything else that is part of the
expression is evaluated, and the first failure is the failure of the whole.
-/

set_option autoImplicit false
set_option relaxedAutoImplicit false

namespace BuildPlan.Gate

/-- Values of the wrong kind. -/
inductive TypeFault where
  /-- An identifier that names a nested store. -/
  | nestedMapping (name : String)
  /-- An operand of an operator on booleans that is none. -/
  | notBoolean (operator : Lexeme) (found : Scalar)
  /-- Two operands of an ordering that have no order. -/
  | unordered (left right : Scalar)
  deriving DecidableEq

/-- The words for a fault. -/
def TypeFault.message : TypeFault → String
  | .nestedMapping name => backquoted name ++ " is a nested mapping, not a value"
  | .notBoolean operator found =>
    operator.describe ++ " expects booleans, found " ++ found.describe
  | .unordered left right => "cannot order " ++ left.describe ++ " and " ++ right.describe

/-- Why an expression has no value. -/
inductive EvalError where
  /-- An identifier that names nothing. -/
  | unknownIdentifier (name : String)
  /-- Values of the wrong kind. -/
  | type (fault : TypeFault)
  deriving DecidableEq

/-- What an identifier stands for in a store. -/
def evalIdentifier (store : Store) (name : String) : Except EvalError Scalar :=
  match store.lookup name with
  | some (.leaf text) => .ok (.ofLeaf text)
  | some (.nested _) => .error (.type (.nestedMapping name))
  | none => .error (.unknownIdentifier name)

/-- The boolean that a value is, for an operator that takes no other. -/
def asBoolean (operator : Lexeme) : Scalar → Except EvalError Bool
  | .bool value => .ok value
  | found => .error (.type (.notBoolean operator found))

/-- Whether an order agrees with an ordering operator. -/
def Operator.admits : Operator → Ordering → Bool
  | .lt, order => order == .lt
  | .le, order => order != .gt
  | .gt, order => order == .gt
  | .ge, order => order != .lt
  | _, _ => false

/-- The result of a comparison of two values. -/
def compareWith (op : Operator) (left right : Scalar) : Except EvalError Scalar :=
  match op with
  | .eq => .ok (.bool (left.equal right))
  | .ne => .ok (.bool !(left.equal right))
  | _ =>
    match left.compare? right with
    | some order => .ok (.bool (op.admits order))
    | none => .error (.type (.unordered left right))

/-- The value of an expression over a store. -/
def Expr.eval (store : Store) : Expr → Except EvalError Scalar
  | .literal value => .ok value
  | .identifier name => evalIdentifier store name
  | .not operand => do
    let value ← asBoolean .not (← operand.eval store)
    return .bool !value
  | .binary .and left right => do
    if ← asBoolean (.operator .and) (← left.eval store) then
      return .bool (← asBoolean (.operator .and) (← right.eval store))
    else return .bool false
  | .binary .or left right => do
    if ← asBoolean (.operator .or) (← left.eval store) then return .bool true
    else return .bool (← asBoolean (.operator .or) (← right.eval store))
  | .binary op left right => do
    let first ← left.eval store
    let second ← right.eval store
    compareWith op first second

end BuildPlan.Gate
