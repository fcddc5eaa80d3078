import BuildPlan.Gate.Scalar

/-!
# Gate expressions

The trees of gate expressions: literals, identifiers that name values of a store, the negation and
the binary operators.
-/

set_option autoImplicit false
set_option relaxedAutoImplicit false

namespace BuildPlan.Gate

/-- A binary operator. -/
inductive Operator where
  | or
  | and
  | eq
  | ne
  | lt
  | le
  | gt
  | ge
  deriving DecidableEq

namespace Operator

/-- The symbol of an operator. -/
def symbol : Operator → String
  | .or => "||"
  | .and => "&&"
  | .eq => "=="
  | .ne => "!="
  | .lt => "<"
  | .le => "<="
  | .gt => ">"
  | .ge => ">="

/-- How strongly an operator binds its operands. -/
def precedence : Operator → Nat
  | .or => 1
  | .and => 2
  | .eq | .ne => 3
  | .lt | .le | .gt | .ge => 4

end Operator

/-- How strongly the negation binds its operand. -/
def negationPrecedence : Nat := 5

/-- An expression. -/
inductive Expr where
  /-- A value that is written out. -/
  | literal (value : Scalar)
  /-- A value of the store. -/
  | identifier (name : String)
  /-- The negation of a boolean. -/
  | not (operand : Expr)
  /-- Two operands joined by an operator. -/
  | binary (operator : Operator) (left right : Expr)
  deriving DecidableEq

/-- The number of nodes on the longest way from the root of an expression to a leaf. -/
def Expr.height : Expr → Nat
  | .literal _ => 1
  | .identifier _ => 1
  | .not operand => operand.height + 1
  | .binary _ left right => max left.height right.height + 1

end BuildPlan.Gate
