import BuildPlan.Gate.Eval
import BuildPlan.Proofs.Outcome

/-!
# Evaluating operators

A binary operator evaluates its left operand first. That may settle the result
(`Operator.settle`); if it does not, the right operand is evaluated too, and the result comes from
both values (`Operator.combine`). All operators are evaluated in this way (`Expr.eval_binary`): they
differ in what the left operand settles and in what becomes of two values, and both are said here.
-/

set_option autoImplicit false
set_option relaxedAutoImplicit false

namespace BuildPlan.Gate

variable {store : Store} {op : Operator} {connective : Lexeme} {first second value : Scalar}
  {error : EvalError} {answer : Bool}

/-- A value that is no boolean. -/
def Scalar.IsNotBoolean (value : Scalar) : Prop :=
  ∀ answer, value ≠ .bool answer

theorem asBoolean_eq_ok_iff : asBoolean connective value = .ok answer ↔ value = .bool answer := by
  cases value <;> simp [asBoolean]

theorem asBoolean_eq_error_iff : asBoolean connective value = .error error ↔
    value.IsNotBoolean ∧ error = .type (.notBoolean connective value) := by
  cases value <;> simp [asBoolean, Scalar.IsNotBoolean, eq_comm]

namespace Operator

/-- An operator on booleans that may do without its right operand. -/
def IsConnective (op : Operator) : Prop :=
  op = .and ∨ op = .or

instance (op : Operator) : Decidable op.IsConnective :=
  inferInstanceAs (Decidable (op = .and ∨ op = .or))

/-- The value of the left operand leaves the result open. -/
def NeedsRight : Operator → Scalar → Prop
  | .and, first => first = .bool true
  | .or, first => first = .bool false
  | _, _ => True

/-- The result that the value of the left operand settles, if it settles one. -/
def settle : Operator → Scalar → Except EvalError (Option Scalar)
  | .and, first => (asBoolean (.operator .and) first).map fun answer ↦
    if answer then none else some (.bool false)
  | .or, first => (asBoolean (.operator .or) first).map fun answer ↦
    if answer then some (.bool true) else none
  | _, _ => .ok none

/-- The result from the values of both operands. -/
def combine : Operator → Scalar → Scalar → Except EvalError Scalar
  | .and, _, second => (asBoolean (.operator .and) second).map .bool
  | .or, _, second => (asBoolean (.operator .or) second).map .bool
  | op, first, second => compareWith op first second

/-- The result once the left operand has a value, from what it settles and from the evaluation of
the right operand. -/
def finish (op : Operator) (first : Scalar) (right : Except EvalError Scalar) :
    Option Scalar → Except EvalError Scalar
  | some value => .ok value
  | none => right >>= op.combine first

/-- A connective is at fault if its left operand is no boolean. -/
theorem settle_eq_error_iff : op.settle first = .error error ↔
    op.IsConnective ∧ first.IsNotBoolean ∧ error = .type (.notBoolean (.operator op) first) := by
  cases op <;> simp [settle, Except.map_eq_error_iff, asBoolean_eq_error_iff, IsConnective]

theorem settle_eq_none_iff : op.settle first = .ok none ↔ op.NeedsRight first := by
  cases op <;> simp [settle, NeedsRight, Except.map_eq_ok_iff, asBoolean_eq_ok_iff]

/-- What the left operand settles is a boolean. -/
theorem exists_bool_of_settle (h : op.settle first = .ok (some value)) :
    ∃ answer, value = .bool answer := by
  cases op <;> simp_all [settle, Except.map_eq_ok_iff]

theorem combine_of_isConnective (h : op.IsConnective) (first second : Scalar) :
    op.combine first second = (asBoolean (.operator op) second).map .bool := by
  rcases h with rfl | rfl <;> rfl

theorem combine_of_not_isConnective (h : ¬ op.IsConnective) (first second : Scalar) :
    op.combine first second = compareWith op first second := by
  cases op <;> simp_all [combine, IsConnective]

theorem needsRight_of_not_isConnective (h : ¬ op.IsConnective) (first : Scalar) :
    op.NeedsRight first := by
  cases op <;> simp_all [NeedsRight, IsConnective]

end Operator

/-- The result of a comparison is a boolean. -/
theorem exists_bool_of_compareWith (h : compareWith op first second = .ok value) :
    ∃ answer, value = .bool answer := by
  unfold compareWith at h
  split at h
  · exact ⟨_, (Except.ok.inj h).symm⟩
  · exact ⟨_, (Except.ok.inj h).symm⟩
  · split at h
    · exact ⟨_, (Except.ok.inj h).symm⟩
    · cases h

namespace Expr

variable {left right : Expr}

/-- A binary operator evaluates its left operand, and its right one if the first value leaves the
result open. -/
theorem eval_binary (store : Store) (op : Operator) (left right : Expr) :
    (binary op left right).eval store =
      left.eval store >>= fun first ↦ op.settle first >>= op.finish first (right.eval store) := by
  cases op with
  | and =>
    rw [eval]
    cases left.eval store with
    | error error => rfl
    | ok first =>
      cases first with
      | bool answer =>
        cases answer with
        | true => cases right.eval store with
          | error error => rfl
          | ok second => cases second <;> rfl
        | false => rfl
      | _ => rfl
  | or =>
    rw [eval]
    cases left.eval store with
    | error error => rfl
    | ok first =>
      cases first with
      | bool answer =>
        cases answer with
        | true => rfl
        | false => cases right.eval store with
          | error error => rfl
          | ok second => cases second <;> rfl
      | _ => rfl
  | _ => rfl

/-- The evaluation of the right operand matters only if the left one leaves the result open. -/
theorem bind_finish_congr {first second second' : Except EvalError Scalar}
    (h : first >>= op.settle = .ok none → second' = second) :
    (first >>= fun value ↦ op.settle value >>= op.finish value second') =
      first >>= fun value ↦ op.settle value >>= op.finish value second := by
  cases first with
  | error error => rfl
  | ok value =>
    change op.settle value = .ok none → _ at h
    change op.settle value >>= _ = op.settle value >>= _
    cases hsettle : op.settle value with
    | error error => rfl
    | ok settled =>
      cases settled with
      | some result => rfl
      | none => rw [h hsettle]

/-- The result of a binary operator is a boolean. -/
theorem exists_bool_of_eval_binary (h : (binary op left right).eval store = .ok value) :
    ∃ answer, value = .bool answer := by
  rw [eval_binary] at h
  obtain ⟨first, -, hfinish⟩ := Except.bind_eq_ok_iff.1 h
  obtain ⟨settled, hsettle, hvalue⟩ := Except.bind_eq_ok_iff.1 hfinish
  cases settled with
  | some found =>
    obtain rfl := Except.ok.inj hvalue
    exact Operator.exists_bool_of_settle hsettle
  | none =>
    obtain ⟨second, -, hcombine⟩ := Except.bind_eq_ok_iff.1 hvalue
    by_cases hop : op.IsConnective
    · rw [Operator.combine_of_isConnective hop] at hcombine
      obtain ⟨answer, -, hanswer⟩ := Except.map_eq_ok_iff.1 hcombine
      exact ⟨answer, hanswer.symm⟩
    · rw [Operator.combine_of_not_isConnective hop] at hcombine
      exact exists_bool_of_compareWith hcombine

/-- An operator that is no connective compares the values of both operands. -/
theorem eval_comparison (hop : ¬ op.IsConnective) (left right : Expr) :
    (binary op left right).eval store =
      left.eval store >>= fun first ↦ right.eval store >>= compareWith op first := by
  rw [eval_binary]
  refine bind_congr fun first ↦ ?_
  have hsettle : op.settle first = .ok none :=
    Operator.settle_eq_none_iff.2 (Operator.needsRight_of_not_isConnective hop first)
  have hcombine : op.combine first = compareWith op first :=
    funext (Operator.combine_of_not_isConnective hop first)
  rw [hsettle, ← hcombine]
  rfl

end Expr

end BuildPlan.Gate
