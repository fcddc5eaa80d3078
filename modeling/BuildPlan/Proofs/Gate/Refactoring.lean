import BuildPlan.Gate.Basic
import BuildPlan.Proofs.Gate.Evaluation

/-!
# Refactoring gates

Laws of boolean algebra that rearrange a gate without changing its answer. They do not come for
free. An operand may fail or be no boolean, and whether it is evaluated at all depends on the
operands before it, so exchanging the operands of a connective may change the answer.

As an operand of an operator, an expression has a boolean or fails (`Expr.answer`). The negation and
the connectives compute with these answers alone, and both connectives do it in the same way
(`connect`): the second answer is only asked for if the first one does not settle the result. The
laws are laws of `connect`, for either boolean that settles.

An operand that gets under another operator fails as before, except that a type error names the
operator that it now belongs to (`EvalError.SameBut`). The main result is `Expr.refactorings_safe`.
-/

set_option autoImplicit false
set_option relaxedAutoImplicit false

namespace BuildPlan

/-- Two errors of gates are the same, but for the operator that a type error names. -/
inductive GateError.SameBut (named named' : Gate.Lexeme) : GateError → GateError → Prop
  | same (error : GateError) : SameBut named named' error error
  | operator (expression : String) (found : Gate.Scalar) :
    SameBut named named' (.type expression (.notBoolean named found))
      (.type expression (.notBoolean named' found))

namespace Gate

variable {store : Store} {op : Operator} {named named' : Lexeme}

/-- Two errors of expressions are the same, but for the operator that a type error names. -/
inductive EvalError.SameBut (named named' : Lexeme) : EvalError → EvalError → Prop
  | same (error : EvalError) : SameBut named named' error error
  | operator (found : Scalar) :
    SameBut named named' (.type (.notBoolean named found)) (.type (.notBoolean named' found))

/-! ### Two answers one after the other -/

/-- The result of two answers. The second one is not asked for if the first one settles the
result. -/
def connect (settling : Bool) (first second : Except EvalError Bool) : Except EvalError Bool :=
  first >>= fun answer ↦ if answer = settling then .ok settling else second

section Connect

variable (settling : Bool) (first second third : Except EvalError Bool)

theorem connect_assoc : connect settling (connect settling first second) third =
    connect settling first (connect settling second third) := by
  cases first with
  | error error => rfl
  | ok answer => cases answer <;> cases settling <;> rfl

/-- A result is negated by negating the answers, and then the other boolean settles it. -/
theorem map_not_connect : (connect settling first second).map not =
    connect (!settling) (first.map not) (second.map not) := by
  cases first with
  | error error => rfl
  | ok answer => cases answer <;> cases settling <;> rfl

/-- An answer in front of two others may be asked for in front of each of them. -/
theorem connect_distrib : connect settling first (connect (!settling) second third) =
    connect (!settling) (connect settling first second) (connect settling first third) := by
  cases first with
  | error error => rfl
  | ok answer => cases answer <;> cases settling <;> rfl

variable {first second}

theorem matches_connect {r : EvalError → EvalError → Prop} {first' second' : Except EvalError Bool}
    (hfirst : first.Matches r first') (hsecond : second.Matches r second') :
    (connect settling first second).Matches r (connect settling first' second') := by
  cases hfirst with
  | error herror => exact .error herror
  | ok answer =>
    change (if answer = settling then _ else second).Matches r (if _ then _ else second')
    split
    · exact .ok settling
    · exact hsecond

end Connect

/-! ### The answers of operands -/

namespace Operator

/-- The boolean of the left operand of a connective that settles its result. -/
def settling : Operator → Bool
  | .or => true
  | _ => false

/-- The other connective. -/
def dual : Operator → Operator
  | .and => .or
  | .or => .and
  | op => op

theorem IsConnective.dual (h : op.IsConnective) : op.dual.IsConnective := by
  rcases h with rfl | rfl <;> decide

theorem IsConnective.settling_dual (h : op.IsConnective) : op.dual.settling = !op.settling := by
  rcases h with rfl | rfl <;> rfl

/-- A connective takes a boolean as its left operand, which may settle the result. -/
theorem settle_of_isConnective (h : op.IsConnective) (first : Scalar) :
    op.settle first = (asBoolean (.operator op) first).map fun answer ↦
      if answer = op.settling then some (.bool op.settling) else none := by
  rcases h with rfl | rfl <;> cases first with
  | bool answer => cases answer <;> rfl
  | _ => rfl

end Operator

namespace Expr

/-- The boolean that an expression has as an operand of an operator. -/
def answer (store : Store) (named : Lexeme) (expr : Expr) : Except EvalError Bool :=
  expr.eval store >>= asBoolean named

theorem eval_not (store : Store) (operand : Expr) :
    (not operand).eval store = ((operand.answer store .not).map Bool.not).map .bool := by
  rw [eval, answer]
  cases operand.eval store with
  | error error => rfl
  | ok value => cases value <;> rfl

/-- A connective connects the answers of its operands. -/
theorem eval_connective (hop : op.IsConnective) (store : Store) (left right : Expr) :
    (binary op left right).eval store =
      (connect op.settling (left.answer store (.operator op))
        (right.answer store (.operator op))).map .bool := by
  have hright (first : Scalar) : right.eval store >>= op.combine first =
      (right.answer store (.operator op)).map .bool := by
    rw [answer]
    cases right.eval store with
    | error error => rfl
    | ok second => exact Operator.combine_of_isConnective hop first second
  rw [eval_binary, answer]
  cases left.eval store with
  | error error => rfl
  | ok first =>
    change op.settle first >>= _ = (connect _ (asBoolean _ first) _).map _
    rw [Operator.settle_of_isConnective hop]
    cases asBoolean (.operator op) first with
    | error error => rfl
    | ok answer =>
      by_cases hsettles : answer = op.settling
      · simp [connect, Except.map, bind, Except.bind, hsettles, Operator.finish]
      · simpa [connect, Except.map, bind, Except.bind, hsettles, Operator.finish] using hright first

/-- An expression whose value is a boolean has it as an operand of every operator. -/
theorem answer_of_eval {expr : Expr} {outcome : Except EvalError Bool}
    (h : expr.eval store = outcome.map .bool) (named : Lexeme) :
    expr.answer store named = outcome := by
  rw [answer, h]
  cases outcome <;> rfl

/-- Under another operator an expression has the same answer, or fails in the same way but for the
operator that is named. -/
theorem answer_matches (store : Store) (named named' : Lexeme) (expr : Expr) :
    (expr.answer store named).Matches (EvalError.SameBut named named')
      (expr.answer store named') := by
  unfold answer
  cases expr.eval store with
  | error error => exact .error (.same error)
  | ok value =>
    cases value with
    | bool answer => exact .ok answer
    | number number text => exact .error (.operator _)
    | string text => exact .error (.operator _)

/-! ### Laws -/

theorem answer_not (store : Store) (named : Lexeme) (operand : Expr) :
    (not operand).answer store named = (operand.answer store .not).map Bool.not :=
  answer_of_eval (eval_not store operand) named

theorem answer_connective (hop : op.IsConnective) (store : Store) (named : Lexeme)
    (left right : Expr) : (binary op left right).answer store named =
      connect op.settling (left.answer store (.operator op)) (right.answer store (.operator op)) :=
  answer_of_eval (eval_connective hop store left right) named

/-- The operands of a connective may be grouped in either way. -/
theorem eval_assoc (hop : op.IsConnective) (store : Store) (a b c : Expr) :
    (binary op (binary op a b) c).eval store = (binary op a (binary op b c)).eval store := by
  simp only [eval_connective hop, answer_connective hop, connect_assoc]

/-- A negated connective is the other connective of the negated operands, whose faults name the
negation. -/
theorem eval_not_connective (hop : op.IsConnective) (store : Store) (a b : Expr) :
    ((not (binary op a b)).eval store).Matches (EvalError.SameBut (.operator op) .not)
      ((binary op.dual (not a) (not b)).eval store) := by
  rw [eval_not, eval_connective hop.dual, hop.settling_dual, answer_connective hop, answer_not,
    answer_not, ← map_not_connect]
  exact ((matches_connect _ (answer_matches store _ _ a) (answer_matches store _ _ b)).map _).map _

/-- A connective over the other one may be taken into both operands of that one, whose faults name
the first connective then. -/
theorem eval_distrib (hop : op.IsConnective) (store : Store) (a b c : Expr) :
    ((binary op a (binary op.dual b c)).eval store).Matches
      (EvalError.SameBut (.operator op.dual) (.operator op))
      ((binary op.dual (binary op a b) (binary op a c)).eval store) := by
  rw [eval_connective hop, eval_connective hop.dual, answer_connective hop.dual,
    answer_connective hop, answer_connective hop, hop.settling_dual, ← connect_distrib]
  exact (matches_connect _ (.refl .same _)
    (matches_connect _ (answer_matches store _ _ b) (answer_matches store _ _ c))).map _

/-! ### Exchanging expressions -/

/-- Two expressions may be exchanged. They have the same value, and the same answer as gates with
the same text, or they both fail with the same error, but for the operator that a type error
names. -/
structure Interchangeable (store : Store) (named named' : Lexeme) (expr other : Expr) : Prop where
  /-- Within an expression. -/
  eval : (expr.eval store).Matches (EvalError.SameBut named named') (other.eval store)
  /-- As gates. -/
  evaluate : ∀ source, (Gate.evaluate ⟨source, expr⟩ store).Matches
    (GateError.SameBut named named') (Gate.evaluate ⟨source, other⟩ store)

/-- The answer of a gate comes from the value of its expression. -/
theorem interchangeable_of_eval {expr other : Expr}
    (h : (expr.eval store).Matches (EvalError.SameBut named named') (other.eval store)) :
    Interchangeable store named named' expr other := by
  refine ⟨h, fun source ↦ ?_⟩
  unfold Gate.evaluate
  dsimp only
  generalize expr.eval store = first, other.eval store = second at h ⊢
  cases h with
  | ok value => exact .refl .same _
  | error herror =>
    cases herror with
    | same error => exact .error (.same _)
    | operator found => exact .error (.operator source found)

/-- Gates may be refactored by the laws of boolean algebra that keep the order of the operands, and
errors are kept too. The operands of a connective may be grouped in either way. The negation of a
connective may be taken to its operands, and `&&` over `||` into the operands of `||`. What changes
is at most the operator that is named for an operand that is no boolean. -/
theorem refactorings_safe (store : Store) (a b c : Expr) :
    (binary .and (binary .and a b) c).eval store = (binary .and a (binary .and b c)).eval store ∧
    (binary .or (binary .or a b) c).eval store = (binary .or a (binary .or b c)).eval store ∧
    Interchangeable store (.operator .and) .not
      (not (binary .and a b)) (binary .or (not a) (not b)) ∧
    Interchangeable store (.operator .or) .not
      (not (binary .or a b)) (binary .and (not a) (not b)) ∧
    Interchangeable store (.operator .or) (.operator .and)
      (binary .and a (binary .or b c)) (binary .or (binary .and a b) (binary .and a c)) := by
  have hand : Operator.IsConnective .and := .inl rfl
  have hor : Operator.IsConnective .or := .inr rfl
  exact ⟨eval_assoc hand store a b c, eval_assoc hor store a b c,
    interchangeable_of_eval (eval_not_connective hand store a b),
    interchangeable_of_eval (eval_not_connective hor store a b),
    interchangeable_of_eval (eval_distrib hand store a b c)⟩

end Expr

end Gate

end BuildPlan
