import BuildPlan.Gate.Lexeme

/-!
# Reading gate expressions

The negation binds most strongly, then the orderings, the two equalities, `&&` and `||`. All binary
operators associate to the left. An expression is read by climbing these levels: `climb` reads an
operand and then folds in every operator that binds at least as strongly as a minimum, reading the
right operand of each with a higher minimum.

Two measures limit how deep an expression may go. The *depth* of a lexeme counts the negations and
parentheses that are open around it. The *height* of a tree counts its levels, to which parentheses
add nothing. Both may be at most `maxDepth`, and the first one that is exceeded is reported at the
lexeme that exceeded it.

`climb` is given a budget of nested calls. One more than the number of lexemes is always enough,
since each nested call starts at a later lexeme.
-/

set_option autoImplicit false
set_option relaxedAutoImplicit false

namespace BuildPlan.Gate

/-- An expression that was read from some lexemes, with the height of its tree and the lexemes
after it, fewer than a bound. -/
structure Parsed (bound : Nat) where
  expr : Expr
  height : Nat
  rest : List Spanned
  shorter : rest.length < bound

namespace Parsed

/-- An expression in front of lexemes of which none was read. -/
def before (expr : Expr) (height : Nat) (rest : List Spanned) : Parsed (rest.length + 1) where
  expr
  height
  rest
  shorter := Nat.lt_succ_self _

/-- The same under a larger bound. -/
def widen {bound : Nat} (parsed : Parsed bound) : Parsed (bound + 1) where
  expr := parsed.expr
  height := parsed.height
  rest := parsed.rest
  shorter := Nat.lt_succ_of_lt parsed.shorter

/-- What was read from the lexemes that an earlier part left, under the bound of that part. -/
def under {bound : Nat} (earlier : Parsed bound) (later : Parsed (earlier.rest.length + 1)) :
    Parsed bound where
  expr := later.expr
  height := later.height
  rest := later.rest
  shorter := Nat.lt_of_lt_of_le later.shorter earlier.shorter

end Parsed

/-- A reader of expressions, at a depth and with a minimum for the operators that it folds in. -/
abbrev ExprReader :=
  (depth minimum : Nat) → (text : List Spanned) → Except Malformed (Parsed text.length)

/-- Refuses a depth or a height beyond the limit, at an offset. -/
def checkDepth (depth offset : Nat) : Except Malformed Unit :=
  if maxDepth < depth then .error { offset, fault := .tooDeep } else .ok ()

/-- Reads an operand: a literal, an identifier, an expression in parentheses, or a negation. The
first argument is the offset at which the text ends. -/
def readOperand (finish : Nat) (read : ExprReader) (depth : Nat) :
    (text : List Spanned) → Except Malformed (Parsed text.length)
  | [] => .error { offset := finish, fault := .expectedExpression }
  | ⟨.not, offset⟩ :: text => do
    checkDepth (depth + 1) offset
    let operand ← read (depth + 1) negationPrecedence text
    checkDepth (operand.height + 1) offset
    return { operand.widen with expr := .not operand.expr, height := operand.height + 1 }
  | ⟨.leftParen, offset⟩ :: text => do
    checkDepth (depth + 1) offset
    let inner ← read (depth + 1) 0 text
    match _ : inner.rest with
    | ⟨.rightParen, _⟩ :: rest => return {
        expr := inner.expr
        height := inner.height
        rest
        shorter := by
          have := inner.shorter
          simp_all only [List.length_cons]
          omega }
    | ⟨found, offset⟩ :: _ => .error { offset, fault := .expectedRightParen (some found) }
    | [] => .error { offset := finish, fault := .expectedRightParen none }
  | ⟨.literal value, _⟩ :: text =>
    .ok (.before (.literal value) 1 text)
  | ⟨.identifier name, _⟩ :: text =>
    .ok (.before (.identifier name) 1 text)
  | ⟨found, offset⟩ :: _ => .error { offset, fault := .expectedOperand found }

/-- Folds operators and their right operands into a left operand, as long as the operators bind at
least as strongly as a minimum. -/
def readOperators
    (read : (minimum : Nat) → (text : List Spanned) → Except Malformed (Parsed text.length))
    (minimum : Nat) (left : Expr) (height : Nat) (text : List Spanned) :
    Except Malformed (Parsed (text.length + 1)) :=
  match text with
  | ⟨.operator op, offset⟩ :: rest =>
    if op.precedence < minimum then .ok (.before left height (⟨.operator op, offset⟩ :: rest))
    else do
      let right ← read (op.precedence + 1) rest
      let height := max height right.height + 1
      checkDepth height offset
      have := right.shorter
      let done ← readOperators read minimum (.binary op left right.expr) height right.rest
      return (right.under done).widen.widen
  | text => .ok (.before left height text)
termination_by text.length
decreasing_by
  simp only [List.length_cons]
  omega

/-- Reads an expression whose operators bind at least as strongly as a minimum, with a budget of
nested calls. -/
def climb (finish : Nat) : (budget : Nat) → ExprReader
  | 0, _, _, _ => .error { offset := finish, fault := .outOfBudget }
  | budget + 1, depth, minimum, text => do
    let first ← readOperand finish (climb finish budget) depth text
    let done ← readOperators (climb finish budget depth) minimum first.expr first.height first.rest
    return first.under done

/-- Reads a whole list of lexemes as one expression. -/
def parse (finish : Nat) (text : List Spanned) : Except Malformed Expr := do
  let parsed ← climb finish (text.length + 1) 0 0 text
  match parsed.rest with
  | [] => return parsed.expr
  | extra :: _ => .error { offset := extra.offset, fault := .unexpected extra.lexeme }

end BuildPlan.Gate
