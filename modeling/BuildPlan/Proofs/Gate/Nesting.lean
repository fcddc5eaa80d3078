import BuildPlan.Proofs.Gate.Parsing

/-!
# How deep calls nest while a gate is read

Reading an expression calls itself for what stands inside of a negation or of parentheses, and for
the right operand of an operator. Only the former are counted as nesting. But a right operand is
read with a higher minimum than the expression it belongs to, and no operator binds as strongly as
the negation, so at most five calls are open at each depth (`activations`). Two budgets that cover
these calls give the same result (`climb_eq_of_suffices`).

The depth is known to a call as an argument. The same reader can also count as it goes, one up where
a negation or a parenthesis is opened and one down behind it. That counter is then a state, which
every call that succeeds leaves as it was (`Counting.climb_eq_counted`). The main statement,
`calls_bounded_and_heights_honest`, says how many nested calls are enough for the counting reader on
any list of lexemes, and that what it counts is true. No smaller number is enough
(`never_out_of_budget_iff`).
-/

set_option autoImplicit false
set_option relaxedAutoImplicit false

namespace BuildPlan.Gate

/-! ### Calls that are open at once -/

/-- The most calls that are open at once for an expression at a depth: as many as there are
precedences for each depth that may still be entered, and at its own depth one for the minimum and
one for each minimum above it. -/
def activations (depth minimum : Nat) : Nat :=
  negationPrecedence * (maxDepth - depth) + (negationPrecedence + 1 - max 1 minimum)

/-- A budget of nested calls that is enough for an expression, since there are few lexemes or since
the calls that can be open at once are few. -/
def Suffices (budget depth minimum : Nat) (text : List Spanned) : Prop :=
  text.length < budget ∨
    depth ≤ maxDepth ∧ minimum ≤ negationPrecedence ∧ activations depth minimum ≤ budget

theorem Operator.precedence_pos (op : Operator) : 0 < op.precedence := by
  cases op <;> decide

theorem activations_zero : activations 0 0 = 5 * 257 := by
  decide

theorem not_suffices_zero {depth minimum : Nat} {text : List Spanned} :
    ¬ Suffices 0 depth minimum text := by
  rintro (hlength | ⟨-, hminimum, hcalls⟩)
  · exact Nat.not_lt_zero _ hlength
  · simp only [activations, negationPrecedence] at hminimum hcalls
    omega

/-- What is enough for an expression is enough, but for one call, for one inside of a negation or of
parentheses that start it. -/
theorem Suffices.inside {budget depth minimum : Nat} {first : Spanned} {rest : List Spanned}
    (h : Suffices (budget + 1) depth minimum (first :: rest)) (hdepth : depth + 1 ≤ maxDepth)
    {inner : Nat} (hinner : inner ≤ negationPrecedence) :
    Suffices budget (depth + 1) inner rest := by
  rcases h with hlength | ⟨-, hminimum, hcalls⟩
  · exact .inl (Nat.lt_of_succ_lt_succ hlength)
  · refine .inr ⟨hdepth, hinner, ?_⟩
    simp only [activations, negationPrecedence] at hminimum hcalls ⊢
    omega

/-- What is enough for an expression is enough, but for one call, for the right operand of an
operator that it folds in. -/
theorem Suffices.rightOperand {budget depth minimum : Nat} {text rest : List Spanned}
    (h : Suffices (budget + 1) depth minimum text) (hrest : rest.length < text.length)
    {op : Operator} (hop : minimum ≤ op.precedence) :
    Suffices budget depth (op.precedence + 1) rest := by
  have hpos := op.precedence_pos
  have hlt := op.precedence_lt
  rcases h with hlength | ⟨hdepth, hminimum, hcalls⟩
  · exact .inl (by omega)
  · refine .inr ⟨hdepth, hlt, ?_⟩
    simp only [activations, negationPrecedence] at hminimum hcalls ⊢
    omega

/-! ### Budgets that are enough -/

/-- What an operand is read as depends on the reader only one level further in, and there only if
that level is within the limit. -/
theorem readOperand_congr {finish depth : Nat} {read read' : ExprReader} {text : List Spanned}
    (h : ∀ first rest minimum, text = first :: rest → depth + 1 ≤ maxDepth →
      minimum ≤ negationPrecedence →
        read (depth + 1) minimum rest = read' (depth + 1) minimum rest) :
    readOperand finish read depth text = readOperand finish read' depth text := by
  match text with
  | [] => rfl
  | ⟨.not, offset⟩ :: text =>
    -- Beyond the limit the depth is refused before anything inside is read.
    rw [readOperand, readOperand]
    by_cases hdepth : depth + 1 ≤ maxDepth
    · rw [h _ text _ rfl hdepth (Nat.le_refl _)]
    · rw [checkDepth_eq_error_iff.2 ⟨Nat.lt_of_not_le hdepth, rfl⟩]
      rfl
  | ⟨.leftParen, offset⟩ :: text =>
    rw [readOperand, readOperand]
    by_cases hdepth : depth + 1 ≤ maxDepth
    · rw [h _ text _ rfl hdepth (Nat.zero_le _)]
    · rw [checkDepth_eq_error_iff.2 ⟨Nat.lt_of_not_le hdepth, rfl⟩]
      rfl
  | ⟨.literal value, offset⟩ :: text => rfl
  | ⟨.identifier name, offset⟩ :: text => rfl
  | ⟨.rightParen, offset⟩ :: text => rfl
  | ⟨.operator op, offset⟩ :: text => rfl

/-- What operators fold in depends on the reader only for their right operands. -/
theorem readOperators_congr {read read' : (minimum : Nat) → (text : List Spanned) →
      Except Malformed (Parsed text.length)} {minimum height : Nat} {left : Expr}
    {text : List Spanned}
    (h : ∀ (op : Operator) (rest : List Spanned), minimum ≤ op.precedence →
      rest.length < text.length → read (op.precedence + 1) rest = read' (op.precedence + 1) rest) :
    readOperators read minimum left height text = readOperators read' minimum left height text := by
  fun_induction readOperators read minimum left height text with
  | case1 left height op offset rest hop =>
    rw [readOperators, if_pos hop]
  | case2 left height op offset rest hop ih =>
    rw [readOperators, if_neg hop, h op rest (Nat.not_lt.1 hop) (Nat.lt_succ_self _)]
    congr 1
    funext right
    have hshorter := right.shorter
    have hnext := ih right fun other after hother hafter ↦
      h other after hother (by simp only [List.length_cons]; omega)
    simp only [hnext]
  | case3 left height text hnone =>
    unfold readOperators
    split
    next op offset rest => exact absurd rfl (hnone op offset rest)
    next => rfl

/-- Two budgets that are enough give the same result, error or not. -/
theorem climb_eq_of_suffices {finish budget budget' depth minimum : Nat} {text : List Spanned}
    (h : Suffices budget depth minimum text) (h' : Suffices budget' depth minimum text) :
    climb finish budget depth minimum text = climb finish budget' depth minimum text := by
  induction budget generalizing budget' depth minimum text with
  | zero => exact absurd h not_suffices_zero
  | succ budget ih =>
    cases budget' with
    | zero => exact absurd h' not_suffices_zero
    | succ budget' =>
      -- Every nested call takes one from both budgets, and what is left is enough for it.
      rw [climb, climb]
      rw [readOperand_congr fun first rest inner htext hdepth hinner ↦ by
        subst htext
        exact ih (h.inside hdepth hinner) (h'.inside hdepth hinner)]
      congr 1
      funext first
      rw [readOperators_congr fun op rest hop hrest ↦
        have hshorter := Nat.lt_trans hrest first.shorter
        ih (h.rightOperand hshorter hop) (h'.rightOperand hshorter hop)]

/-! ### A reader that counts what is open -/

/-- The negation of an expression that was read. -/
def Parsed.negated {bound : Nat} (operand : Parsed bound) : Parsed bound where
  expr := .not operand.expr
  height := operand.height + 1
  rest := operand.rest
  shorter := operand.shorter

/-- Reads the parenthesis behind an expression. -/
def readClosing (finish : Nat) {bound : Nat} (inner : Parsed bound) :
    Except Malformed (Parsed (bound + 1)) :=
  match _ : inner.rest with
  | [] => .error { offset := finish, fault := .expectedRightParen none }
  | ⟨.rightParen, _⟩ :: rest => .ok {
      expr := inner.expr
      height := inner.height
      rest
      shorter := by
        have := inner.shorter
        simp_all only [List.length_cons]
        omega }
  | ⟨found, offset⟩ :: _ => .error { offset, fault := .expectedRightParen (some found) }

theorem readOperand_leftParen (finish : Nat) (read : ExprReader) (depth offset : Nat)
    (text : List Spanned) :
    readOperand finish read depth (⟨.leftParen, offset⟩ :: text) =
      (do checkDepth (depth + 1) offset; let inner ← read (depth + 1) 0 text
          readClosing finish inner) := by
  rw [readOperand]
  congr 1
  funext _
  congr 1
  funext inner
  obtain ⟨expr, height, _ | ⟨⟨lexeme, _⟩, rest⟩, shorter⟩ := inner
  · rfl
  · cases lexeme <;> rfl

/-- Steps that may fail and that keep a counter of the negations and parentheses that are open. -/
abbrev Counting := StateT Nat (Except Malformed)

namespace Counting

/-- A reader of expressions with a minimum for the operators that it folds in. It finds the depth in
the counter. -/
abbrev ExprReader := (minimum : Nat) → (text : List Spanned) → Counting (Parsed text.length)

/-- Counts one that is opened at an offset, and refuses it beyond the limit. -/
def enter (offset : Nat) : Counting Unit := do
  modify (· + 1)
  checkDepth (← get) offset

/-- Counts one that is behind. -/
def leave : Counting Unit :=
  modify (· - 1)

/-- Reads a literal, an identifier or an expression in parentheses. -/
def readPrimary (finish : Nat) (read : ExprReader) :
    (text : List Spanned) → Counting (Parsed text.length)
  | [] => throw { offset := finish, fault := .expectedExpression }
  | ⟨.leftParen, offset⟩ :: text => do
    enter offset
    let inner ← read 0 text
    leave
    readClosing finish inner
  | ⟨.literal value, _⟩ :: text => return .before (.literal value) 1 text
  | ⟨.identifier name, _⟩ :: text => return .before (.identifier name) 1 text
  | ⟨found, offset⟩ :: _ => throw { offset, fault := .expectedOperand found }

/-- Reads a negation, or what `readPrimary` reads. -/
def readPrefix (finish : Nat) (read : ExprReader) :
    (text : List Spanned) → Counting (Parsed text.length)
  | ⟨.not, offset⟩ :: text => do
    enter offset
    let operand ← read negationPrecedence text
    leave
    checkDepth (operand.height + 1) offset
    return operand.negated.widen
  | text => readPrimary finish read text

/-- Folds operators and their right operands into a left operand. -/
def readOperators (read : ExprReader) (minimum : Nat) (left : Expr) (height : Nat)
    (text : List Spanned) : Counting (Parsed (text.length + 1)) :=
  match text with
  | ⟨.operator op, offset⟩ :: rest =>
    if op.precedence < minimum then return .before left height (⟨.operator op, offset⟩ :: rest)
    else do
      let right ← read (op.precedence + 1) rest
      let height := max height right.height + 1
      checkDepth height offset
      have := right.shorter
      let done ← readOperators read minimum (.binary op left right.expr) height right.rest
      return (right.under done).widen.widen
  | text => return .before left height text
termination_by text.length
decreasing_by
  simp only [List.length_cons]
  omega

/-- Reads an expression with a budget of calls that may be open at once. -/
def climb (finish : Nat) : (budget : Nat) → ExprReader
  | 0, _, _ => throw { offset := finish, fault := .outOfBudget }
  | budget + 1, minimum, text => do
    let first ← readPrefix finish (climb finish budget) text
    let done ← readOperators (climb finish budget) minimum first.expr first.height first.rest
    return first.under done

/-- Reads a whole list of lexemes as one expression, with a budget of calls that may be open at
once. Nothing is open at the start. -/
def parse (finish budget : Nat) (text : List Spanned) : Except Malformed Expr := do
  let (parsed, _) ← (climb finish budget 0 text).run 0
  match parsed.rest with
  | [] => return parsed.expr
  | extra :: _ => .error { offset := extra.offset, fault := .unexpected extra.lexeme }

/-! ### The counter is kept -/

/-- A step that looks at the counter and leaves it as it is. -/
def keeping {α : Type} (step : Nat → Except Malformed α) : Counting α :=
  fun depth ↦ (·, depth) <$> step depth

theorem run_keeping {α : Type} (step : Nat → Except Malformed α) (depth : Nat) :
    (keeping step).run depth = (·, depth) <$> step depth :=
  rfl

theorem keeping_bind {α β : Type} (step : Nat → Except Malformed α)
    (next : α → Nat → Except Malformed β) :
    (keeping step >>= fun a ↦ keeping (next a)) =
      keeping fun depth ↦ step depth >>= fun a ↦ next a depth := by
  ext depth
  simp [run_keeping]

theorem lift_eq_keeping {α : Type} (step : Except Malformed α) :
    (liftM step : Counting α) = keeping fun _ ↦ step := by
  ext depth
  simp [run_keeping]

theorem pure_eq_keeping {α : Type} (a : α) : (pure a : Counting α) = keeping fun _ ↦ .ok a :=
  rfl

/-- What happens between an opening and what is behind it happens one level further in, and the
counter is then what it was. -/
theorem enter_bind_leave {α β : Type} (offset : Nat) (step : Nat → Except Malformed α)
    (next : α → Nat → Except Malformed β) :
    (do enter offset; let a ← keeping step; leave; keeping (next a)) =
      keeping fun depth ↦
        (do checkDepth (depth + 1) offset; let a ← step (depth + 1); next a depth) := by
  ext depth
  simp [enter, leave, run_keeping]

/-- The counting form of a reader that is told the depth. -/
def counted (read : Gate.ExprReader) : ExprReader :=
  fun minimum text ↦ keeping fun depth ↦ read depth minimum text

theorem readPrefix_eq_keeping (finish : Nat) (read : Gate.ExprReader) (text : List Spanned) :
    readPrefix finish (counted read) text =
      keeping fun depth ↦ readOperand finish read depth text := by
  match text with
  | [] => rfl
  | ⟨.not, offset⟩ :: text =>
    simp only [readPrefix, counted, lift_eq_keeping, pure_eq_keeping, keeping_bind, readOperand]
    exact enter_bind_leave offset (fun depth ↦ read depth negationPrecedence text) _
  | ⟨.leftParen, offset⟩ :: text =>
    simp only [readPrefix, readPrimary, counted, lift_eq_keeping, readOperand_leftParen]
    exact enter_bind_leave offset (fun depth ↦ read depth 0 text) fun inner _ ↦
      readClosing finish inner
  | ⟨.literal value, offset⟩ :: text => rfl
  | ⟨.identifier name, offset⟩ :: text => rfl
  | ⟨.rightParen, offset⟩ :: text => rfl
  | ⟨.operator op, offset⟩ :: text => rfl

theorem readOperators_eq_keeping (read : Gate.ExprReader) (minimum : Nat) (left : Expr)
    (height : Nat) (text : List Spanned) :
    readOperators (counted read) minimum left height text =
      keeping fun depth ↦ Gate.readOperators (read depth) minimum left height text := by
  fun_induction readOperators (counted read) minimum left height text with
  | case1 left height op offset rest hop =>
    funext depth
    simp only [keeping]
    rw [Gate.readOperators, if_pos hop]
    rfl
  | case2 left height op offset rest hop ih =>
    simp only [ih, counted, lift_eq_keeping, pure_eq_keeping, keeping_bind]
    funext depth
    simp only [keeping]
    rw [Gate.readOperators, if_neg hop]
    rfl
  | case3 left height text hnone =>
    funext depth
    simp only [keeping]
    unfold Gate.readOperators
    split
    next op offset rest => exact absurd rfl (hnone op offset rest)
    next => rfl

/-- The counting reader gives what the reader gives that is told the depth, and keeps the
counter. -/
theorem climb_eq_counted (finish budget : Nat) :
    climb finish budget = counted (Gate.climb finish budget) := by
  induction budget with
  | zero => rfl
  | succ budget ih =>
    funext minimum text
    simp only [climb, ih, readPrefix_eq_keeping, readOperators_eq_keeping, pure_eq_keeping,
      keeping_bind]
    rfl

theorem parse_eq_climb (finish budget : Nat) (text : List Spanned) :
    parse finish budget text = (do
      let parsed ← Gate.climb finish budget 0 0 text
      match parsed.rest with
      | [] => return parsed.expr
      | extra :: _ => .error { offset := extra.offset, fault := .unexpected extra.lexeme }) := by
  simp only [parse, climb_eq_counted, counted, run_keeping, bind_map_left]

/-! ### What is counted is true -/

/-- Whenever a step reads an expression, it gives the height of the tree that it read, and leaves
the counter as it was. -/
def Honest {bound : Nat} (step : Counting (Parsed bound)) : Prop :=
  ∀ depth parsed depth', step.run depth = .ok (parsed, depth') →
    parsed.height = parsed.expr.height ∧ depth' = depth

theorem honest_keeping {bound : Nat} {step : Nat → Except Malformed (Parsed bound)}
    (h : ∀ depth parsed, step depth = .ok parsed → parsed.height = parsed.expr.height) :
    Honest (keeping step) := by
  intro depth parsed depth' hrun
  obtain ⟨result, hresult, heq⟩ := Except.map_eq_ok_iff.1 hrun
  obtain ⟨rfl, rfl⟩ := Prod.mk.inj heq
  exact ⟨h depth result hresult, rfl⟩

theorem honest_climb (finish budget minimum : Nat) (text : List Spanned) :
    Honest (climb finish budget minimum text) := by
  rw [climb_eq_counted]
  refine honest_keeping fun depth parsed hread ↦ ?_
  obtain ⟨_, hwithin, -⟩ := sound_climb _ _ _ _ _ _ hread
  exact hwithin.height_eq

theorem honest_readPrefix (finish budget : Nat) (text : List Spanned) :
    Honest (readPrefix finish (climb finish budget) text) := by
  rw [climb_eq_counted, readPrefix_eq_keeping]
  refine honest_keeping fun depth parsed hread ↦ ?_
  obtain ⟨_, hwithin, -⟩ := climbs_of_readOperand (sound_climb _ _) hread
  exact hwithin.height_eq

/-- What is read without a negation is read as well where a negation may stand. -/
theorem honest_readPrimary (finish budget : Nat) (text : List Spanned) :
    Honest (readPrimary finish (climb finish budget) text) := by
  intro depth parsed depth' hrun
  apply honest_readPrefix finish budget text depth parsed depth'
  match text with
  | [] => exact hrun
  | ⟨.not, offset⟩ :: text => cases hrun
  | ⟨.leftParen, offset⟩ :: text => exact hrun
  | ⟨.literal value, offset⟩ :: text => exact hrun
  | ⟨.identifier name, offset⟩ :: text => exact hrun
  | ⟨.rightParen, offset⟩ :: text => exact hrun
  | ⟨.operator op, offset⟩ :: text => exact hrun

/-! ### The budget that is enough -/

theorem parse_eq_of_le {finish budget : Nat} {text : List Spanned} (h : 5 * 257 ≤ budget) :
    parse finish budget text = Gate.parse finish text := by
  have hcalls : Suffices budget 0 0 text :=
    .inr ⟨Nat.zero_le _, Nat.zero_le _, activations_zero ▸ h⟩
  have hlength : Suffices (text.length + 1) 0 0 text := .inl (Nat.lt_succ_self _)
  rw [parse_eq_climb, climb_eq_of_suffices hcalls hlength]
  rfl

theorem fault_ne_of_le {finish budget : Nat} {text : List Spanned} {error : Malformed}
    (hbudget : 5 * 257 ≤ budget) (h : parse finish budget text = .error error) :
    error.fault ≠ .outOfBudget :=
  fault_ne_of_parse (parse_eq_of_le hbudget ▸ h)

end Counting

/-! ### No smaller budget is enough -/

/-- Nothing is read for want of a budget. -/
def Exhausted (finish budget depth minimum : Nat) (text : List Spanned) : Prop :=
  climb finish budget depth minimum text = .error { offset := finish, fault := .outOfBudget }

theorem Exhausted.zero (finish depth minimum : Nat) (text : List Spanned) :
    Exhausted finish 0 depth minimum text :=
  rfl

theorem Exhausted.rightOperand {finish budget depth minimum offset offset' : Nat} {name : String}
    {op : Operator} {rest : List Spanned} (hop : minimum ≤ op.precedence)
    (h : Exhausted finish (budget - 1) depth (op.precedence + 1) rest) :
    Exhausted finish budget depth minimum
      (⟨.identifier name, offset⟩ :: ⟨.operator op, offset'⟩ :: rest) := by
  cases budget with
  | zero => exact .zero ..
  | succ budget =>
    have hright : climb finish budget depth (op.precedence + 1) rest = _ := h
    rw [Exhausted, climb, readOperand]
    show readOperators .. >>= _ = _
    rw [Parsed.before, readOperators, if_neg (Nat.not_lt.2 hop), hright]
    rfl

theorem Exhausted.parentheses {finish budget depth minimum offset : Nat} {rest : List Spanned}
    (hdepth : depth + 1 ≤ maxDepth) (h : Exhausted finish (budget - 1) (depth + 1) 0 rest) :
    Exhausted finish budget depth minimum (⟨.leftParen, offset⟩ :: rest) := by
  cases budget with
  | zero => exact .zero ..
  | succ budget =>
    have hinner : climb finish budget (depth + 1) 0 rest = _ := h
    rw [Exhausted, climb, readOperand, checkDepth_eq_ok_iff.2 hdepth, hinner]
    rfl

/-- Right operands of more and more strongly binding operators, as often as there are levels, with
the next level in parentheses in the last operand. Nothing stands for the last operand of all. -/
def staircase (levels : Nat) : List Spanned :=
  ⟨.identifier "a", 0⟩ :: ⟨.operator .or, 0⟩ :: ⟨.identifier "a", 0⟩ :: ⟨.operator .and, 0⟩ ::
    ⟨.identifier "a", 0⟩ :: ⟨.operator .eq, 0⟩ :: ⟨.identifier "a", 0⟩ :: ⟨.operator .lt, 0⟩ ::
    match levels with
    | 0 => []
    | levels + 1 => ⟨.leftParen, 0⟩ :: staircase levels

theorem exhausted_staircase {finish levels budget depth : Nat} (hdepth : depth + levels ≤ maxDepth)
    (h : budget ≤ 5 * levels + 4) : Exhausted finish budget depth 0 (staircase levels) := by
  induction levels generalizing budget depth with
  | zero =>
    refine .rightOperand (by decide) (.rightOperand (by decide) (.rightOperand (by decide)
      (.rightOperand (by decide) ?_)))
    rw [show budget - 1 - 1 - 1 - 1 = 0 by omega]
    exact .zero ..
  | succ levels ih =>
    refine .rightOperand (by decide) (.rightOperand (by decide) (.rightOperand (by decide)
      (.rightOperand (by decide) (.parentheses (by omega) ?_))))
    exact ih (by omega) (by omega)

/-- A budget is enough for all lists of lexemes exactly if it is at least 1285. -/
theorem never_out_of_budget_iff {finish budget : Nat} :
    (∀ text error, Counting.parse finish budget text = .error error →
      error.fault ≠ .outOfBudget) ↔ 5 * 257 ≤ budget := by
  constructor
  · intro h
    by_contra hbudget
    have hexhausted : Exhausted finish budget 0 0 (staircase 256) :=
      exhausted_staircase (Nat.le_refl maxDepth) (by omega)
    refine h (staircase 256) { offset := finish, fault := .outOfBudget } ?_ rfl
    rw [Counting.parse_eq_climb, hexhausted]
    rfl
  · exact fun hbudget _ _ ↦ Counting.fault_ne_of_le hbudget

/-- Reading a gate nests at most 1285 calls, five for each of the 257 depths, and what it counts is
true. With this budget or a larger one the counting reader gives the result of the reader for every
list of lexemes, error or not, and never runs out of it. With any budget and from any counter,
whenever an expression, a negation or a primary expression is read, the height that comes with the
tree is that of the tree, and the counter of open negations and parentheses is what it was
before. -/
theorem calls_bounded_and_heights_honest (finish : Nat) (text : List Spanned) :
    (∀ budget, 5 * 257 ≤ budget → Counting.parse finish budget text = parse finish text) ∧
    (∀ budget error, 5 * 257 ≤ budget → Counting.parse finish budget text = .error error →
      error.fault ≠ .outOfBudget) ∧
    ∀ budget,
      (∀ minimum, Counting.Honest (Counting.climb finish budget minimum text)) ∧
      Counting.Honest (Counting.readPrefix finish (Counting.climb finish budget) text) ∧
      Counting.Honest (Counting.readPrimary finish (Counting.climb finish budget) text) := by
  refine ⟨fun _ ↦ Counting.parse_eq_of_le, fun _ _ ↦ Counting.fault_ne_of_le, fun budget ↦ ?_⟩
  refine ⟨fun minimum ↦ ?_, ?_, ?_⟩
  · exact Counting.honest_climb finish budget minimum text
  · exact Counting.honest_readPrefix finish budget text
  · exact Counting.honest_readPrimary finish budget text

end BuildPlan.Gate
