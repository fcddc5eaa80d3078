import BuildPlan.Gate.Parser
import BuildPlan.Proofs.Gate.Climbing
import BuildPlan.Proofs.Outcome

/-!
# What is read as a gate expression

Reading a list of lexemes follows `Climbs` step by step. It gives up where the depth or the height
goes beyond `maxDepth`, and the budget of nested calls never runs out. So a list of lexemes is read
exactly if it is a disjunction of the grammar whose tree and nesting stay within the limit
(`parse_eq_ok_iff_derives`).
-/

set_option autoImplicit false
set_option relaxedAutoImplicit false

namespace BuildPlan.Gate

theorem one_le_maxDepth : 1 ≤ maxDepth := by
  decide

theorem checkDepth_eq_ok_iff {depth offset : Nat} :
    checkDepth depth offset = .ok () ↔ depth ≤ maxDepth := by
  unfold checkDepth
  split_ifs with h
  · simp only [false_iff]
    omega
  · simp only [true_iff]
    omega

theorem checkDepth_eq_error_iff {depth offset : Nat} {error : Malformed} :
    checkDepth depth offset = .error error ↔
      maxDepth < depth ∧ error = { offset, fault := .tooDeep } := by
  unfold checkDepth
  split_ifs with h <;> simp [h, eq_comm]

/-! ### What is read as an operand -/

/-- What an operand is read from: its tree, its height and the lexemes after it, where expressions
inside of it are read by some reader. -/
inductive OperandRead (read : ExprReader) (depth : Nat) :
    List Spanned → Expr → Nat → List Spanned → Prop
  | literal (value : Scalar) (offset : Nat) (rest : List Spanned) :
    OperandRead read depth (⟨.literal value, offset⟩ :: rest) (.literal value) 1 rest
  | identifier (name : String) (offset : Nat) (rest : List Spanned) :
    OperandRead read depth (⟨.identifier name, offset⟩ :: rest) (.identifier name) 1 rest
  | not (offset : Nat) (rest : List Spanned) (operand : Parsed rest.length)
    (hdepth : depth + 1 ≤ maxDepth)
    (hread : read (depth + 1) negationPrecedence rest = .ok operand)
    (hheight : operand.height + 1 ≤ maxDepth) :
    OperandRead read depth (⟨.not, offset⟩ :: rest) (.not operand.expr) (operand.height + 1)
      operand.rest
  | parentheses (offset closing : Nat) (rest after : List Spanned) (inner : Parsed rest.length)
    (hdepth : depth + 1 ≤ maxDepth) (hread : read (depth + 1) 0 rest = .ok inner)
    (hrest : inner.rest = ⟨.rightParen, closing⟩ :: after) :
    OperandRead read depth (⟨.leftParen, offset⟩ :: rest) inner.expr inner.height after

/-- Why no operand is read: nothing stands at its place, or a lexeme that starts none; it goes too
deep; the expression inside of it is not read; or the parenthesis behind that is missing. -/
inductive OperandFails (finish : Nat) (read : ExprReader) (depth : Nat) :
    List Spanned → Malformed → Prop
  | missing : OperandFails finish read depth [] ⟨finish, .expectedExpression⟩
  | misplaced (first : Spanned) (rest : List Spanned)
    (hfirst : first.lexeme = .rightParen ∨ ∃ op, first.lexeme = .operator op) :
    OperandFails finish read depth (first :: rest) ⟨first.offset, .expectedOperand first.lexeme⟩
  | tooNested (first : Spanned) (rest : List Spanned) (hdepth : maxDepth < depth + 1) :
    OperandFails finish read depth (first :: rest) ⟨first.offset, .tooDeep⟩
  | tooHigh (first : Spanned) (rest : List Spanned) (operand : Parsed rest.length)
    (hread : read (depth + 1) negationPrecedence rest = .ok operand)
    (hheight : maxDepth < operand.height + 1) :
    OperandFails finish read depth (first :: rest) ⟨first.offset, .tooDeep⟩
  | inside (first : Spanned) (rest : List Spanned) (minimum : Nat) (error : Malformed)
    (hread : read (depth + 1) minimum rest = .error error) :
    OperandFails finish read depth (first :: rest) error
  | unclosed (first found : Spanned) (rest others : List Spanned) (inner : Parsed rest.length)
    (hread : read (depth + 1) 0 rest = .ok inner) (hrest : inner.rest = found :: others) :
    OperandFails finish read depth (first :: rest)
      ⟨found.offset, .expectedRightParen (some found.lexeme)⟩
  | unfinished (first : Spanned) (rest : List Spanned) (inner : Parsed rest.length)
    (hread : read (depth + 1) 0 rest = .ok inner) (hrest : inner.rest = []) :
    OperandFails finish read depth (first :: rest) ⟨finish, .expectedRightParen none⟩

theorem operandRead_of_readOperand {finish depth : Nat} {read : ExprReader} {text : List Spanned}
    {parsed : Parsed text.length} (h : readOperand finish read depth text = .ok parsed) :
    OperandRead read depth text parsed.expr parsed.height parsed.rest := by
  match text, parsed with
  | [], _ => cases h
  | ⟨.not, offset⟩ :: text, parsed =>
    rw [readOperand, Except.bind_eq_ok_iff] at h
    obtain ⟨_, hopen, h⟩ := h
    obtain ⟨operand, hoperand, h⟩ := Except.bind_eq_ok_iff.1 h
    obtain ⟨_, hheight, h⟩ := Except.bind_eq_ok_iff.1 h
    obtain rfl := Except.ok.inj h
    exact .not offset text operand (checkDepth_eq_ok_iff.1 hopen) hoperand
      (checkDepth_eq_ok_iff.1 hheight)
  | ⟨.leftParen, offset⟩ :: text, parsed =>
    rw [readOperand, Except.bind_eq_ok_iff] at h
    obtain ⟨_, hopen, h⟩ := h
    obtain ⟨inner, hinner, h⟩ := Except.bind_eq_ok_iff.1 h
    split at h
    next closing rest hrest =>
      obtain rfl := Except.ok.inj h
      exact .parentheses offset closing text rest inner (checkDepth_eq_ok_iff.1 hopen) hinner hrest
    next => cases h
    next => cases h
  | ⟨.literal value, offset⟩ :: text, parsed =>
    obtain rfl := Except.ok.inj h
    exact .literal value offset text
  | ⟨.identifier name, offset⟩ :: text, parsed =>
    obtain rfl := Except.ok.inj h
    exact .identifier name offset text
  | ⟨.rightParen, offset⟩ :: text, _ => cases h
  | ⟨.operator op, offset⟩ :: text, _ => cases h

theorem operandFails_of_readOperand {finish depth : Nat} {read : ExprReader} {text : List Spanned}
    {error : Malformed} (h : readOperand finish read depth text = .error error) :
    OperandFails finish read depth text error := by
  match text with
  | [] =>
    obtain rfl := Except.error.inj h
    exact .missing
  | ⟨.not, offset⟩ :: text =>
    rw [readOperand, Except.bind_eq_error_iff] at h
    rcases h with h | ⟨_, _, h⟩
    · obtain ⟨hdepth, rfl⟩ := checkDepth_eq_error_iff.1 h
      exact .tooNested ⟨.not, offset⟩ text hdepth
    rcases Except.bind_eq_error_iff.1 h with h | ⟨operand, hoperand, h⟩
    · exact .inside _ text _ error h
    rcases Except.bind_eq_error_iff.1 h with h | ⟨_, _, h⟩
    · obtain ⟨hheight, rfl⟩ := checkDepth_eq_error_iff.1 h
      exact .tooHigh ⟨.not, offset⟩ text operand hoperand hheight
    · cases h
  | ⟨.leftParen, offset⟩ :: text =>
    rw [readOperand, Except.bind_eq_error_iff] at h
    rcases h with h | ⟨_, _, h⟩
    · obtain ⟨hdepth, rfl⟩ := checkDepth_eq_error_iff.1 h
      exact .tooNested ⟨.leftParen, offset⟩ text hdepth
    rcases Except.bind_eq_error_iff.1 h with h | ⟨inner, hinner, h⟩
    · exact .inside _ text _ error h
    split at h
    next => cases h
    next found offset' others _ hrest =>
      obtain rfl := Except.error.inj h
      exact .unclosed _ ⟨found, offset'⟩ text others inner hinner hrest
    next hrest =>
      obtain rfl := Except.error.inj h
      exact .unfinished _ text inner hinner hrest
  | ⟨.literal value, offset⟩ :: text => cases h
  | ⟨.identifier name, offset⟩ :: text => cases h
  | ⟨.rightParen, offset⟩ :: text =>
    obtain rfl := Except.error.inj h
    exact .misplaced ⟨.rightParen, offset⟩ text (.inl rfl)
  | ⟨.operator op, offset⟩ :: text =>
    obtain rfl := Except.error.inj h
    exact .misplaced ⟨.operator op, offset⟩ text (.inr ⟨op, rfl⟩)

/-! ### What is read is read by climbing -/

/-- The height that was counted is that of the tree. Neither the tree nor the nesting is beyond the
limit, and the nesting adds to the depth only up to the limit. -/
structure Parsed.Within {bound : Nat} (parsed : Parsed bound) (depth nesting : Nat) : Prop where
  height_eq : parsed.height = parsed.expr.height
  height_le : parsed.expr.height ≤ maxDepth
  depth_le : depth + nesting ≤ max depth maxDepth

/-- All that a reader reads is read by climbing and stays within the limits. -/
def ExprReader.Sound (read : ExprReader) : Prop :=
  ∀ depth minimum text parsed, read depth minimum text = .ok parsed →
    ∃ nesting, parsed.Within depth nesting ∧
      Climbs minimum none (text.map Spanned.lexeme) parsed.expr nesting
        (parsed.rest.map Spanned.lexeme)

/-- After an operand, climbing goes on with the operand as left operand. -/
theorem climbs_of_readOperand {finish depth : Nat} {read : ExprReader} {text : List Spanned}
    {parsed : Parsed text.length} (hread : read.Sound)
    (h : readOperand finish read depth text = .ok parsed) :
    ∃ nesting, parsed.Within depth nesting ∧
      ∀ {minimum result total rest},
        Climbs minimum (some (parsed.expr, nesting)) (parsed.rest.map Spanned.lexeme) result total
          rest → Climbs minimum none (text.map Spanned.lexeme) result total rest := by
  have hoperand := operandRead_of_readOperand h
  clear h
  obtain ⟨expr, height, rest, shorter⟩ := parsed
  dsimp only at hoperand ⊢
  cases hoperand with
  | literal =>
    exact ⟨0, ⟨rfl, one_le_maxDepth, Nat.le_max_left ..⟩, fun next ↦ .literal next⟩
  | identifier =>
    exact ⟨0, ⟨rfl, one_le_maxDepth, Nat.le_max_left ..⟩, fun next ↦ .identifier next⟩
  | not offset text operand hdepth hoperand hlevel =>
    obtain ⟨nesting, hwithin, hclimbs⟩ := hread _ _ _ _ hoperand
    have heq := hwithin.height_eq
    have hle := hwithin.depth_le
    refine ⟨nesting + 1, ⟨?_, ?_, ?_⟩, fun next ↦ .not hclimbs next⟩
    · simp only [Expr.height, heq]
    · simp only [Expr.height]
      omega
    · omega
  | parentheses offset closing text after inner hdepth hinner hrest =>
    obtain ⟨nesting, hwithin, hclimbs⟩ := hread _ _ _ _ hinner
    rw [hrest] at hclimbs
    have hle := hwithin.depth_le
    exact ⟨nesting + 1, ⟨hwithin.height_eq, hwithin.height_le, by omega⟩,
      fun next ↦ .parentheses hclimbs next⟩

/-- Folding in operators is climbing from a left operand. -/
theorem climbs_of_readOperators {depth minimum outer height : Nat} {read : ExprReader}
    {left : Expr} {text : List Spanned} {parsed : Parsed (text.length + 1)} (hread : read.Sound)
    (hheight : height = left.height) (hle : left.height ≤ maxDepth)
    (hdepth : depth + outer ≤ max depth maxDepth)
    (h : readOperators (read depth) minimum left height text = .ok parsed) :
    ∃ nesting, parsed.Within depth nesting ∧
      Climbs minimum (some (left, outer)) (text.map Spanned.lexeme) parsed.expr nesting
        (parsed.rest.map Spanned.lexeme) := by
  fun_induction readOperators (read depth) minimum left height text generalizing outer with
  | case1 left height op offset rest hop =>
    obtain rfl := Except.ok.inj h
    refine ⟨outer, ⟨hheight, hle, hdepth⟩, .stop fun other tail htail ↦ ?_⟩
    obtain ⟨rfl, -⟩ : op = other ∧ rest.map Spanned.lexeme = tail := by simpa using htail
    exact hop
  | case2 left height op offset rest hop ih =>
    obtain ⟨right, hright, h⟩ := Except.bind_eq_ok_iff.1 h
    obtain ⟨_, hchecked, h⟩ := Except.bind_eq_ok_iff.1 h
    obtain ⟨done, hdone, h⟩ := Except.bind_eq_ok_iff.1 h
    obtain rfl := Except.ok.inj h
    obtain ⟨inner, hwithin, hclimbs⟩ := hread _ _ _ _ hright
    have hmax : max height right.height + 1 = (Expr.binary op left right.expr).height := by
      simp only [Expr.height, hheight, hwithin.height_eq]
    have hbound := checkDepth_eq_ok_iff.1 hchecked
    have hinner := hwithin.depth_le
    have hdeepest : depth + max outer inner ≤ max depth maxDepth := by omega
    obtain ⟨nesting, hfinal, hnext⟩ := ih right hmax (hmax ▸ hbound) hdeepest hdone
    exact ⟨nesting, ⟨hfinal.height_eq, hfinal.height_le, hfinal.depth_le⟩,
      .fold (Nat.not_lt.1 hop) hclimbs hnext⟩
  | case3 left height text hnone =>
    obtain rfl := Except.ok.inj h
    refine ⟨outer, ⟨hheight, hle, hdepth⟩, .stop fun op tail htail ↦ ?_⟩
    obtain ⟨⟨lexeme, offset⟩, rest, rfl, rfl, -⟩ := List.map_eq_cons_iff.1 htail
    exact absurd rfl (hnone op offset rest)

theorem sound_climb (finish budget : Nat) : ExprReader.Sound (climb finish budget) := by
  induction budget with
  | zero =>
    intro depth minimum text parsed h
    simp [climb] at h
  | succ budget ih =>
    intro depth minimum text parsed h
    obtain ⟨first, hfirst, h⟩ := Except.bind_eq_ok_iff.1 h
    obtain ⟨done, hdone, h⟩ := Except.bind_eq_ok_iff.1 h
    obtain rfl := Except.ok.inj h
    obtain ⟨outer, hwithin, hclimbs⟩ := climbs_of_readOperand ih hfirst
    obtain ⟨nesting, hfinal, hnext⟩ := climbs_of_readOperators ih hwithin.height_eq
      hwithin.height_le hwithin.depth_le hdone
    exact ⟨nesting, ⟨hfinal.height_eq, hfinal.height_le, hfinal.depth_le⟩, hclimbs hnext⟩

/-! ### What climbing reads within the limits is read -/

/-- Climbing from a left operand only adds to its height and its nesting. -/
theorem Climbs.le {minimum : Nat} {start : Option (Expr × Nat)} {text rest : List Lexeme}
    {tree : Expr} {nesting : Nat} (h : Climbs minimum start text tree nesting rest) {left : Expr}
    {outer : Nat} (hstart : start = some (left, outer)) :
    left.height ≤ tree.height ∧ outer ≤ nesting := by
  induction h generalizing left outer with
  | literal => cases hstart
  | identifier => cases hstart
  | not => cases hstart
  | parentheses => cases hstart
  | fold _ _ _ _ ih =>
    cases hstart
    obtain ⟨hheight, hnesting⟩ := ih rfl
    simp only [Expr.height] at hheight
    omega
  | stop =>
    cases hstart
    exact ⟨Nat.le_refl _, Nat.le_refl _⟩

/-- A result has a tree and its height, and some lexemes after it. -/
structure Parsed.Shows {bound : Nat} (parsed : Parsed bound) (tree : Expr) (rest : List Lexeme) :
    Prop where
  expr_eq : parsed.expr = tree
  height_eq : parsed.height = tree.height
  rest_eq : parsed.rest.map Spanned.lexeme = rest

/-- With a budget of nested calls that is large enough, a tree is read from some lexemes, or from
what follows a left operand. -/
def Reads (finish budget depth minimum : Nat) (text : List Spanned) (tree : Expr)
    (rest : List Lexeme) : Option (Expr × Nat) → Prop
  | none => text.length < budget →
      ∃ parsed, climb finish budget depth minimum text = .ok parsed ∧ parsed.Shows tree rest
  | some (left, _) => text.length ≤ budget →
      ∃ parsed, readOperators (climb finish budget depth) minimum left left.height text =
        .ok parsed ∧ parsed.Shows tree rest

/-- What is read after an operand is read from the first lexeme of the operand on. -/
theorem reads_of_readOperand {finish budget depth minimum outer : Nat} {text : List Spanned}
    {first : Parsed text.length} {left tree : Expr} {after rest : List Lexeme}
    (hfirst : readOperand finish (climb finish budget) depth text = .ok first)
    (hshows : first.Shows left after)
    (hnext : Reads finish budget depth minimum first.rest tree rest (some (left, outer))) :
    Reads finish (budget + 1) depth minimum text tree rest none := by
  intro hbudget
  obtain ⟨rfl, heq, -⟩ := hshows
  have hlength := first.shorter
  obtain ⟨done, hdone, hresult⟩ := hnext (by omega)
  rw [← heq] at hdone
  exact ⟨first.under done,
    Except.bind_eq_ok_iff.2 ⟨first, hfirst, Except.bind_eq_ok_iff.2 ⟨done, hdone, rfl⟩⟩,
    hresult.expr_eq, hresult.height_eq, hresult.rest_eq⟩

theorem readOperand_not {finish depth : Nat} {read : ExprReader} {text : List Spanned}
    (offset : Nat) {operand : Parsed text.length} {tree : Expr} {after : List Lexeme}
    (hread : read (depth + 1) negationPrecedence text = .ok operand)
    (hshows : operand.Shows tree after) (hdepth : depth + 1 ≤ maxDepth)
    (hheight : (Expr.not tree).height ≤ maxDepth) :
    ∃ parsed, readOperand finish read depth (⟨.not, offset⟩ :: text) = .ok parsed ∧
      parsed.Shows (.not tree) after := by
  obtain ⟨rfl, heq, hrest⟩ := hshows
  rw [readOperand]
  refine ⟨_, Except.bind_eq_ok_iff.2 ⟨(), checkDepth_eq_ok_iff.2 hdepth,
    Except.bind_eq_ok_iff.2 ⟨operand, hread, Except.bind_eq_ok_iff.2
      ⟨(), checkDepth_eq_ok_iff.2 (heq ▸ hheight), rfl⟩⟩⟩, rfl, ?_, hrest⟩
  simp only [Expr.height, heq]

theorem readOperand_parentheses {finish depth : Nat} {read : ExprReader} {text : List Spanned}
    (offset : Nat) {inner : Parsed text.length} {tree : Expr} {after : List Lexeme}
    (hread : read (depth + 1) 0 text = .ok inner) (hshows : inner.Shows tree (.rightParen :: after))
    (hdepth : depth + 1 ≤ maxDepth) :
    ∃ parsed, readOperand finish read depth (⟨.leftParen, offset⟩ :: text) = .ok parsed ∧
      parsed.Shows tree after := by
  obtain ⟨rfl, heq, hrest⟩ := hshows
  obtain ⟨⟨closing, offset'⟩, rest, hinner, rfl, rfl⟩ := List.map_eq_cons_iff.1 hrest
  have hshorter : rest.length < text.length + 1 := by
    have := inner.shorter
    rw [hinner, List.length_cons] at this
    omega
  rw [readOperand]
  refine ⟨⟨inner.expr, inner.height, rest, hshorter⟩, Except.bind_eq_ok_iff.2
    ⟨(), checkDepth_eq_ok_iff.2 hdepth, Except.bind_eq_ok_iff.2 ⟨inner, hread, ?_⟩⟩, rfl, heq, rfl⟩
  split
  next hfound =>
    rw [hinner] at hfound
    obtain rfl := List.tail_eq_of_cons_eq hfound
    rfl
  next hother hfound =>
    rw [hinner] at hfound
    obtain ⟨rfl, rfl⟩ := Spanned.mk.inj (List.head_eq_of_cons_eq hfound)
    exact absurd rfl hother
  next hfound =>
    rw [hinner] at hfound
    cases hfound

theorem readOperators_cons {budget finish depth minimum offset : Nat} {op : Operator}
    {left tree : Expr} {text : List Spanned} {right : Parsed text.length} {rightTree : Expr}
    {after rest : List Lexeme} (hop : minimum ≤ op.precedence)
    (hread : climb finish budget depth (op.precedence + 1) text = .ok right)
    (hshows : right.Shows rightTree after)
    (hheight : (Expr.binary op left rightTree).height ≤ maxDepth)
    (hnext : ∃ done, readOperators (climb finish budget depth) minimum (.binary op left rightTree)
      (Expr.binary op left rightTree).height right.rest = .ok done ∧ done.Shows tree rest) :
    ∃ parsed, readOperators (climb finish budget depth) minimum left left.height
      (⟨.operator op, offset⟩ :: text) = .ok parsed ∧ parsed.Shows tree rest := by
  obtain ⟨rfl, heq, -⟩ := hshows
  obtain ⟨done, hdone, hresult⟩ := hnext
  have hmax : max left.height right.height + 1 = (Expr.binary op left right.expr).height := by
    simp only [Expr.height, heq]
  rw [readOperators, if_neg (Nat.not_lt.2 hop)]
  refine ⟨_, Except.bind_eq_ok_iff.2 ⟨right, hread, Except.bind_eq_ok_iff.2
    ⟨(), checkDepth_eq_ok_iff.2 (hmax ▸ hheight), Except.bind_eq_ok_iff.2
      ⟨done, hmax ▸ hdone, rfl⟩⟩⟩, hresult.expr_eq, hresult.height_eq, hresult.rest_eq⟩

theorem readOperators_stop {finish budget depth minimum height : Nat} {left : Expr}
    {text : List Spanned} (h : StopsBelow minimum (text.map Spanned.lexeme)) :
    readOperators (climb finish budget depth) minimum left height text =
      .ok (.before left height text) := by
  unfold readOperators
  split
  next op _ _ => rw [if_pos (h op _ rfl)]
  next => rfl

/-- What climbing reads within the limits is read. The recursion is on the climbing, so each nested
call has the budget that is left after the lexemes in front of it. -/
theorem Climbs.reads {finish budget depth minimum : Nat} {start : Option (Expr × Nat)}
    {lexemes rest : List Lexeme} {tree : Expr} {nesting : Nat}
    (h : Climbs minimum start lexemes tree nesting rest) {text : List Spanned}
    (htext : text.map Spanned.lexeme = lexemes) (hheight : tree.height ≤ maxDepth)
    (hdepth : depth + nesting ≤ maxDepth) :
    Reads finish budget depth minimum text tree rest start := by
  induction h generalizing text budget depth with
  | @literal _ _ value _ _ _ _ ih =>
    obtain ⟨⟨lexeme, offset⟩, text, rfl, rfl, rfl⟩ := List.map_eq_cons_iff.1 htext
    intro hbudget
    obtain ⟨budget, rfl⟩ := Nat.exists_eq_add_one_of_ne_zero (Nat.ne_zero_of_lt hbudget)
    have hfirst : readOperand finish (climb finish budget) depth
        (⟨.literal value, offset⟩ :: text) = .ok (.before (.literal value) 1 text) := rfl
    exact reads_of_readOperand hfirst ⟨rfl, rfl, rfl⟩ (ih rfl hheight hdepth) hbudget
  | @identifier _ _ name _ _ _ _ ih =>
    obtain ⟨⟨lexeme, offset⟩, text, rfl, rfl, rfl⟩ := List.map_eq_cons_iff.1 htext
    intro hbudget
    obtain ⟨budget, rfl⟩ := Nat.exists_eq_add_one_of_ne_zero (Nat.ne_zero_of_lt hbudget)
    have hfirst : readOperand finish (climb finish budget) depth
        (⟨.identifier name, offset⟩ :: text) = .ok (.before (.identifier name) 1 text) := rfl
    exact reads_of_readOperand hfirst ⟨rfl, rfl, rfl⟩ (ih rfl hheight hdepth) hbudget
  | @not _ inner _ _ _ _ operand _ _ next ihread ihnext =>
    obtain ⟨⟨lexeme, offset⟩, text, rfl, rfl, rfl⟩ := List.map_eq_cons_iff.1 htext
    intro hbudget
    obtain ⟨budget, rfl⟩ := Nat.exists_eq_add_one_of_ne_zero (Nat.ne_zero_of_lt hbudget)
    obtain ⟨hgrown, hnested⟩ := next.le rfl
    have hlevel : operand.height ≤ maxDepth := by
      simp only [Expr.height] at hgrown
      omega
    have hinside : depth + 1 + inner ≤ maxDepth := by omega
    have hleft : text.length < budget := by simpa using hbudget
    obtain ⟨inner, hinner, hshows⟩ := ihread rfl hlevel hinside hleft
    obtain ⟨first, hfirst, hoperand⟩ := readOperand_not offset hinner hshows (by omega)
      (Nat.le_trans hgrown hheight)
    exact reads_of_readOperand hfirst hoperand (ihnext hoperand.rest_eq hheight hdepth) hbudget
  | @parentheses _ inner _ _ _ _ operand _ _ next ihread ihnext =>
    obtain ⟨⟨lexeme, offset⟩, text, rfl, rfl, rfl⟩ := List.map_eq_cons_iff.1 htext
    intro hbudget
    obtain ⟨budget, rfl⟩ := Nat.exists_eq_add_one_of_ne_zero (Nat.ne_zero_of_lt hbudget)
    obtain ⟨hgrown, hnested⟩ := next.le rfl
    have hinside : depth + 1 + inner ≤ maxDepth := by omega
    have hleft : text.length < budget := by simpa using hbudget
    obtain ⟨inner, hinner, hshows⟩ := ihread rfl (Nat.le_trans hgrown hheight) hinside hleft
    obtain ⟨first, hfirst, hoperand⟩ := readOperand_parentheses offset hinner hshows (by omega)
    exact reads_of_readOperand hfirst hoperand (ihnext hoperand.rest_eq hheight hdepth) hbudget
  | @fold _ _ inner _ op _ _ _ left right _ hop _ next ihread ihnext =>
    obtain ⟨⟨lexeme, offset⟩, text, rfl, rfl, rfl⟩ := List.map_eq_cons_iff.1 htext
    intro hbudget
    obtain ⟨hgrown, hnested⟩ := next.le rfl
    have hlevel : right.height ≤ maxDepth := by
      simp only [Expr.height] at hgrown
      omega
    rw [List.length_cons] at hbudget
    have hinside : depth + inner ≤ maxDepth := by omega
    have hright : text.length < budget := by omega
    obtain ⟨parsed, hparsed, hshows⟩ := ihread rfl hlevel hinside hright
    have hshorter := parsed.shorter
    have hleft : parsed.rest.length ≤ budget := by omega
    have hdone := ihnext hshows.rest_eq hheight hdepth hleft
    exact readOperators_cons hop hparsed hshows (Nat.le_trans hgrown hheight) hdone
  | stop hstop =>
    intro _
    subst htext
    exact ⟨_, readOperators_stop hstop, rfl, rfl, rfl⟩

/-! ### The budget is enough -/

/-- On texts that are short enough, a reader never fails for want of a budget. -/
def ExprReader.Provided (read : ExprReader) (bound : Nat) : Prop :=
  ∀ depth minimum text error, text.length < bound → read depth minimum text = .error error →
    error.fault ≠ .outOfBudget

theorem fault_ne_of_readOperand {finish depth bound : Nat} {read : ExprReader}
    {text : List Spanned} {error : Malformed} (hread : read.Provided bound)
    (hlength : text.length ≤ bound) (h : readOperand finish read depth text = .error error) :
    error.fault ≠ .outOfBudget := by
  cases operandFails_of_readOperand h with
  | inside first rest minimum error hinside => exact hread _ _ _ _ hlength hinside
  | _ => simp

theorem fault_ne_of_readOperators {depth minimum height bound : Nat} {read : ExprReader}
    {left : Expr} {text : List Spanned} {error : Malformed} (hread : read.Provided bound)
    (hlength : text.length ≤ bound)
    (h : readOperators (read depth) minimum left height text = .error error) :
    error.fault ≠ .outOfBudget := by
  fun_induction readOperators (read depth) minimum left height text with
  | case1 => cases h
  | case2 left height op offset rest hop ih =>
    rcases Except.bind_eq_error_iff.1 h with h | ⟨right, _, h⟩
    · exact hread _ _ _ _ hlength h
    rcases Except.bind_eq_error_iff.1 h with h | ⟨_, _, h⟩
    · obtain ⟨-, rfl⟩ := checkDepth_eq_error_iff.1 h
      simp
    rcases Except.bind_eq_error_iff.1 h with h | ⟨done, _, h⟩
    · have := right.shorter
      exact ih right (by simp only [List.length_cons] at hlength; omega) h
    · cases h
  | case3 => cases h

theorem provided_climb (finish budget : Nat) :
    ExprReader.Provided (climb finish budget) budget := by
  induction budget with
  | zero =>
    intro depth minimum text error hlength
    omega
  | succ budget ih =>
    intro depth minimum text error hlength h
    rcases Except.bind_eq_error_iff.1 h with h | ⟨first, _, h⟩
    · exact fault_ne_of_readOperand ih (by omega) h
    rcases Except.bind_eq_error_iff.1 h with h | ⟨done, _, h⟩
    · have := first.shorter
      exact fault_ne_of_readOperators ih (by omega) h
    · cases h

/-! ### Reading a whole expression -/

/-- A whole list of lexemes is read as a tree exactly if it is a disjunction with that tree and both
the tree and the nesting are within the limit. -/
theorem parse_eq_ok_iff {finish : Nat} {text : List Spanned} {tree : Expr} :
    parse finish text = .ok tree ↔ ∃ nesting,
      Derives .disjunction (text.map Spanned.lexeme) tree nesting ∧ tree.height ≤ maxDepth ∧
        nesting ≤ maxDepth := by
  simp only [← climbs_nil_iff_derives]
  constructor
  · intro h
    obtain ⟨parsed, hparsed, h⟩ := Except.bind_eq_ok_iff.1 h
    obtain ⟨nesting, hwithin, hclimbs⟩ := sound_climb _ _ _ _ _ _ hparsed
    have hdepth := hwithin.depth_le
    split at h
    next hrest =>
      obtain rfl := Except.ok.inj h
      rw [hrest] at hclimbs
      exact ⟨nesting, hclimbs, hwithin.height_le, by omega⟩
    next => cases h
  · rintro ⟨nesting, hclimbs, hheight, hnesting⟩
    have hreads : Reads finish (text.length + 1) 0 0 text tree [] none :=
      hclimbs.reads rfl hheight (by omega)
    obtain ⟨parsed, hparsed, rfl, -, hrest⟩ := hreads (Nat.lt_succ_self _)
    refine Except.bind_eq_ok_iff.2 ⟨parsed, hparsed, ?_⟩
    rw [List.map_eq_nil_iff.1 hrest]
    rfl

theorem fault_ne_of_parse {finish : Nat} {text : List Spanned} {error : Malformed}
    (h : parse finish text = .error error) : error.fault ≠ .outOfBudget := by
  rcases Except.bind_eq_error_iff.1 h with h | ⟨parsed, _, h⟩
  · exact provided_climb _ _ _ _ _ _ (Nat.lt_succ_self _) h
  · split at h
    next => cases h
    next =>
      obtain rfl := Except.error.inj h
      simp

/-- The reader of gate expressions accepts exactly the grammar, up to 256 levels. A list of lexemes
is read as a tree if and only if it is a disjunction with that tree, the tree is at most 256 levels
high, and at most 256 negations and parentheses are open around each lexeme. No other tree belongs
to the list. Every other list is refused, and never for want of a budget. -/
theorem parse_eq_ok_iff_derives (finish : Nat) (text : List Spanned) :
    (∀ tree, parse finish text = .ok tree ↔
      ∃ nesting, Derives .disjunction (text.map Spanned.lexeme) tree nesting ∧
        tree.height ≤ 256 ∧ nesting ≤ 256) ∧
    (∀ tree tree' nesting nesting', Derives .disjunction (text.map Spanned.lexeme) tree nesting →
      Derives .disjunction (text.map Spanned.lexeme) tree' nesting' →
        tree = tree' ∧ nesting = nesting') ∧
    ((¬ ∃ tree nesting, Derives .disjunction (text.map Spanned.lexeme) tree nesting ∧
        tree.height ≤ 256 ∧ nesting ≤ 256) →
      ∃ error, parse finish text = .error error ∧ error.fault ≠ .outOfBudget) := by
  refine ⟨fun tree ↦ parse_eq_ok_iff, fun _ _ _ _ first second ↦ first.unique second, ?_⟩
  intro hnone
  cases h : parse finish text with
  | ok tree => exact absurd ⟨tree, parse_eq_ok_iff.1 h⟩ hnone
  | error error => exact ⟨error, rfl, fault_ne_of_parse h⟩

end BuildPlan.Gate
