import BuildPlan.Proofs.Gate.Answer
import BuildPlan.Proofs.Gate.Evaluation
import BuildPlan.Proofs.Gate.Printing

/-!
# Parts of gate expressions

The parts of an expression are the expression itself, its operands, their operands, and so on. A
part stands at a place, which is the list of the turns on the way to it (`Expr.at?`).

A part of a gate is an expression that was read (`Expr.IsRead`). Its literals and identifiers are
lexemes of the gate (`Derives.mem_of_at?`), so its numbers are written as numerals, and none of them
is missing. Numbers of a store are finite. So the value of an expression that was read is never the
missing number (`Expr.isPresent_of_eval`).
-/

set_option autoImplicit false
set_option relaxedAutoImplicit false

namespace BuildPlan.Gate

/-! ### Places -/

/-- A way from an expression to one of its operands. -/
inductive Turn where
  /-- To the operand of a negation. -/
  | operand
  /-- To the left operand of an operator. -/
  | left
  /-- To the right operand of an operator. -/
  | right
  deriving DecidableEq

namespace Expr

/-- The operand that a turn leads to. -/
def operand? : Expr → Turn → Option Expr
  | .not operand, .operand => some operand
  | .binary _ left _, .left => some left
  | .binary _ _ right, .right => some right
  | _, _ => none

/-- The part at a place. -/
def at? : Expr → List Turn → Option Expr
  | expr, [] => some expr
  | expr, turn :: place => (expr.operand? turn).bind (·.at? place)

/-- A place in a part is a place in the whole, behind the place of the part. -/
theorem at?_append (expr : Expr) (place rest : List Turn) :
    expr.at? (place ++ rest) = (expr.at? place).bind (·.at? rest) := by
  induction place generalizing expr with
  | nil => rfl
  | cons turn place ih =>
    rw [List.cons_append, at?, at?]
    cases expr.operand? turn with
    | none => rfl
    | some operand => exact ih operand

/-- An expression that was read: a part of a gate. -/
def IsRead (expr : Expr) : Prop :=
  ∃ source gate place, compile source = .ok gate ∧ gate.expr.at? place = some expr

/-- The parts of an expression that was read were read with it. -/
theorem IsRead.of_at? {expr part : Expr} {place : List Turn} (h : expr.IsRead)
    (hpart : expr.at? place = some part) : part.IsRead := by
  obtain ⟨source, gate, start, hcompile, hexpr⟩ := h
  refine ⟨source, gate, start ++ place, hcompile, ?_⟩
  rw [at?_append, hexpr]
  exact hpart

end Expr

/-- The lexeme that an expression without operands is read from. -/
def Expr.lexeme? : Expr → Option Lexeme
  | .literal value => some (.literal value)
  | .identifier name => some (.identifier name)
  | _ => none

/-- The literals and the identifiers of a tree are among the lexemes that it is read from. -/
theorem Derives.mem_of_at? {phrase : Phrase} {text : List Lexeme} {tree part : Expr}
    {nesting : Nat} {lexeme : Lexeme} (h : Derives phrase text tree nesting) {place : List Turn}
    (hplace : tree.at? place = some part) (hlexeme : part.lexeme? = some lexeme) :
    lexeme ∈ text := by
  induction h generalizing place with
  | literal other =>
    cases place with
    | nil =>
      obtain rfl := Option.some.inj hplace
      exact List.mem_singleton.2 (Option.some.inj hlexeme).symm
    | cons turn rest => cases turn <;> cases hplace
  | identifier name =>
    cases place with
    | nil =>
      obtain rfl := Option.some.inj hplace
      exact List.mem_singleton.2 (Option.some.inj hlexeme).symm
    | cons turn rest => cases turn <;> cases hplace
  | parentheses _ ih => exact List.mem_append_left _ (List.mem_cons_of_mem _ (ih hplace))
  | not _ ih =>
    cases place with
    | nil =>
      obtain rfl := Option.some.inj hplace
      cases hlexeme
    | cons turn rest =>
      cases turn with
      | operand => exact List.mem_cons_of_mem _ (ih hplace)
      | _ => cases hplace
  | single _ ih => exact ih hplace
  | join hop _ _ ihparts ihlast =>
    cases place with
    | nil =>
      obtain rfl := Option.some.inj hplace
      cases hlexeme
    | cons turn rest =>
      cases turn with
      | operand => cases hplace
      | left => exact List.mem_append_left _ (ihparts hplace)
      | right => exact List.mem_append_right _ (List.mem_cons_of_mem _ (ihlast hplace))

/-! ### Values of parts -/

/-- A value that is not the missing number. -/
def Scalar.IsPresent : Scalar → Prop
  | .number value _ => value ≠ .nan
  | _ => True

/-- A leaf of a store is a number only if it is finite. -/
theorem Scalar.isPresent_ofLeaf (text : String) : (Scalar.ofLeaf text).IsPresent := by
  unfold ofLeaf
  split_ifs
  · trivial
  · trivial
  · split
    next value _ =>
      split
      next hfinite =>
        rintro rfl
        cases hfinite
      next => trivial
    next => trivial

namespace Expr

variable {store : Store} {expr : Expr} {value : Scalar}

/-- A literal that was read is written as a numeral if it is a number. -/
theorem isPresent_of_isRead (h : (literal value).IsRead) : value.IsPresent := by
  obtain ⟨source, gate, place, hcompile, hplace⟩ := h
  obtain ⟨found, nesting, hfound, hderives, -⟩ := compile_eq_ok_iff.1 hcompile
  obtain ⟨spanned, hspanned, hlexeme⟩ := List.mem_map.1 (hderives.mem_of_at? hplace rfl)
  have hprintable := isPrintable_of_scan hfound spanned hspanned
  rw [hlexeme] at hprintable
  cases value with
  | number number text => exact Binary64.ne_nan_of_isNumeral hprintable.1 hprintable.2
  | _ => trivial

/-- The value of an expression that was read is not the missing number. -/
theorem isPresent_of_eval (h : expr.IsRead) (hvalue : expr.eval store = .ok value) :
    value.IsPresent := by
  cases expr with
  | literal other =>
    obtain rfl := Except.ok.inj hvalue
    exact isPresent_of_isRead h
  | identifier name =>
    change evalIdentifier store name = .ok value at hvalue
    unfold evalIdentifier at hvalue
    split at hvalue
    next text _ =>
      obtain rfl := Except.ok.inj hvalue
      exact Scalar.isPresent_ofLeaf text
    next => cases hvalue
    next => cases hvalue
  | not operand =>
    obtain ⟨_, _, hnot⟩ := Except.bind_eq_ok_iff.1 hvalue
    obtain ⟨_, _, hbool⟩ := Except.bind_eq_ok_iff.1 hnot
    obtain rfl := Except.ok.inj hbool
    trivial
  | binary op left right =>
    obtain ⟨answer, rfl⟩ := exists_bool_of_eval_binary hvalue
    trivial

end Expr

end BuildPlan.Gate
