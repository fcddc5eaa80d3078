import Mathlib.Data.String.Basic
import BuildPlan.Proofs.Gate.Part

/-!
# Comparing values

Two numbers have an order, and so have two strings; no other values have one. The order of numbers
is the order of their positions on the number line, where both zeros have the same one, so it fails
for the missing number alone (`Scalar.compare?_eq_none_iff`). Values that have an order are equal
exactly if neither is less than the other (`Scalar.equal_of_compare?`). Values of different kinds
are equal if they are written the same.

Since the value of an expression that was read is never the missing number, the comparisons of such
expressions are coherent, which is the main result `comparisons_coherent`.
-/

set_option autoImplicit false
set_option relaxedAutoImplicit false

namespace BuildPlan.Gate

namespace Scalar

/-- Two values of a kind with an order: two numbers or two strings. -/
inductive Comparable : Scalar → Scalar → Prop
  | numbers (left right : Binary64) (first second : String) :
    Comparable (.number left first) (.number right second)
  | strings (left right : String) : Comparable (.string left) (.string right)

/-- Two values that have an order: two strings, or two numbers that are not missing. -/
structure HasOrder (left right : Scalar) : Prop where
  comparable : left.Comparable right
  left_present : left.IsPresent
  right_present : right.IsPresent

variable {left middle right : Scalar} {order : Ordering}

theorem compare?_eq_none_iff : left.compare? right = none ↔ ¬ left.HasOrder right := by
  cases left with
  | number value text =>
    cases right with
    | number other written =>
      rw [compare?, Binary64.compare?_eq_none_iff]
      constructor
      · rintro hmissing ⟨-, hleft, hright⟩
        exact hmissing.elim hleft hright
      · intro hnone
        by_contra hpresent
        rw [not_or] at hpresent
        exact hnone ⟨.numbers .., hpresent.1, hpresent.2⟩
    | _ => exact iff_of_true rfl fun h ↦ nomatch h.comparable
  | string text =>
    cases right with
    | string other =>
      refine iff_of_false nofun fun hnone ↦ hnone ⟨.strings .., trivial, trivial⟩
    | _ => exact iff_of_true rfl fun h ↦ nomatch h.comparable
  | bool answer => exact iff_of_true rfl fun h ↦ nomatch h.comparable

theorem exists_compare?_of_hasOrder (h : left.HasOrder right) :
    ∃ order, left.compare? right = some order := by
  apply Option.ne_none_iff_exists'.1
  exact fun hnone ↦ compare?_eq_none_iff.1 hnone h

theorem hasOrder_of_compare? (h : left.compare? right = some order) : left.HasOrder right := by
  by_contra hnone
  rw [compare?_eq_none_iff.2 hnone] at h
  cases h

/-- Two values that have an order are equal if neither is less than the other. -/
theorem equal_of_compare? (h : left.compare? right = some order) :
    left.equal right = (order == .eq) := by
  cases (hasOrder_of_compare? h).comparable with
  | numbers value other first second =>
    have hvalues : value.compare? other = some order := h
    rw [equal, Binary64.equal, hvalues]
    rfl
  | strings text other =>
    have htexts : compare text other = order := Option.some.inj h
    rw [equal, ← htexts, Bool.eq_iff_iff, beq_iff_eq, beq_iff_eq, compare_eq_iff_eq]

/-- What is less than something less is less. -/
theorem compare?_trans (h : left.compare? middle = some .lt)
    (h' : middle.compare? right = some .lt) : left.compare? right = some .lt := by
  cases (hasOrder_of_compare? h).comparable with
  | numbers first second text written =>
    cases (hasOrder_of_compare? h').comparable with
    | numbers _ third _ other =>
      change first.compare? third = some .lt
      cases first with
      | nan => cases h
      | number negative rank =>
        cases second with
        | nan => cases h
        | number negative' rank' =>
          cases third with
          | nan => cases h'
          | number negative'' rank'' =>
            have hfirst := compare_lt_iff_lt.1 (Option.some.inj h)
            have hsecond := compare_lt_iff_lt.1 (Option.some.inj h')
            exact congrArg some (compare_lt_iff_lt.2 (Int.lt_trans hfirst hsecond))
  | strings first second =>
    cases (hasOrder_of_compare? h').comparable with
    | strings _ third =>
      have hfirst := compare_lt_iff_lt.1 (Option.some.inj h)
      have hsecond := compare_lt_iff_lt.1 (Option.some.inj h')
      exact congrArg some (compare_lt_iff_lt.2 (lt_trans hfirst hsecond))

/-- A value is equal to another one if the other one is equal to it. -/
theorem equal_comm (left right : Scalar) : left.equal right = right.equal left := by
  have hnumbers (value other : Binary64) : value.equal other = other.equal value := by
    cases value with
    | nan => cases other <;> rfl
    | number negative rank =>
      cases other with
      | nan => rfl
      | number negative' rank' =>
        rw [Bool.eq_iff_iff]
        simp only [Binary64.equal, Binary64.compare?, beq_iff_eq, Option.some.injEq,
          compare_eq_iff_eq]
        exact eq_comm
  cases left with
  | number value text =>
    cases right with
    | number other written => exact hnumbers value other
    | _ => exact BEq.comm
  | _ => cases right <;> exact BEq.comm

/-- A value that is not missing is equal to itself. -/
theorem equal_self {value : Scalar} (h : value.IsPresent) : value.equal value = true := by
  cases value with
  | number number text =>
    cases number with
    | nan => exact absurd rfl h
    | number negative rank => simp [equal, Binary64.equal, Binary64.compare?]
  | _ => exact beq_self_eq_true _

end Scalar

/-! ### Comparisons of expressions -/

/-- The comparison that holds of two values with an order. -/
def Operator.ofOrdering : Ordering → Operator
  | .lt => .lt
  | .eq => .eq
  | .gt => .gt

namespace Expr

variable {store : Store} {left right : Expr} {first second : Scalar}

/-- A comparison of two expressions is true. -/
def Holds (store : Store) (op : Operator) (left right : Expr) : Prop :=
  (binary op left right).eval store = .ok (.bool true)

/-- How two expressions compare whose values have an order. -/
structure ComparesInOrder (store : Store) (left right : Expr) : Prop where
  /-- No ordering fails. -/
  answered : ∀ op ∈ Phrase.ordering.operators,
    ∃ answer, (binary op left right).eval store = .ok (.bool answer)
  /-- Exactly one of `<`, `==` and `>` holds. -/
  trichotomy : ∃! op, op ∈ [Operator.lt, .eq, .gt] ∧ Holds store op left right
  le_iff : Holds store .le left right ↔ Holds store .lt left right ∨ Holds store .eq left right
  ge_iff : Holds store .ge left right ↔ Holds store .gt left right ∨ Holds store .eq left right

variable {op : Operator} {order : Ordering}

theorem not_isConnective_of_mem_ordering (h : op ∈ Phrase.ordering.operators) :
    ¬ op.IsConnective := by
  rintro (rfl | rfl) <;> exact absurd h (by decide)

/-- The value of an ordering is what the order of the two values says. -/
theorem eval_ordering (hop : op ∈ Phrase.ordering.operators)
    (hleft : left.eval store = .ok first) (hright : right.eval store = .ok second) :
    (binary op left right).eval store = match first.compare? second with
      | some order => .ok (.bool (op.admits order))
      | none => .error (.type (.unordered first second)) := by
  rw [eval_comparison (not_isConnective_of_mem_ordering hop), hleft, hright]
  simp only [Phrase.operators, List.mem_cons, List.not_mem_nil, or_false] at hop
  rcases hop with rfl | rfl | rfl | rfl <;> rfl

theorem eval_equality (hleft : left.eval store = .ok first)
    (hright : right.eval store = .ok second) :
    (binary .eq left right).eval store = .ok (.bool (first.equal second)) := by
  rw [eval_comparison (by decide), hleft, hright]
  rfl

/-- A comparison with a result has two values to compare. -/
theorem exists_of_eval_comparison {value : Scalar} (hop : ¬ op.IsConnective)
    (h : (binary op left right).eval store = .ok value) : ∃ first second,
      left.eval store = .ok first ∧ right.eval store = .ok second ∧
        compareWith op first second = .ok value := by
  rw [eval_comparison hop] at h
  obtain ⟨first, hleft, hrest⟩ := Except.bind_eq_ok_iff.1 h
  obtain ⟨second, hright, hvalue⟩ := Except.bind_eq_ok_iff.1 hrest
  exact ⟨first, second, hleft, hright, hvalue⟩

/-- Where `<` holds, the first value is less than the second. -/
theorem exists_of_holds_lt (h : Holds store .lt left right) : ∃ first second,
    left.eval store = .ok first ∧ right.eval store = .ok second ∧
      first.compare? second = some .lt := by
  obtain ⟨first, second, hleft, hright, -⟩ := exists_of_eval_comparison (by decide) h
  refine ⟨first, second, hleft, hright, ?_⟩
  rw [Holds, eval_ordering (by decide) hleft hright] at h
  split at h
  next order horder =>
    have hadmits : Operator.lt.admits order = true := Scalar.bool.inj (Except.ok.inj h)
    rw [horder, beq_iff_eq.1 hadmits]
  next => cases h

/-- Expressions whose values have an order are compared by that order. -/
theorem comparesInOrder_of_compare? (hleft : left.eval store = .ok first)
    (hright : right.eval store = .ok second) (horder : first.compare? second = some order) :
    ComparesInOrder store left right := by
  have hordering (op : Operator) (hop : op ∈ Phrase.ordering.operators) :
      (binary op left right).eval store = .ok (.bool (op.admits order)) := by
    rw [eval_ordering hop hleft hright, horder]
  have hholds (op : Operator) (hop : op ∈ Phrase.ordering.operators) :
      Holds store op left right ↔ op.admits order = true := by
    simp [Holds, hordering op hop]
  have hequal : Holds store .eq left right ↔ order = .eq := by
    simp [Holds, eval_equality hleft hright, Scalar.equal_of_compare? horder]
  have hsides (op : Operator) (hop : op ∈ [Operator.lt, .eq, .gt]) :
      Holds store op left right ↔ op = .ofOrdering order := by
    simp only [List.mem_cons, List.not_mem_nil, or_false] at hop
    rcases hop with rfl | rfl | rfl
    · rw [hholds .lt (by decide)]
      cases order <;> decide
    · rw [hequal]
      cases order <;> decide
    · rw [hholds .gt (by decide)]
      cases order <;> decide
  have hside : Operator.ofOrdering order ∈ [Operator.lt, .eq, .gt] := by cases order <;> decide
  refine ⟨fun op hop ↦ ⟨_, hordering op hop⟩,
    ⟨.ofOrdering order, ⟨hside, (hsides _ hside).2 rfl⟩, fun op h ↦ (hsides op h.1).1 h.2⟩, ?_, ?_⟩
  · rw [hholds .le (by decide), hholds .lt (by decide), hequal]
    cases order <;> decide
  · rw [hholds .ge (by decide), hholds .gt (by decide), hequal]
    cases order <;> decide

/-- The comparisons of expressions that were read are coherent: no part of a gate has the missing
number as its value. Two numbers, or two strings, have an order, which all comparisons agree with,
and values of any other two kinds have none, which makes every ordering of them fail. What is less
than something less is less. Equality does not depend on the order of the operands, holds of an
expression and itself, and is what `!=` negates. -/
theorem comparisons_coherent (store : Store) :
    (∀ part : Expr, part.IsRead → ∀ value text,
      part.eval store = .ok (.number value text) → value ≠ .nan) ∧
    (∀ left right : Expr, left.IsRead → right.IsRead → ∀ first second,
      left.eval store = .ok first → right.eval store = .ok second →
        (first.Comparable second → ComparesInOrder store left right) ∧
        (¬ first.Comparable second → ∀ op ∈ Phrase.ordering.operators,
          (binary op left right).eval store = .error (.type (.unordered first second)))) ∧
    (∀ left middle right, Holds store .lt left middle → Holds store .lt middle right →
      Holds store .lt left right) ∧
    (∀ left right answer, (binary .eq left right).eval store = .ok (.bool answer) ↔
      (binary .eq right left).eval store = .ok (.bool answer)) ∧
    (∀ expr : Expr, expr.IsRead → ∀ value, expr.eval store = .ok value →
      Holds store .eq expr expr) ∧
    ∀ left right,
      (binary .ne left right).eval store = (not (binary .eq left right)).eval store := by
  refine ⟨?present, ?ordered, ?transitive, ?symmetric, ?reflexive, ?negation⟩
  case present =>
    intro part hread value text hvalue
    exact isPresent_of_eval hread hvalue
  case ordered =>
    intro left right hleft hright first second hfirst hsecond
    constructor
    · intro hcomparable
      obtain ⟨order, horder⟩ := Scalar.exists_compare?_of_hasOrder
        ⟨hcomparable, isPresent_of_eval hleft hfirst, isPresent_of_eval hright hsecond⟩
      exact comparesInOrder_of_compare? hfirst hsecond horder
    · intro hother op hop
      rw [eval_ordering hop hfirst hsecond,
        Scalar.compare?_eq_none_iff.2 fun horder ↦ hother horder.comparable]
  case transitive =>
    intro left middle right hfirst hsecond
    obtain ⟨first, second, hleft, hmiddle, hless⟩ := exists_of_holds_lt hfirst
    obtain ⟨second', third, hmiddle', hright, hless'⟩ := exists_of_holds_lt hsecond
    obtain rfl := Except.ok.inj (hmiddle.symm.trans hmiddle')
    rw [Holds, eval_ordering (by decide) hleft hright, Scalar.compare?_trans hless hless']
    rfl
  case symmetric =>
    have hswap (left right : Expr) (answer : Bool)
        (h : (binary .eq left right).eval store = .ok (.bool answer)) :
        (binary .eq right left).eval store = .ok (.bool answer) := by
      obtain ⟨first, second, hleft, hright, hequal⟩ := exists_of_eval_comparison (by decide) h
      rw [eval_equality hright hleft, Scalar.equal_comm]
      exact hequal
    exact fun left right answer ↦ ⟨hswap left right answer, hswap right left answer⟩
  case reflexive =>
    intro expr hread value hvalue
    rw [Holds, eval_equality hvalue hvalue, Scalar.equal_self (isPresent_of_eval hread hvalue)]
  case negation =>
    intro left right
    rw [eval, eval_comparison (by decide), eval_comparison (by decide)]
    cases left.eval store with
    | error error => rfl
    | ok first => cases right.eval store <;> rfl

/-- A store with a number. -/
def retriesStore : Store :=
  Store.empty.insert "retries" (.leaf "3")

/-- The gate `retries < 10`. -/
def retriesGate : Gate where
  source := "retries < 10"
  expr := .binary .lt (.identifier "retries") (.literal (.number (.ofNat 10) "10"))

theorem retries_compared : compile "retries < 10" = .ok retriesGate ∧
    ComparesInOrder retriesStore (.identifier "retries") (.literal (.number (.ofNat 10) "10")) := by
  have hcompile : compile "retries < 10" = .ok retriesGate := by decide +kernel
  have hleft : (identifier "retries").IsRead := ⟨_, _, [.left], hcompile, rfl⟩
  have hright : (literal (.number (.ofNat 10) "10")).IsRead := ⟨_, _, [.right], hcompile, rfl⟩
  have hretries : (identifier "retries").eval retriesStore = .ok (.number (.ofNat 3) "3") := by
    decide +kernel
  obtain ⟨-, hordered, -⟩ := comparisons_coherent retriesStore
  exact ⟨hcompile, (hordered _ _ hleft hright _ _ hretries rfl).1 (.numbers ..)⟩

end Expr

end BuildPlan.Gate
