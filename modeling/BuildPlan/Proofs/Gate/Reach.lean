import BuildPlan.Proofs.Gate.Comparison

/-!
# How far an evaluation reaches

An evaluation does not enter all parts of an expression: an operator is left once its left operand
fails or settles the result. The parts that it gets to are the parts that it reaches
(`Expr.Reaches`). A part is at fault if its evaluation fails although all operands that it enters
have values (`Expr.AtFault`).

An operand that fails makes the expression fail in the same way, so a fault anywhere that is
reached is the error of the whole. After a failure no further operand is entered, so there is one
fault at most. What is not reached is not looked at. The main result is
`eval_fails_exactly_at_fault`.
-/

set_option autoImplicit false
set_option relaxedAutoImplicit false

namespace BuildPlan.Gate.Expr

variable {store : Store} {expr root part operand : Expr} {turn : Turn} {place : List Turn}
  {value : Scalar} {error : EvalError}

/-! ### Parts that are reached -/

/-- The evaluation of an expression enters one of its operands. -/
inductive Enters (store : Store) : Expr → Turn → Expr → Prop
  | operand (operand : Expr) : Enters store (.not operand) .operand operand
  | left (op : Operator) (left right : Expr) : Enters store (.binary op left right) .left left
  | right (op : Operator) (left right : Expr) (first : Scalar)
    (hleft : left.eval store = .ok first) (hneeds : op.NeedsRight first) :
    Enters store (.binary op left right) .right right

/-- The evaluation of an expression reaches a part of it at a place. -/
inductive Reaches (store : Store) (root : Expr) : List Turn → Expr → Prop
  | root : Reaches store root [] root
  | step (place : List Turn) (part : Expr) (turn : Turn) (operand : Expr)
    (hpart : Reaches store root place part) (hoperand : part.Enters store turn operand) :
    Reaches store root (place ++ [turn]) operand

/-- The right operand is entered if the value of the left one leaves the result open. -/
theorem settle_eq_none_iff_enters {op : Operator} {left right : Expr} :
    left.eval store >>= op.settle = .ok none ↔
      (binary op left right).Enters store .right right := by
  rw [Except.bind_eq_ok_iff]
  constructor
  · rintro ⟨first, hleft, hsettle⟩
    exact .right op left right first hleft (Operator.settle_eq_none_iff.1 hsettle)
  · intro h
    cases h with
    | right _ _ _ first hleft hneeds => exact ⟨first, hleft, Operator.settle_eq_none_iff.2 hneeds⟩

theorem operand?_of_enters (h : expr.Enters store turn operand) :
    expr.operand? turn = some operand := by
  cases h <;> rfl

theorem at?_of_reaches (h : root.Reaches store place part) : root.at? place = some part := by
  induction h with
  | root => rfl
  | step place part turn operand _ hoperand ih =>
    have hturn : part.at? [turn] = some operand := by
      rw [at?, operand?_of_enters hoperand]
      rfl
    rw [at?_append, ih]
    exact hturn

/-- What is reached from an operand that is entered is reached. -/
theorem reaches_cons (hoperand : root.Enters store turn operand)
    (h : operand.Reaches store place part) : root.Reaches store (turn :: place) part := by
  induction h with
  | root => exact .step [] root turn operand .root hoperand
  | step place part turn' operand' _ hoperand' ih =>
    exact .step (turn :: place) part turn' operand' ih hoperand'

/-- What is reached is the whole or is reached from an operand that is entered. -/
theorem reaches_cases (h : root.Reaches store place part) : (place = [] ∧ part = root) ∨
    ∃ turn operand rest, place = turn :: rest ∧ root.Enters store turn operand ∧
      operand.Reaches store rest part := by
  induction h with
  | root => exact .inl ⟨rfl, rfl⟩
  | step place part turn operand _ hoperand ih =>
    rcases ih with ⟨rfl, rfl⟩ | ⟨first, entered, rest, rfl, hfirst, hrest⟩
    · exact .inr ⟨turn, operand, [], rfl, hoperand, .root⟩
    · exact .inr ⟨first, entered, rest ++ [turn], rfl, hfirst, .step _ _ _ _ hrest hoperand⟩

/-! ### Faults -/

/-- An expression is at fault by itself: its evaluation fails, and not because an operand does. -/
inductive AtFault (store : Store) : Expr → EvalError → Prop
  | unknown (name : String) (hname : store.lookup name = none) :
    AtFault store (.identifier name) (.unknownIdentifier name)
  | nested (name : String) (entries : Store) (hname : store.lookup name = some (.nested entries)) :
    AtFault store (.identifier name) (.type (.nestedMapping name))
  | negation (operand : Expr) (value : Scalar) (hoperand : operand.eval store = .ok value)
    (hvalue : value.IsNotBoolean) : AtFault store (.not operand) (.type (.notBoolean .not value))
  | connective (op : Operator) (left right : Expr) (turn : Turn) (operand : Expr) (value : Scalar)
    (hop : op.IsConnective) (henters : Enters store (.binary op left right) turn operand)
    (hoperand : operand.eval store = .ok value) (hvalue : value.IsNotBoolean) :
    AtFault store (.binary op left right) (.type (.notBoolean (.operator op) value))
  | unordered (op : Operator) (left right : Expr) (first second : Scalar)
    (hop : op ∈ Phrase.ordering.operators) (hleft : left.eval store = .ok first)
    (hright : right.eval store = .ok second) (hunordered : ¬ first.HasOrder second) :
    AtFault store (.binary op left right) (.type (.unordered first second))

/-- An operand that is entered and fails makes the expression fail in the same way. -/
theorem eval_eq_error_of_enters (h : expr.Enters store turn operand)
    (herror : operand.eval store = .error error) : expr.eval store = .error error := by
  cases h with
  | operand =>
    rw [eval, herror]
    rfl
  | left op left right =>
    rw [eval_binary, herror]
    rfl
  | right op left right first hleft hneeds =>
    rw [eval_binary, hleft, herror]
    change op.settle first >>= _ = _
    rw [Operator.settle_eq_none_iff.2 hneeds]
    rfl

/-- A fault is the error of the expression. -/
theorem eval_eq_error_of_atFault (h : expr.AtFault store error) :
    expr.eval store = .error error := by
  cases h with
  | unknown name hname =>
    rw [eval, evalIdentifier, hname]
  | nested name entries hname =>
    rw [eval, evalIdentifier, hname]
  | negation operand value hoperand hvalue =>
    rw [eval, hoperand]
    change asBoolean .not value >>= _ = _
    rw [asBoolean_eq_error_iff.2 ⟨hvalue, rfl⟩]
    rfl
  | connective op left right turn operand value hop henters hoperand hvalue =>
    rw [eval_binary]
    cases henters with
    | left =>
      rw [hoperand]
      change op.settle value >>= _ = _
      rw [Operator.settle_eq_error_iff.2 ⟨hop, hvalue, rfl⟩]
      rfl
    | right _ _ _ first hleft hneeds =>
      rw [hleft]
      change op.settle first >>= _ = _
      rw [Operator.settle_eq_none_iff.2 hneeds, hoperand]
      change op.combine first value = _
      rw [Operator.combine_of_isConnective hop, Except.map_eq_error_iff]
      exact asBoolean_eq_error_iff.2 ⟨hvalue, rfl⟩
  | unordered op left right first second hop hleft hright hunordered =>
    rw [eval_ordering hop hleft hright, Scalar.compare?_eq_none_iff.2 hunordered]

/-- A comparison fails only if it is an ordering of two values without an order. -/
theorem unordered_of_compareWith {op : Operator} {first second : Scalar} (hop : ¬ op.IsConnective)
    (h : compareWith op first second = .error error) : op ∈ Phrase.ordering.operators ∧
      ¬ first.HasOrder second ∧ error = .type (.unordered first second) := by
  cases hcompare : first.compare? second with
  | some order => cases op <;> simp [compareWith, hcompare] at h
  | none =>
    have hunordered := Scalar.compare?_eq_none_iff.1 hcompare
    cases op with
    | and => exact absurd (.inl rfl) hop
    | or => exact absurd (.inr rfl) hop
    | eq => cases h
    | ne => cases h
    | _ =>
      simp only [compareWith, hcompare, Except.error.injEq] at h
      exact ⟨by decide, hunordered, h.symm⟩

/-- An evaluation that fails is at fault by itself or enters an operand that fails. -/
theorem atFault_or_enters (h : expr.eval store = .error error) : expr.AtFault store error ∨
    ∃ turn operand, expr.Enters store turn operand ∧ operand.eval store = .error error := by
  cases expr with
  | literal value => cases h
  | identifier name =>
    change evalIdentifier store name = .error error at h
    unfold evalIdentifier at h
    split at h
    next => cases h
    next entries hname =>
      cases h
      exact .inl (.nested name entries hname)
    next hname =>
      cases h
      exact .inl (.unknown name hname)
  | not operand =>
    rcases Except.bind_eq_error_iff.1 h with hoperand | ⟨value, hoperand, hnot⟩
    · exact .inr ⟨.operand, operand, .operand operand, hoperand⟩
    · rcases Except.bind_eq_error_iff.1 hnot with hvalue | ⟨answer, -, hanswer⟩
      · obtain ⟨hbool, rfl⟩ := asBoolean_eq_error_iff.1 hvalue
        exact .inl (.negation operand value hoperand hbool)
      · cases hanswer
  | binary op left right =>
    rw [eval_binary] at h
    rcases Except.bind_eq_error_iff.1 h with hleft | ⟨first, hleft, hrest⟩
    · exact .inr ⟨.left, left, .left op left right, hleft⟩
    rcases Except.bind_eq_error_iff.1 hrest with hsettle | ⟨settled, hsettle, hfinish⟩
    · obtain ⟨hop, hfirst, rfl⟩ := Operator.settle_eq_error_iff.1 hsettle
      exact .inl (.connective op left right _ _ first hop (.left op left right) hleft hfirst)
    cases settled with
    | some value => cases hfinish
    | none =>
      have hneeds := Operator.settle_eq_none_iff.1 hsettle
      have hright : (binary op left right).Enters store .right right :=
        .right op left right first hleft hneeds
      rcases Except.bind_eq_error_iff.1 hfinish with herror | ⟨second, hsecond, hcombine⟩
      · exact .inr ⟨.right, right, hright, herror⟩
      by_cases hop : op.IsConnective
      · rw [Operator.combine_of_isConnective hop, Except.map_eq_error_iff] at hcombine
        obtain ⟨hvalue, rfl⟩ := asBoolean_eq_error_iff.1 hcombine
        exact .inl (.connective op left right _ _ second hop hright hsecond hvalue)
      · rw [Operator.combine_of_not_isConnective hop] at hcombine
        obtain ⟨hordering, hunordered, rfl⟩ := unordered_of_compareWith hop hcombine
        exact .inl (.unordered op left right first second hordering hleft hsecond hunordered)

/-- An expression is not at fault by itself if it enters an operand that fails. -/
theorem not_atFault_of_enters {error' : EvalError} (h : expr.Enters store turn operand)
    (herror : operand.eval store = .error error) : ¬ expr.AtFault store error' := by
  intro hfault
  cases hfault with
  | unknown | nested => cases h
  | negation _ value hoperand =>
    cases h
    cases hoperand.symm.trans herror
  | connective op left right turn' operand' value hop henters hoperand hvalue =>
    cases h with
    | left =>
      cases henters with
      | left => cases hoperand.symm.trans herror
      | right _ _ _ first hleft => cases hleft.symm.trans herror
    | right _ _ _ first hleft hneeds =>
      cases henters with
      | left =>
        obtain rfl := Except.ok.inj (hleft.symm.trans hoperand)
        rcases hop with rfl | rfl
        · exact hvalue true hneeds
        · exact hvalue false hneeds
      | right => cases hoperand.symm.trans herror
  | unordered op left right first second hop hleft hright =>
    cases h with
    | left => cases hleft.symm.trans herror
    | right => cases hright.symm.trans herror

/-- No further operand is entered after one that fails. -/
theorem enters_unique {turn' : Turn} {operand' : Expr} {error' : EvalError}
    (h : expr.Enters store turn operand) (herror : operand.eval store = .error error)
    (h' : expr.Enters store turn' operand') (herror' : operand'.eval store = .error error') :
    turn = turn' ∧ operand = operand' := by
  cases h with
  | operand =>
    cases h'
    exact ⟨rfl, rfl⟩
  | left =>
    cases h' with
    | left => exact ⟨rfl, rfl⟩
    | right _ _ _ first hleft => cases hleft.symm.trans herror
  | right _ _ _ first hleft =>
    cases h' with
    | left => cases hleft.symm.trans herror'
    | right => exact ⟨rfl, rfl⟩

/-- A part that is reached and fails makes the whole fail in the same way. -/
theorem eval_eq_error_of_reaches (h : root.Reaches store place part)
    (herror : part.eval store = .error error) : root.eval store = .error error := by
  induction h with
  | root => exact herror
  | step place part turn operand _ hoperand ih => exact ih (eval_eq_error_of_enters hoperand herror)

theorem height_lt_of_enters (h : expr.Enters store turn operand) :
    operand.height < expr.height := by
  cases h with
  | operand => exact Nat.lt_succ_self _
  | left => exact Nat.lt_succ_of_le (Nat.le_max_left ..)
  | right => exact Nat.lt_succ_of_le (Nat.le_max_right ..)

/-- An evaluation that fails reaches a fault with its error. -/
theorem exists_fault_of_eval_eq_error {expr : Expr} (h : expr.eval store = .error error) :
    ∃ place part, expr.Reaches store place part ∧ part.AtFault store error := by
  rcases atFault_or_enters h with hfault | ⟨turn, operand, henters, hoperand⟩
  · exact ⟨[], expr, .root, hfault⟩
  · obtain ⟨place, part, hreaches, hfault⟩ := exists_fault_of_eval_eq_error hoperand
    exact ⟨turn :: place, part, reaches_cons henters hreaches, hfault⟩
termination_by expr.height
decreasing_by exact height_lt_of_enters henters

/-- Two faults that are reached stand at the same place. -/
theorem fault_unique {place' : List Turn} {part' : Expr} {error' : EvalError}
    (h : expr.Reaches store place part) (hfault : part.AtFault store error)
    (h' : expr.Reaches store place' part') (hfault' : part'.AtFault store error') :
    place' = place := by
  have herror := eval_eq_error_of_atFault hfault
  have herror' := eval_eq_error_of_atFault hfault'
  induction place generalizing expr place' with
  | nil =>
    obtain ⟨-, rfl⟩ | ⟨_, _, _, hplace, -⟩ := reaches_cases h
    · obtain ⟨rfl, -⟩ | ⟨turn', operand', rest', -, henters', hrest'⟩ := reaches_cases h'
      · rfl
      · have hoperand' := eval_eq_error_of_reaches hrest' herror'
        exact absurd hfault (not_atFault_of_enters henters' hoperand')
    · cases hplace
  | cons turn place ih =>
    obtain ⟨hplace, -⟩ | ⟨turn, operand, rest, hplace, henters, hrest⟩ := reaches_cases h
    · cases hplace
    obtain ⟨rfl, rfl⟩ := List.cons.inj hplace
    have hoperand := eval_eq_error_of_reaches hrest herror
    obtain ⟨rfl, rfl⟩ | ⟨turn', operand', rest', rfl, henters', hrest'⟩ := reaches_cases h'
    · exact absurd hfault' (not_atFault_of_enters henters hoperand)
    · have hoperand' := eval_eq_error_of_reaches hrest' herror'
      obtain ⟨rfl, rfl⟩ := enters_unique henters hoperand henters' hoperand'
      rw [ih hrest hrest']

/-! ### Parts that are not reached -/

/-- Two expressions have the same root: the same literal, name or operator. -/
inductive SameRoot : Expr → Expr → Prop
  | literal (value : Scalar) : SameRoot (.literal value) (.literal value)
  | identifier (name : String) : SameRoot (.identifier name) (.identifier name)
  | not (operand operand' : Expr) : SameRoot (.not operand) (.not operand')
  | binary (op : Operator) (left right left' right' : Expr) :
    SameRoot (.binary op left right) (.binary op left' right')

theorem SameRoot.refl (expr : Expr) : expr.SameRoot expr := by
  cases expr <;> constructor

/-- An expression agrees with another one where the evaluation of that one gets to. -/
def AgreesWhereReached (store : Store) (expr other : Expr) : Prop :=
  ∀ place part, expr.Reaches store place part →
    ∃ part', other.at? place = some part' ∧ part.SameRoot part'

/-- The right operand of an operator is not reached if the left one settles the result or fails. -/
theorem agreesWhereReached_binary {op : Operator} {left right right' : Expr}
    (h : ∀ first, left.eval store = .ok first → ¬ op.NeedsRight first) :
    (binary op left right).AgreesWhereReached store (.binary op left right') := by
  intro place part hreaches
  obtain ⟨rfl, rfl⟩ | ⟨turn, operand, rest, rfl, henters, hrest⟩ := reaches_cases hreaches
  · exact ⟨_, rfl, .binary ..⟩
  · cases henters with
    | left =>
      have hplace : left.at? rest = some part := at?_of_reaches hrest
      exact ⟨part, hplace, .refl part⟩
    | right _ _ _ first hleft hneeds => exact absurd hneeds (h first hleft)

/-- Expressions that agree where one is reached agree so in an operand that it enters. -/
theorem AgreesWhereReached.of_enters {other operand' : Expr}
    (h : expr.AgreesWhereReached store other) (henters : expr.Enters store turn operand)
    (hoperand' : other.operand? turn = some operand') :
    operand.AgreesWhereReached store operand' := by
  intro place part hreaches
  obtain ⟨part', hpart', hroot⟩ := h _ _ (reaches_cons henters hreaches)
  refine ⟨part', ?_, hroot⟩
  rwa [at?, hoperand'] at hpart'

/-- What is not reached has no influence on the result. -/
theorem eval_eq_of_agreesWhereReached {other : Expr} (h : expr.AgreesWhereReached store other) :
    other.eval store = expr.eval store := by
  induction expr generalizing other with
  | literal value =>
    obtain ⟨_, hother, hroot⟩ := h [] _ .root
    obtain rfl := Option.some.inj hother
    cases hroot
    rfl
  | identifier name =>
    obtain ⟨_, hother, hroot⟩ := h [] _ .root
    obtain rfl := Option.some.inj hother
    cases hroot
    rfl
  | not operand ih =>
    obtain ⟨_, hother, hroot⟩ := h [] _ .root
    obtain rfl := Option.some.inj hother
    cases hroot with
    | not _ operand' => rw [eval, eval, ih (h.of_enters (.operand operand) rfl)]
  | binary op left right ihleft ihright =>
    obtain ⟨_, hother, hroot⟩ := h [] _ .root
    obtain rfl := Option.some.inj hother
    cases hroot with
    | binary _ _ _ left' right' =>
      rw [eval_binary, eval_binary, ihleft (h.of_enters (.left op left right) rfl)]
      refine bind_finish_congr fun hopen ↦ ?_
      rw [ihright (h.of_enters (settle_eq_none_iff_enters.1 hopen) rfl)]

/-! ### The error of an evaluation -/

/-- An evaluation fails exactly if it reaches a part that is at fault by itself, and with the error
of that part. There is at most one fault on the way, and parts that are not reached have no
influence on the result. In an expression that was read an ordering is at fault exactly if its
operands are not two numbers and not two strings. -/
theorem eval_fails_exactly_at_fault (store : Store) (expr : Expr) :
    (∀ error, expr.eval store = .error error ↔
      ∃ place part, expr.Reaches store place part ∧ part.AtFault store error) ∧
    (∀ place part error place' part' error',
      expr.Reaches store place part → part.AtFault store error →
      expr.Reaches store place' part' → part'.AtFault store error' → place' = place) ∧
    (∀ other, expr.AgreesWhereReached store other → other.eval store = expr.eval store) ∧
    (expr.IsRead → ∀ place op left right first second,
      expr.Reaches store place (.binary op left right) →
      left.eval store = .ok first → right.eval store = .ok second →
        (first.HasOrder second ↔ first.Comparable second)) := by
  refine ⟨?exact, ?unique, ?unreached, ?ordered⟩
  case exact =>
    intro error
    refine ⟨exists_fault_of_eval_eq_error, ?_⟩
    rintro ⟨place, part, hreaches, hfault⟩
    exact eval_eq_error_of_reaches hreaches (eval_eq_error_of_atFault hfault)
  case unique =>
    intro place part error place' part' error' h hfault h' hfault'
    exact fault_unique h hfault h' hfault'
  case unreached => exact fun other h ↦ eval_eq_of_agreesWhereReached h
  case ordered =>
    intro hread place op left right first second hreaches hleft hright
    have hpart := hread.of_at? (at?_of_reaches hreaches)
    have hplaces : (binary op left right).at? [.left] = some left ∧
        (binary op left right).at? [.right] = some right := ⟨rfl, rfl⟩
    have hfirst := isPresent_of_eval (hpart.of_at? hplaces.1) hleft
    have hsecond := isPresent_of_eval (hpart.of_at? hplaces.2) hright
    exact ⟨fun horder ↦ horder.comparable, fun hcomparable ↦ ⟨hcomparable, hfirst, hsecond⟩⟩

/-- The gate `retries < 10 && missing`. -/
def missingGate : Gate where
  source := "retries < 10 && missing"
  expr := .binary .and retriesGate.expr (.identifier "missing")

theorem missing_fails : compile "retries < 10 && missing" = .ok missingGate ∧
    missingGate.expr.eval retriesStore = .error (.unknownIdentifier "missing") ∧
    (∀ place part error, missingGate.expr.Reaches retriesStore place part →
      part.AtFault retriesStore error → place = [.right]) ∧
    (binary .or retriesGate.expr (literal (.bool true))).eval retriesStore =
      (binary .or retriesGate.expr (identifier "missing")).eval retriesStore ∧
    (Scalar.number (.ofNat 3) "3").HasOrder (.number (.ofNat 10) "10") := by
  have hcompile : compile "retries < 10 && missing" = .ok missingGate := by decide +kernel
  have hretries : retriesGate.expr.eval retriesStore = .ok (.bool true) := by decide +kernel
  have hleft : missingGate.expr.Enters retriesStore .left retriesGate.expr := .left ..
  have hright : missingGate.expr.Enters retriesStore .right (identifier "missing") :=
    .right _ _ _ _ hretries rfl
  have hmissing : (identifier "missing").AtFault retriesStore (.unknownIdentifier "missing") :=
    .unknown "missing" (by decide +kernel)
  have hreaches := reaches_cons hright .root
  obtain ⟨hexact, hunique, -, hordered⟩ := eval_fails_exactly_at_fault retriesStore missingGate.expr
  obtain ⟨-, -, hunreached, -⟩ := eval_fails_exactly_at_fault retriesStore
    (binary .or retriesGate.expr (identifier "missing"))
  refine ⟨hcompile, (hexact _).2 ⟨_, _, hreaches, hmissing⟩, ?_, hunreached _ ?_, ?_⟩
  · intro place part error hpart hfault
    exact hunique _ _ _ _ _ _ hreaches hmissing hpart hfault
  · refine agreesWhereReached_binary fun first hfirst hneeds ↦ ?_
    obtain rfl := Except.ok.inj (hretries.symm.trans hfirst)
    cases hneeds
  · exact (hordered ⟨_, _, [], hcompile, rfl⟩ _ .lt _ _ _ _ (reaches_cons hleft .root)
      (by decide +kernel) (by decide +kernel)).2 (.numbers ..)

end BuildPlan.Gate.Expr
