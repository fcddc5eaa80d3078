import BuildPlan.Proofs.Gate.Reach

/-!
# What a gate depends on

An evaluation looks up the identifiers that it reaches, from left to right (`Expr.lookups`). Of each
it sees a text, that there is a nested store, or that there is nothing; stores that differ in other
ways look the same to it (`LooksSame`). How far it gets depends on what it has seen before. So two
stores that look the same at every identifier that is reached over the first one lead the evaluation
along the same way, and to the same answer or the same error: `evaluate_determined_by_reached`.
-/

set_option autoImplicit false
set_option relaxedAutoImplicit false

namespace BuildPlan.Gate

/-- An evaluation sees no difference between what is found in one store and in another: the same
text, two nested stores, or nothing. -/
inductive LooksSame : Option Value → Option Value → Prop
  | leaf (text : String) : LooksSame (some (.leaf text)) (some (.leaf text))
  | nested (inner inner' : Store) : LooksSame (some (.nested inner)) (some (.nested inner'))
  | absent : LooksSame none none

theorem evalIdentifier_eq_of_looksSame {store other : Store} {name : String}
    (h : LooksSame (store.lookup name) (other.lookup name)) :
    evalIdentifier other name = evalIdentifier store name := by
  unfold evalIdentifier
  generalize store.lookup name = found at h
  generalize other.lookup name = found' at h
  cases h <;> rfl

namespace Expr

variable {store other : Store} {expr root part : Expr} {name : String}

/-! ### Lookups -/

/-- The identifiers that an evaluation looks up, in the order in which it does. -/
def lookups (store : Store) : Expr → List String
  | .literal _ => []
  | .identifier name => [name]
  | .not operand => operand.lookups store
  | .binary op left right =>
    left.lookups store ++
      match left.eval store >>= op.settle with
      | .ok none => right.lookups store
      | _ => []

/-- What is reached is the whole, or is reached from an operand that is entered. -/
theorem exists_reaches_iff : (∃ place, root.Reaches store place part) ↔
    part = root ∨ ∃ turn operand, root.Enters store turn operand ∧
      ∃ place, operand.Reaches store place part := by
  constructor
  · rintro ⟨place, h⟩
    obtain ⟨-, rfl⟩ | ⟨turn, operand, rest, -, henters, hrest⟩ := reaches_cases h
    · exact .inl rfl
    · exact .inr ⟨turn, operand, henters, rest, hrest⟩
  · rintro (rfl | ⟨turn, operand, henters, place, h⟩)
    · exact ⟨[], .root⟩
    · exact ⟨turn :: place, reaches_cons henters h⟩

theorem mem_lookups_binary_iff {op : Operator} {left right : Expr} :
    name ∈ (binary op left right).lookups store ↔ name ∈ left.lookups store ∨
      (binary op left right).Enters store .right right ∧ name ∈ right.lookups store := by
  rw [lookups, List.mem_append, ← settle_eq_none_iff_enters]
  refine or_congr_right ?_
  split
  next hopen => exact (and_iff_right hopen).symm
  next hclosed =>
    simp only [List.not_mem_nil, false_iff, not_and]
    exact fun hopen ↦ absurd hopen (hclosed ·)

/-- The identifiers that are looked up are the ones that are reached. -/
theorem mem_lookups_iff : name ∈ expr.lookups store ↔
    ∃ place, expr.Reaches store place (.identifier name) := by
  induction expr with
  | literal value =>
    rw [exists_reaches_iff]
    constructor
    · intro h
      cases h
    · rintro (h | ⟨_, _, henters, _⟩)
      · cases h
      · cases henters
  | identifier other =>
    rw [exists_reaches_iff, lookups, List.mem_singleton]
    constructor
    · rintro rfl
      exact .inl rfl
    · rintro (h | ⟨_, _, henters, _⟩)
      · exact Expr.identifier.inj h
      · cases henters
  | not operand ih =>
    rw [exists_reaches_iff, lookups, ih]
    constructor
    · exact fun h ↦ .inr ⟨.operand, operand, .operand operand, h⟩
    · rintro (h | ⟨_, _, henters, h⟩)
      · cases h
      · cases henters
        exact h
  | binary op left right ihleft ihright =>
    rw [exists_reaches_iff, mem_lookups_binary_iff, ihleft, ihright]
    constructor
    · rintro (hleft | ⟨henters, hright⟩)
      · exact .inr ⟨.left, left, .left op left right, hleft⟩
      · exact .inr ⟨.right, right, henters, hright⟩
    · rintro (h | ⟨_, _, henters, h⟩)
      · cases h
      · cases henters with
        | left => exact .inl h
        | right _ _ _ first hleft hneeds => exact .inr ⟨.right _ _ _ first hleft hneeds, h⟩

/-! ### Two stores -/

/-- Over stores that look the same where one evaluation looks, both evaluations look up the same
identifiers and have the same result. -/
theorem eval_eq_of_looksSame
    (h : ∀ name ∈ expr.lookups store, LooksSame (store.lookup name) (other.lookup name)) :
    expr.eval other = expr.eval store ∧ expr.lookups other = expr.lookups store := by
  induction expr with
  | literal value => exact ⟨rfl, rfl⟩
  | identifier name =>
    have hname := h name (List.mem_singleton_self name)
    exact ⟨evalIdentifier_eq_of_looksSame hname, rfl⟩
  | not operand ih =>
    obtain ⟨heval, hlookups⟩ := ih h
    exact ⟨by rw [eval, eval, heval], hlookups⟩
  | binary op left right ihleft ihright =>
    obtain ⟨hleft, hlookups⟩ := ihleft fun name hmem ↦ h name (mem_lookups_binary_iff.2 (.inl hmem))
    -- Both evaluations have the same left value, so both go on to the right operand or neither does.
    have hright (hopen : left.eval store >>= op.settle = .ok none) :=
      ihright fun name hmem ↦
        h name (mem_lookups_binary_iff.2 (.inr ⟨settle_eq_none_iff_enters.1 hopen, hmem⟩))
    rw [eval_binary, eval_binary, lookups, lookups, hleft, hlookups]
    refine ⟨bind_finish_congr fun hopen ↦ (hright hopen).1, congrArg _ ?_⟩
    split
    next hopen => exact (hright hopen).2
    next => rfl

end Expr

/-! ### The outcome of a gate -/

/-- The outcome of a gate depends only on the identifiers that it names and that are reached. Let
another store look the same at every identifier that the evaluation over one store reaches. Then the
evaluation over the other store gives the same answer or fails with the same error, and it looks up
the same identifiers in the same order. All of them are names of the gate. -/
theorem evaluate_determined_by_reached {source : String} {gate : Gate}
    (hcompile : compile source = .ok gate) (store other : Store)
    (hsame : ∀ place name, gate.expr.Reaches store place (.identifier name) →
      LooksSame (store.lookup name) (other.lookup name)) :
    gate.evaluate other = gate.evaluate store ∧
      gate.expr.lookups other = gate.expr.lookups store ∧
      ∃ found, lexemes source = .ok found ∧
        ∀ name ∈ gate.expr.lookups store, .identifier name ∈ found.map Spanned.lexeme := by
  have hlookups : ∀ name ∈ gate.expr.lookups store,
      LooksSame (store.lookup name) (other.lookup name) := by
    intro name hname
    obtain ⟨place, hplace⟩ := Expr.mem_lookups_iff.1 hname
    exact hsame place name hplace
  obtain ⟨heval, hsequence⟩ := Expr.eval_eq_of_looksSame hlookups
  obtain ⟨found, nesting, hfound, hderives, -⟩ := compile_eq_ok_iff.1 hcompile
  refine ⟨?outcome, hsequence, found, hfound, ?named⟩
  case outcome => rw [evaluate, evaluate, heval]
  case named =>
    intro name hname
    obtain ⟨place, hplace⟩ := Expr.mem_lookups_iff.1 hname
    exact hderives.mem_of_at? (Expr.at?_of_reaches hplace) rfl

/-- The gate `(retries < 10 || owner) && region`. -/
def regionGate : Gate where
  source := "(retries < 10 || owner) && region"
  expr := .binary .and
    (.binary .or
      (.binary .lt (.identifier "retries") (.literal (.number (.ofNat 10) "10")))
      (.identifier "owner"))
    (.identifier "region")

/-- A store with a number and a nested store without entries. -/
def bareStore : Store :=
  (Store.empty.insert "region" (.nested .empty)).insert "retries" (.leaf "3")

/-- The same number, another nested store, and the name of an owner. -/
def ownedStore : Store :=
  ((Store.empty.insert "region" (.nested (Store.empty.insert "name" (.leaf "north")))).insert
    "retries" (.leaf "3")).insert "owner" (.leaf "nobody")

/-- The owner is not looked up, and of the region it matters only that it is a store. -/
theorem region_outcome_kept : compile "(retries < 10 || owner) && region" = .ok regionGate ∧
    regionGate.expr.lookups bareStore = ["retries", "region"] ∧
    regionGate.evaluate ownedStore = regionGate.evaluate bareStore ∧
    regionGate.evaluate bareStore =
      .error (.type regionGate.source (.nestedMapping "region")) := by
  have hcompile : compile "(retries < 10 || owner) && region" = .ok regionGate := by decide +kernel
  have hlookups : regionGate.expr.lookups bareStore = ["retries", "region"] := by decide +kernel
  have hretries : LooksSame (bareStore.lookup "retries") (ownedStore.lookup "retries") := by
    rw [show bareStore.lookup "retries" = some (.leaf "3") by decide +kernel,
      show ownedStore.lookup "retries" = some (.leaf "3") by decide +kernel]
    exact .leaf "3"
  have hregion : LooksSame (bareStore.lookup "region") (ownedStore.lookup "region") := by
    rw [show bareStore.lookup "region" = some (.nested .empty) by decide +kernel,
      show ownedStore.lookup "region" =
        some (.nested (Store.empty.insert "name" (.leaf "north"))) by decide +kernel]
    exact .nested ..
  refine ⟨hcompile, hlookups, (evaluate_determined_by_reached hcompile _ _ ?_).1, by decide +kernel⟩
  intro place name hreaches
  have hname : name ∈ regionGate.expr.lookups bareStore :=
    Expr.mem_lookups_iff.2 ⟨place, hreaches⟩
  rw [hlookups, List.mem_cons, List.mem_singleton] at hname
  rcases hname with rfl | rfl
  · exact hretries
  · exact hregion

end BuildPlan.Gate
