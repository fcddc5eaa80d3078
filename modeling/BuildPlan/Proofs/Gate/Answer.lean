import BuildPlan.Gate.Basic
import BuildPlan.Proofs.Gate.Parsing
import BuildPlan.Proofs.Gate.Quotation

/-!
# Answers of gates

When a gate expression has an answer over a store: its lexemes are a disjunction of the grammar
within the limits, and the value of the tree is the answer (`Gate.Answers`). A text that shows,
outside of all strings, a character that does not belong to the syntax has none
(`Gate.not_answers_of_exposed`).
-/

set_option autoImplicit false
set_option relaxedAutoImplicit false

namespace BuildPlan.Gate

/-- A gate expression has an answer over a store: it is a disjunction within the limits, whose
value is the answer. -/
def Answers (store : Store) (expression : String) (answer : Bool) : Prop :=
  ∃ found tree nesting, lexemes expression = .ok found ∧
    Derives .disjunction (found.map Spanned.lexeme) tree nesting ∧ tree.height ≤ maxDepth ∧
      nesting ≤ maxDepth ∧ tree.eval store = .ok (.bool answer)

/-- A gate is read from a source if its lexemes are a disjunction within the limits. -/
theorem compile_eq_ok_iff {source : String} {gate : Gate} : compile source = .ok gate ↔
    ∃ found nesting, lexemes source = .ok found ∧
      Derives .disjunction (found.map Spanned.lexeme) gate.expr nesting ∧
        gate.expr.height ≤ maxDepth ∧ nesting ≤ maxDepth ∧ gate.source = source := by
  unfold compile
  cases hfound : lexemes source with
  | error error => simp
  | ok found =>
    simp only [Except.ok.injEq, exists_and_left, exists_eq_left']
    cases hparse : parse source.utf8ByteSize found with
    | error error =>
      constructor
      · intro h
        cases h
      · rintro ⟨nesting, hderives, hheight, hnesting, -⟩
        cases hparse.symm.trans (parse_eq_ok_iff.2 ⟨nesting, hderives, hheight, hnesting⟩)
    | ok expr =>
      constructor
      · intro h
        obtain rfl := Except.ok.inj h
        obtain ⟨nesting, hderives, hheight, hnesting⟩ := parse_eq_ok_iff.1 hparse
        exact ⟨nesting, hderives, hheight, hnesting, rfl⟩
      · rintro ⟨nesting, hderives, hheight, hnesting, rfl⟩
        have hread := hparse.symm.trans
          (parse_eq_ok_iff.2 ⟨nesting, hderives, hheight, hnesting⟩)
        rw [Except.ok.inj hread]

/-- A gate that is not read is malformed. -/
theorem exists_malformed {source : String} (h : ∀ gate, compile source ≠ .ok gate) :
    ∃ error, compile source = .error (.malformed source error) := by
  unfold compile at h ⊢
  split
  next error _ => exact ⟨error, rfl⟩
  next found hfound =>
    rw [hfound] at h
    dsimp only at h ⊢
    split
    next error _ => exact ⟨error, rfl⟩
    next expr hexpr =>
      rw [hexpr] at h
      exact absurd rfl (h _)

theorem evaluate_eq_ok_iff {gate : Gate} {store : Store} {answer : Bool} :
    gate.evaluate store = .ok answer ↔ gate.expr.eval store = .ok (.bool answer) := by
  unfold evaluate
  cases gate.expr.eval store with
  | error error => simp
  | ok value => cases value <;> simp

/-- Reading and evaluating an expression gives the answer that it has. -/
theorem exists_evaluate_iff_answers {store : Store} {expression : String} {answer : Bool} :
    (∃ gate, compile expression = .ok gate ∧ gate.evaluate store = .ok answer) ↔
      Answers store expression answer := by
  simp only [compile_eq_ok_iff, evaluate_eq_ok_iff]
  constructor
  · rintro ⟨gate, ⟨found, nesting, hfound, hderives, hheight, hnesting, -⟩, heval⟩
    exact ⟨found, gate.expr, nesting, hfound, hderives, hheight, hnesting, heval⟩
  · rintro ⟨found, tree, nesting, hfound, hderives, hheight, hnesting, heval⟩
    exact ⟨⟨expression, tree⟩, ⟨found, nesting, hfound, hderives, hheight, hnesting, rfl⟩, heval⟩

/-- A part of a text, with the text in front of it, shows a character outside of all strings that
does not belong to the syntax. -/
def Exposed (front part : List Char) : Prop :=
  ∃ before c after, part = before ++ c :: after ∧
    Quotation.outside.run (front ++ before) = .outside ∧ isSyntax c = false

/-- A text with an exposed part has no answer. -/
theorem not_answers_of_exposed {store : Store} {expression : String} {answer : Bool}
    {front part back : List Char} (htext : expression.toList = front ++ part ++ back)
    (h : Exposed front part) : ¬ Answers store expression answer := by
  rintro ⟨found, _, _, hfound, -⟩
  obtain ⟨before, c, after, rfl, hrun, hc⟩ := h
  have hsplit : expression.toList = (front ++ before) ++ c :: (after ++ back) := by
    rw [htext]
    simp only [List.append_assoc, List.cons_append]
  have hvalid := isSyntax_of_lexemes hfound hsplit hrun
  rw [hc] at hvalid
  cases hvalid

end BuildPlan.Gate
