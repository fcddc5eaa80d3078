import BuildPlan.Proofs.Gate.Answer
import BuildPlan.Proofs.Resolver.Rendering
import BuildPlan.Resolver.Gate

/-!
# Gates with unsettled tokens

A token without a text of its own leaves its placeholder behind in the text that is read as a gate
(`LeftBehind`). The gate has no answer if what is left behind shows, outside of all strings, a
character that does not belong to the syntax of gates, and so a placeholder with the default
markers outside of strings always stops the gate. Inside of a string the placeholder is a part of
the string, and the gate is answered as if it had been written so.

`unsettled_gate_fails_iff` says when a gate fails, and `quoted_token_answered` shows a gate that
does not fail although its only token is unsettled.
-/

set_option autoImplicit false
set_option relaxedAutoImplicit false

namespace BuildPlan.Resolver

variable (resolver : Resolver)

/-- The text that is read as a gate, with every placeholder replaced. -/
def filledText (expression : String) : String :=
  let segments := resolver.markers.segments expression.toList
  .ofList (resolver.filled segments.marked ++ segments.tail)

/-- An unsettled token of an expression leaves a text behind, and another text is in front of it
once the placeholders are replaced. -/
def LeftBehind (expression : String) (front left : List Char) : Prop :=
  ∃ before literal body after,
    (resolver.markers.segments expression.toList).marked = before ++ (literal, body) :: after ∧
      resolver.Unsettled (resolver.tokenOf body) ∧ front = resolver.filled before ++ literal ∧
        left = (resolver.substitute (resolver.tokenOf body)).toList

variable {resolver : Resolver}

theorem interpolate_eq_ok_iff_filledText {expression output : String} :
    resolver.interpolate expression = .ok output ↔
      (∀ token ∈ resolver.tokens expression, ¬ resolver.Halts token) ∧
        output = resolver.filledText expression := by
  rw [interpolate_eq_ok_iff, filledText, ← String.toList_inj, String.toList_ofList]

/-- A gate is answered if no token stops it and the text with the placeholders replaced is. -/
theorem evaluateGate_eq_ok_iff {expression : String} {answer : Bool} :
    resolver.evaluateGate expression = .ok answer ↔
      (∀ token ∈ resolver.tokens expression, ¬ resolver.Halts token) ∧
        Gate.Answers resolver.store (resolver.filledText expression) answer := by
  rw [← Gate.exists_evaluate_iff_answers, evaluateGate]
  cases hinterpolate : resolver.interpolate expression with
  | error cause =>
    constructor
    · intro h
      cases h
    · rintro ⟨hhalts, -⟩
      cases hinterpolate.symm.trans (interpolate_eq_ok_iff_filledText.2 ⟨hhalts, rfl⟩)
  | ok output =>
    obtain ⟨hhalts, rfl⟩ := interpolate_eq_ok_iff_filledText.1 hinterpolate
    dsimp only
    cases Gate.compile (resolver.filledText expression) with
    | error error => simp
    | ok gate => simp [and_iff_right hhalts]

/-- A gate fails if a token stops it or the text with the placeholders replaced has no answer. -/
theorem evaluateGate_eq_error_iff {expression : String} :
    (∃ error, resolver.evaluateGate expression = .error error) ↔
      (∃ token ∈ resolver.tokens expression, resolver.Halts token) ∨
        ¬ ∃ answer, Gate.Answers resolver.store (resolver.filledText expression) answer := by
  rw [Except.exists_eq_error_iff]
  simp only [evaluateGate_eq_ok_iff, exists_and_left, not_and_or, not_forall, not_not,
    exists_prop]

/-- What is left behind is a part of the text that is read as a gate. -/
theorem LeftBehind.toList_filledText {expression : String} {front left : List Char}
    (h : resolver.LeftBehind expression front left) :
    ∃ back, (resolver.filledText expression).toList = front ++ left ++ back := by
  obtain ⟨before, literal, body, after, hmarked, -, rfl, rfl⟩ := h
  refine ⟨resolver.filled after ++ (resolver.markers.segments expression.toList).tail, ?_⟩
  rw [filledText, String.toList_ofList, hmarked, filled_append]
  simp [filled]

/-- What an unsettled token leaves behind begins with its placeholder. -/
theorem exists_substitute_eq_append {token : Token} (h : resolver.Unsettled token) :
    ∃ note, resolver.substitute token = token.raw ++ note := by
  unfold substitute
  split
  next text htext => exact absurd htext (h text)
  next => exact ⟨"", (String.append_empty).symm⟩
  next error _ =>
    split
    · exact ⟨"; error: " ++ error.message, String.append_assoc⟩
    · exact ⟨"", (String.append_empty).symm⟩

/-- What is left behind begins with the marker in front of the placeholder. -/
theorem LeftBehind.exists_eq_append {expression : String} {front left : List Char}
    (h : resolver.LeftBehind expression front left) :
    ∃ back, left = resolver.markers.opening ++ back := by
  obtain ⟨_, _, body, _, _, hunsettled, -, rfl⟩ := h
  obtain ⟨note, hnote⟩ := exists_substitute_eq_append hunsettled
  refine ⟨body ++ resolver.markers.closing ++ note.toList, ?_⟩
  rw [hnote, String.toList_append, tokenOf, Token.raw_ofBody, String.toList_ofList,
    Markers.written]
  simp only [List.append_assoc]

/-- A gate fails if an unsettled token leaves something behind that is exposed. -/
theorem LeftBehind.evaluateGate_eq_error {expression : String} {front left : List Char}
    (h : resolver.LeftBehind expression front left) (hexposed : Gate.Exposed front left) :
    ∃ error, resolver.evaluateGate expression = .error error := by
  obtain ⟨back, hback⟩ := h.toList_filledText
  refine evaluateGate_eq_error_iff.2 (.inr ?_)
  rintro ⟨answer, hanswer⟩
  exact Gate.not_answers_of_exposed hback hexposed hanswer

/-- When gates with unsettled tokens fail. Every unsettled token of a gate leaves its placeholder
behind. A gate fails exactly if a token stops it or the text with the placeholders replaced has no
answer, and that is so if what an unsettled token leaves behind is exposed. In particular a gate
fails if a placeholder is left behind outside of all strings and the marker in front starts with a
character that does not belong to the syntax of gates. -/
theorem unsettled_gate_fails_iff (resolver : Resolver) (expression : String) :
    (∀ token ∈ resolver.tokens expression, resolver.Unsettled token → ∃ front note,
      resolver.LeftBehind expression front (token.raw ++ note).toList) ∧
    ((∃ error, resolver.evaluateGate expression = .error error) ↔
      (∃ token ∈ resolver.tokens expression, resolver.Halts token) ∨
        ¬ ∃ answer, Gate.Answers resolver.store (resolver.filledText expression) answer) ∧
    (∀ front left, resolver.LeftBehind expression front left → Gate.Exposed front left →
      ∃ error, resolver.evaluateGate expression = .error error) ∧
    ∀ front left mark rest, resolver.LeftBehind expression front left →
      resolver.markers.opening = mark :: rest → Gate.isSyntax mark = false →
        Gate.Quotation.outside.run front = .outside →
          ∃ error, resolver.evaluateGate expression = .error error := by
  refine ⟨?_, evaluateGate_eq_error_iff, fun _ _ ↦ LeftBehind.evaluateGate_eq_error, ?_⟩
  · intro token htoken hunsettled
    rw [tokens_eq_map] at htoken
    obtain ⟨⟨literal, body⟩, hmem, rfl⟩ := List.mem_map.1 htoken
    obtain ⟨before, after, hmarked⟩ := List.append_of_mem hmem
    obtain ⟨note, hnote⟩ := exists_substitute_eq_append hunsettled
    exact ⟨_, note, before, literal, body, after, hmarked, hunsettled, rfl, by rw [hnote]⟩
  · intro front left mark rest hleft hopening hmark hfront
    obtain ⟨back, hback⟩ := hleft.exists_eq_append
    refine hleft.evaluateGate_eq_error ⟨[], mark, rest ++ back, ?_, ?_, hmark⟩
    · rw [hback, hopening]
      rfl
    · rwa [List.append_nil]

/-- A resolver without values knows nothing under a name. -/
theorem unsettled_unknown :
    (ofStore .empty).Unsettled ((ofStore .empty).tokenOf "unknown".toList) := by
  have hunresolved : (ofStore .empty).resolve ((ofStore .empty).tokenOf "unknown".toList) =
      .unresolved := by decide +kernel
  intro text htext
  cases hunresolved.symm.trans htext

/-- A gate fails whose unsettled token is outside of all strings. -/
theorem bare_token_fails :
    ∃ error, (ofStore .empty).evaluateGate "$\x7bunknown\x7d == 'x'" = .error error := by
  have hmarked : ((ofStore .empty).markers.segments "$\x7bunknown\x7d == 'x'".toList).marked =
      [([], "unknown".toList)] := by decide +kernel
  have hleft : (ofStore .empty).LeftBehind "$\x7bunknown\x7d == 'x'" [] _ :=
    ⟨[], [], "unknown".toList, [], hmarked, unsettled_unknown, rfl, rfl⟩
  exact (unsettled_gate_fails_iff _ _).2.2.2 [] _ '$' ['\x7b'] hleft rfl (by decide) rfl

/-- A gate is answered although its only token is unsettled, since the token is part of a
string. -/
theorem quoted_token_answered :
    (ofStore .empty).tokens "'$\x7bunknown\x7d' == 'x'" =
      [(ofStore .empty).tokenOf "unknown".toList] ∧
    (ofStore .empty).Unsettled ((ofStore .empty).tokenOf "unknown".toList) ∧
    (ofStore .empty).evaluateGate "'$\x7bunknown\x7d' == 'x'" = .ok false := by
  have htokens : (ofStore .empty).tokens "'$\x7bunknown\x7d' == 'x'" =
      [(ofStore .empty).tokenOf "unknown".toList] := by decide +kernel
  exact ⟨htokens, unsettled_unknown, by decide +kernel⟩

end BuildPlan.Resolver
