import BuildPlan.Proofs.Placeholder.Decomposition
import BuildPlan.Proofs.Resolver.Rendering

/-!
# Interpolation keeps the plain text

A text with its placeholders replaced is woven from two lists: the pieces of plain text of its
decomposition, and one text for each placeholder (`Segments.weave`). Interpolation renders the
tokens of the text one after the other and weaves what they are rendered as into the plain text
(`Resolver.interpolate_eq_map_weave`), so it stays in step with the list of tokens, whatever the
tokens resolve to.

The two main results describe interpolation without the scan. `Resolver.interpolate_decomposition`
ties tokens and interpolation to the one decomposition of the text. `Resolver.interpolate_report`
says what interpolation gives in terms of what the tokens resolve to: a strict resolver fails at the
first token that lacks a collaborator, and in every other case each token gives way to its
substitute and nothing else changes.
-/

set_option autoImplicit false
set_option relaxedAutoImplicit false

namespace BuildPlan

namespace Segments

/-- The plain text of some segments with texts in the places of the placeholders, one for each. -/
def weave (segments : Segments) (texts : List (List Char)) : List Char :=
  (List.zipWith (fun part text ↦ part.1 ++ text) segments.marked texts).flatten ++ segments.tail

/-- Texts that are made of the placeholders stand behind the plain text in front of each. -/
theorem weave_map (segments : Segments) (f : List Char × List Char → List Char) :
    segments.weave (segments.marked.map f) =
      segments.marked.flatMap (fun part ↦ part.1 ++ f part) ++ segments.tail := by
  rw [weave, List.zipWith_map_right, List.zipWith_self, List.flatMap_def]

/-- The placeholders as they are written make up the text again. -/
theorem weave_written (markers : Markers) (segments : Segments) :
    segments.weave (segments.marked.map fun part ↦ markers.written part.2) =
      segments.join markers :=
  segments.weave_map _

theorem weave_cons (part : List Char × List Char) (parts : List (List Char × List Char))
    (tail text : List Char) (texts : List (List Char)) :
    weave ⟨part :: parts, tail⟩ (text :: texts) = part.1 ++ text ++ weave ⟨parts, tail⟩ texts := by
  simp [weave]

end Segments

namespace Resolver

variable {resolver : Resolver}

/-! ### Interpolation renders the tokens -/

/-- The tokens of some placeholders are rendered one after the other. -/
theorem interpolateSegments_eq_map_weave (tail : List Char)
    (parts : List (List Char × List Char)) :
    resolver.interpolateSegments tail parts =
      ((parts.map fun part ↦ resolver.tokenOf part.2).mapM resolver.render).map
        fun texts ↦ Segments.weave ⟨parts, tail⟩ (texts.map String.toList) := by
  induction parts with
  | nil => rfl
  | cons part parts ih =>
    obtain ⟨literal, body⟩ := part
    rw [interpolateSegments, List.map_cons, List.mapM_cons, ih]
    change (resolver.render (resolver.tokenOf body) >>= _) = _
    cases resolver.render (resolver.tokenOf body) with
    | error error => rfl
    | ok text =>
      cases (parts.map fun part ↦ resolver.tokenOf part.2).mapM resolver.render with
      | error error => rfl
      | ok texts =>
        simp only [bind, Except.bind, Except.map, pure, Except.pure, List.map_cons,
          Segments.weave_cons]

/-- Interpolation weaves what the tokens are rendered as into the plain text. -/
theorem interpolate_eq_map_weave (text : String) :
    resolver.interpolate text =
      ((resolver.tokens text).mapM resolver.render).map fun texts ↦
        .ofList ((resolver.markers.segments text.toList).weave (texts.map String.toList)) := by
  rw [interpolate, interpolateSegments_eq_map_weave, tokens_eq_map]
  cases ((resolver.markers.segments text.toList).marked.map fun part ↦
    resolver.tokenOf part.2).mapM resolver.render <;> rfl

/-- The tokens as they are written make up the text. -/
theorem weave_raw (text : String) :
    (resolver.markers.segments text.toList).weave
      ((resolver.tokens text).map fun token ↦ token.raw.toList) = text.toList := by
  have hraw : ((resolver.tokens text).map fun token ↦ token.raw.toList) =
      (resolver.markers.segments text.toList).marked.map
        fun part ↦ resolver.markers.written part.2 := by
    rw [tokens_eq_map, List.map_map]
    refine List.map_congr_left fun part _ ↦ ?_
    rw [Function.comp_apply, tokenOf, Token.raw_ofBody, String.toList_ofList]
  rw [hraw, Segments.weave_written, Segments.join_segments]

/-- There is exactly one way to cut a text into plain text and placeholders such that every body is
in one line and as short as possible and no placeholder starts in plain text. The tokens of the text
are the ones of its placeholders in their order, interpolation copies the plain text around what the
tokens are rendered as, and with the tokens as they are written in between this is the text. -/
theorem interpolate_decomposition (resolver : Resolver) (text : String) :
    ∃ segments, (∀ other, resolver.markers.Decomposes text.toList other ↔ other = segments) ∧
      (resolver.tokens text = segments.marked.map fun part ↦
        .ofBody (.ofList (resolver.markers.written part.2)) part.2) ∧
      (resolver.interpolate text =
        ((resolver.tokens text).mapM resolver.render).map fun texts ↦
          .ofList (segments.weave (texts.map String.toList))) ∧
      segments.weave ((resolver.tokens text).map fun token ↦ token.raw.toList) = text.toList :=
  ⟨resolver.markers.segments text.toList, fun _ ↦ Markers.decomposes_iff, tokens_eq_map text,
    interpolate_eq_map_weave text, weave_raw text⟩

/-! ### What interpolation gives -/

/-- A token cannot be rendered if it stops the rendering. -/
theorem render_eq_error_iff {token : Token} {error : ConfigError} :
    resolver.render token = .error error ↔ resolver.strict = true ∧ ∃ what,
      resolver.resolve token = .failed (.missingCollaborator what) ∧
        error = .missingCollaborator token.raw what := by
  unfold render replacement
  cases hresolve : resolver.resolve token with
  | resolved value => simp
  | unresolved => simp
  | failed cause =>
    cases hstrict : resolver.strict with
    | false => simp
    | true => cases cause <;> simp [eq_comm]

theorem exists_render_eq_ok_iff {token : Token} :
    (∃ text, resolver.render token = .ok text) ↔ ¬ resolver.Halts token := by
  simp only [render_eq_ok_iff, exists_and_left, exists_eq, and_true]

/-- Interpolation fails at the first token that stops the rendering. -/
theorem interpolate_eq_error_iff {text : String} {error : ConfigError} :
    resolver.interpolate text = .error error ↔ ∃ before token after,
      resolver.tokens text = before ++ token :: after ∧
        (∀ earlier ∈ before, ¬ resolver.Halts earlier) ∧ resolver.render token = .error error := by
  rw [interpolate_eq_map_weave, Except.map_eq_error_iff, Except.mapM_eq_error_iff]
  simp only [exists_render_eq_ok_iff]

/-- Where no token stops the rendering, each token gives way to its substitute. -/
theorem interpolate_eq_weave {text : String}
    (h : ∀ token ∈ resolver.tokens text, ¬ resolver.Halts token) :
    resolver.interpolate text = .ok (.ofList ((resolver.markers.segments text.toList).weave
      ((resolver.tokens text).map fun token ↦ (resolver.substitute token).toList))) := by
  refine interpolate_eq_ok_iff.2 ⟨h, ?_⟩
  rw [String.toList_ofList, tokens_eq_map, List.map_map]
  exact Segments.weave_map _ _

theorem not_halts_of_lenient {token : Token} (h : resolver.strict = false) :
    ¬ resolver.Halts token := by
  rintro ⟨hstrict, -⟩
  rw [h] at hstrict
  cases hstrict

theorem substitute_eq_raw {token : Token} (hstrict : resolver.strict = false)
    (h : resolver.Unsettled token) : resolver.substitute token = token.raw := by
  unfold substitute
  split
  next text htext => exact absurd htext (h text)
  next => rfl
  next error _ => rw [hstrict, if_neg Bool.false_ne_true]

/-- Strictness shows only in tokens that fail. -/
theorem substitute_withStrict {token : Token} (strict : Bool)
    (h : ∀ error, resolver.resolve token ≠ .failed error) :
    { resolver with strict }.substitute token = resolver.substitute token := by
  have hresolve : { resolver with strict }.resolve token = resolver.resolve token := rfl
  unfold substitute
  rw [hresolve]
  cases hfound : resolver.resolve token with
  | resolved text => rfl
  | unresolved => rfl
  | failed error => exact absurd hfound (h error)

/-- Interpolation agrees with what the tokens of a text resolve to. It fails exactly if the resolver
is strict and a token lacks a collaborator, and names the first such token and what it lacks; so a
lenient resolver never fails. In every other case each token of the text, and nothing else, gives
way to its substitute. Hence strictness makes no difference where no token fails, and a lenient
resolver gives back a text without change if all its tokens are unsettled. -/
theorem interpolate_report (resolver : Resolver) (text : String) :
    (∀ error, resolver.interpolate text = .error error ↔ resolver.strict = true ∧
      ∃ before token after what, resolver.tokens text = before ++ token :: after ∧
        (∀ earlier ∈ before, ∀ other,
          resolver.resolve earlier ≠ .failed (.missingCollaborator other)) ∧
        resolver.resolve token = .failed (.missingCollaborator what) ∧
        error = .missingCollaborator token.raw what) ∧
    (resolver.strict = false → ∃ output, resolver.interpolate text = .ok output) ∧
    ((∀ error, resolver.interpolate text ≠ .error error) → ∃ segments,
      (∀ other, resolver.markers.Decomposes text.toList other ↔ other = segments) ∧
      text.toList =
        segments.weave ((resolver.tokens text).map fun token ↦ token.raw.toList) ∧
      resolver.interpolate text = .ok (.ofList
        (segments.weave ((resolver.tokens text).map fun token ↦
          (resolver.substitute token).toList)))) ∧
    (∀ strict, (∀ token ∈ resolver.tokens text, ∀ error, resolver.resolve token ≠ .failed error) →
      { resolver with strict }.interpolate text = resolver.interpolate text) ∧
    (resolver.strict = false → (∀ token ∈ resolver.tokens text, resolver.Unsettled token) →
      resolver.interpolate text = .ok text) := by
  refine ⟨?fails, ?lenient, ?replaced, ?strictness, ?unsettled⟩
  case fails =>
    intro error
    rw [interpolate_eq_error_iff]
    constructor
    · rintro ⟨before, token, after, htokens, hbefore, hrender⟩
      obtain ⟨hstrict, what, hresolve, herror⟩ := render_eq_error_iff.1 hrender
      refine ⟨hstrict, before, token, after, what, htokens, ?_, hresolve, herror⟩
      intro earlier hearlier other hother
      exact hbefore earlier hearlier ⟨hstrict, other, hother⟩
    · rintro ⟨hstrict, before, token, after, what, htokens, hbefore, hresolve, herror⟩
      refine ⟨before, token, after, htokens, ?_,
        render_eq_error_iff.2 ⟨hstrict, what, hresolve, herror⟩⟩
      rintro earlier hearlier ⟨-, other, hother⟩
      exact hbefore earlier hearlier other hother
  case lenient =>
    intro hstrict
    exact ⟨_, interpolate_eq_weave fun _ _ ↦ not_halts_of_lenient hstrict⟩
  case replaced =>
    intro hsucceeds
    refine ⟨resolver.markers.segments text.toList, fun _ ↦ Markers.decomposes_iff,
      (weave_raw text).symm, ?_⟩
    cases houtput : resolver.interpolate text with
    | error error => exact absurd houtput (hsucceeds error)
    | ok output =>
      rw [← houtput]
      exact interpolate_eq_weave (interpolate_eq_ok_iff.1 houtput).1
  case strictness =>
    intro strict hfailed
    have hhalts (other : Resolver)
        (hother : ∀ token, other.resolve token = resolver.resolve token) :
        ∀ token ∈ resolver.tokens text, ¬ other.Halts token := by
      rintro token htoken ⟨-, what, hresolve⟩
      rw [hother] at hresolve
      exact hfailed token htoken _ hresolve
    have hsubstitute : ((resolver.tokens text).map fun token ↦
        ({ resolver with strict }.substitute token).toList) =
          (resolver.tokens text).map fun token ↦ (resolver.substitute token).toList :=
      List.map_congr_left fun token htoken ↦
        congrArg String.toList (substitute_withStrict strict (hfailed token htoken))
    calc { resolver with strict }.interpolate text
        = .ok (.ofList ((resolver.markers.segments text.toList).weave
            ((resolver.tokens text).map fun token ↦
              ({ resolver with strict }.substitute token).toList))) :=
          interpolate_eq_weave (hhalts { resolver with strict } fun _ ↦ rfl)
      _ = .ok (.ofList ((resolver.markers.segments text.toList).weave
            ((resolver.tokens text).map fun token ↦ (resolver.substitute token).toList))) := by
          rw [hsubstitute]
      _ = resolver.interpolate text := (interpolate_eq_weave (hhalts resolver fun _ ↦ rfl)).symm
  case unsettled =>
    intro hstrict hunsettled
    have hraw : ((resolver.tokens text).map fun token ↦ (resolver.substitute token).toList) =
        (resolver.tokens text).map fun token ↦ token.raw.toList :=
      List.map_congr_left fun token htoken ↦
        congrArg String.toList (substitute_eq_raw hstrict (hunsettled token htoken))
    rw [interpolate_eq_weave fun _ _ ↦ not_halts_of_lenient hstrict, hraw, weave_raw,
      String.ofList_toList]

/-- A strict resolver without version control names the first token that asks for it. -/
theorem branch_report :
    { ofStore .empty with strict := true }.interpolate "v${x}${git:branch}" =
      .error (.missingCollaborator "${git:branch}" "version-control") := by
  have htokens : { ofStore .empty with strict := true }.tokens "v${x}${git:branch}" =
      [(ofStore .empty).tokenOf "x".toList, (ofStore .empty).tokenOf "git:branch".toList] := by
    decide +kernel
  have hresolve : { ofStore .empty with strict := true }.resolve
      ((ofStore .empty).tokenOf "git:branch".toList) =
        .failed (.missingCollaborator "version-control") := by
    decide +kernel
  have hbefore : { ofStore .empty with strict := true }.resolve
      ((ofStore .empty).tokenOf "x".toList) = .unresolved := by
    decide +kernel
  refine ((interpolate_report { ofStore .empty with strict := true } _).1 _).2
    ⟨rfl, [(ofStore .empty).tokenOf "x".toList], _, [], _, htokens, ?_, hresolve, by decide +kernel⟩
  intro earlier hearlier other hother
  rw [List.mem_singleton.1 hearlier, hbefore] at hother
  cases hother

end Resolver

end BuildPlan
