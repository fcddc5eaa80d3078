import BuildPlan.Proofs.Outcome
import BuildPlan.Proofs.Placeholder.Body
import BuildPlan.Proofs.Placeholder.Joining

/-!
# What placeholders are replaced by

Every token has a text that takes its place (`Resolver.substitute`), and rendering the token gives
that text unless the resolver is strict and the token lacks a collaborator
(`Resolver.render_eq_ok_iff`). So interpolating a text either fails because of such a token or
gives the text with every placeholder replaced (`Resolver.interpolate_eq_ok_iff`).
-/

set_option autoImplicit false
set_option relaxedAutoImplicit false

namespace BuildPlan.Resolver

/-- A lenient resolver over some values. It has the markers that projects have by default, no
registered extensions, and the surroundings of which nothing is known but the time. -/
def ofStore (store : Store) : Resolver where
  store
  registered := .empty
  builtin := Extension.builtin
    { environment := fun _ ↦ none
      now := { seconds := 0, leap := false }
      identity := .error (.notFound "user")
      repository := none }
  strict := false
  markers := .default

/-- A lenient resolver that knows the name of a branch. -/
def ofBranch (name : String) : Resolver :=
  ofStore (Store.empty.insert "branch" (.leaf name))

variable (resolver : Resolver)

/-- The token of a placeholder with a body. -/
def tokenOf (body : List Char) : Token :=
  .ofBody (.ofList (resolver.markers.written body)) body

/-- A token has no text of its own: nothing is known under its name, or its extension failed. -/
def Unsettled (token : Token) : Prop :=
  ∀ text, resolver.resolve token ≠ .resolved text

instance (token : Token) : Decidable (resolver.Unsettled token) :=
  match h : resolver.resolve token with
  | .resolved text => .isFalse fun hunsettled ↦ hunsettled text h
  | .unresolved => .isTrue fun _ htext ↦ nomatch h.symm.trans htext
  | .failed _ => .isTrue fun _ htext ↦ nomatch h.symm.trans htext

/-- A token stops the rendering: its extension lacks a collaborator, and the resolver is strict. -/
def Halts (token : Token) : Prop :=
  resolver.strict = true ∧ ∃ what, resolver.resolve token = .failed (.missingCollaborator what)

/-- The text that takes the place of a token. -/
def substitute (token : Token) : String :=
  match resolver.resolve token with
  | .resolved text => text
  | .unresolved => token.raw
  | .failed error =>
    if resolver.strict then token.raw ++ "; error: " ++ error.message else token.raw

/-- The plain texts and placeholders of a text, with the substitute of each placeholder. -/
def filled (parts : List (List Char × List Char)) : List Char :=
  parts.flatMap fun part ↦ part.1 ++ (resolver.substitute (resolver.tokenOf part.2)).toList

/-- The text of some segments with every placeholder replaced. -/
def fill (segments : Segments) : List Char :=
  resolver.filled segments.marked ++ segments.tail

variable {resolver : Resolver}

theorem tokens_eq_map (text : String) : resolver.tokens text =
    (resolver.markers.segments text.toList).marked.map fun part ↦ resolver.tokenOf part.2 :=
  rfl

/-- A token is unsettled, or its substitute is what it resolves to. -/
theorem unsettled_or_resolve_eq (token : Token) : resolver.Unsettled token ∨
    resolver.resolve token = .resolved (resolver.substitute token) := by
  refine or_iff_not_imp_left.2 fun hsettled ↦ ?_
  obtain ⟨text, htext⟩ := Classical.not_forall_not.1 hsettled
  rw [substitute, htext]

theorem filled_append (first second : List (List Char × List Char)) :
    resolver.filled (first ++ second) = resolver.filled first ++ resolver.filled second :=
  List.flatMap_append

theorem fill_push (c : Char) (segments : Segments) :
    resolver.fill (segments.push c) = c :: resolver.fill segments := by
  obtain ⟨_ | ⟨⟨literal, body⟩, parts⟩, tail⟩ := segments <;> rfl

theorem fill_lead (text : List Char) (segments : Segments) :
    resolver.fill (segments.lead text) = text ++ resolver.fill segments := by
  induction text with
  | nil => rfl
  | cons c text ih => exact (fill_push c _).trans (congrArg (List.cons c) ih)

theorem fill_append (first second : Segments) :
    resolver.fill (first.append second) = resolver.fill first ++ resolver.fill second := by
  rw [fill, Segments.append, filled_append, List.append_assoc]
  exact (congrArg _ (fill_lead first.tail second)).trans (List.append_assoc _ _ _).symm

/-- A token is rendered as its substitute, unless it stops the rendering. -/
theorem render_eq_ok_iff {token : Token} {text : String} : resolver.render token = .ok text ↔
    ¬ resolver.Halts token ∧ text = resolver.substitute token := by
  unfold render replacement Halts substitute
  rw [eq_comm (a := text)]
  cases hresolve : resolver.resolve token with
  | resolved value => simp
  | unresolved => simp
  | failed error =>
    cases hstrict : resolver.strict with
    | false => simp
    | true => cases error <;> simp

/-- Some segments are rendered unless one of their placeholders stops the rendering. -/
theorem interpolateSegments_eq_ok_iff {tail output : List Char}
    {parts : List (List Char × List Char)} :
    resolver.interpolateSegments tail parts = .ok output ↔
      (∀ part ∈ parts, ¬ resolver.Halts (resolver.tokenOf part.2)) ∧
        output = resolver.filled parts ++ tail := by
  induction parts generalizing output with
  | nil => simp [interpolateSegments, filled, eq_comm]
  | cons part parts ih =>
    obtain ⟨literal, body⟩ := part
    rw [interpolateSegments, Except.bind_eq_ok_iff]
    simp only [Except.bind_eq_ok_iff, List.forall_mem_cons]
    constructor
    · rintro ⟨text, htext, others, hothers, houtput⟩
      obtain ⟨hhalts, rfl⟩ := render_eq_ok_iff.1 htext
      obtain ⟨hrest, rfl⟩ := ih.1 hothers
      refine ⟨⟨hhalts, hrest⟩, ?_⟩
      obtain rfl := Except.ok.inj houtput
      simp [filled, tokenOf]
    · rintro ⟨⟨hhalts, hrest⟩, rfl⟩
      refine ⟨_, render_eq_ok_iff.2 ⟨hhalts, rfl⟩, _, ih.2 ⟨hrest, rfl⟩, ?_⟩
      simp [filled, tokenOf, pure, Except.pure]

/-- A text is rendered unless one of its tokens stops the rendering, and then each placeholder is
replaced by the substitute of its token. -/
theorem interpolate_eq_ok_iff {text output : String} : resolver.interpolate text = .ok output ↔
    (∀ token ∈ resolver.tokens text, ¬ resolver.Halts token) ∧
      output.toList = resolver.filled (resolver.markers.segments text.toList).marked ++
        (resolver.markers.segments text.toList).tail := by
  unfold interpolate
  simp only [Except.map_eq_ok_iff, interpolateSegments_eq_ok_iff, tokens_eq_map,
    List.forall_mem_map]
  constructor
  · rintro ⟨_, ⟨hhalts, rfl⟩, rfl⟩
    exact ⟨hhalts, String.toList_ofList⟩
  · rintro ⟨hhalts, houtput⟩
    exact ⟨_, ⟨hhalts, houtput⟩, String.ofList_toList⟩

end BuildPlan.Resolver
