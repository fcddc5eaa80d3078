import BuildPlan.Proofs.Resolver.Lines

/-!
# Interpolating a text twice

A value may be put together with the text around it to a placeholder that was not there before, so
interpolating twice is in general not the same as interpolating once. It is if every value has a
character and shares none with the markers (`Markers.Unmarked`), and the markers are in one line.

What interpolation does to a text is then seen from both of them at once (`Markers.Replaced`): both
are gone through from the front, where either one character is kept, or a placeholder has given way
to a value. A marker in the output can only be made of kept characters, and what the values stand
for has no line break. So a placeholder that starts at a kept character of the output starts there
in the input too (`Markers.Replaced.starts`), and the placeholders of the output are those that
were kept as they are written (`Resolver.bodies_fill`).
-/

set_option autoImplicit false
set_option relaxedAutoImplicit false

namespace BuildPlan

namespace Markers

variable {markers : Markers}

/-- A character occurs in one of the markers. -/
def Uses (markers : Markers) (c : Char) : Prop :=
  c ∈ markers.opening ∨ c ∈ markers.closing

/-- A text that has a character, and shares none with the markers. -/
structure Unmarked (markers : Markers) (text : List Char) : Prop where
  ne_nil : text ≠ []
  not_uses : ∀ c ∈ text, ¬ markers.Uses c

/-- A text that shares no character with the markers is plain in front of every text. -/
theorem Unmarked.segments_append {value : List Char} (h : markers.Unmarked value)
    (text : List Char) : markers.segments (value ++ text) = (markers.segments text).lead value :=
  segments_lead fun c hc _ ↦ not_starts_of_not_mem fun hopening ↦ h.not_uses c hc (.inl hopening)

/-- A closing marker follows in the line. -/
def Closes (markers : Markers) (text : List Char) : Prop :=
  ∃ body rest, text = body ++ markers.closing ++ rest ∧ lineBreak ∉ body

/-- More text of the line in front of a closing marker. -/
theorem Closes.append {text : List Char} (h : markers.Closes text) (front : List Char)
    (hfront : lineBreak ∉ front) : markers.Closes (front ++ text) := by
  obtain ⟨body, rest, rfl, hbody⟩ := h
  refine ⟨front ++ body, rest, by simp only [List.append_assoc], ?_⟩
  rw [List.mem_append, not_or]
  exact ⟨hfront, hbody⟩

/-- A placeholder starts at an opening marker behind which a closing one follows. -/
theorem starts_iff_closes {text : List Char} : markers.Starts text ↔
    ∃ rest, text = markers.opening ++ rest ∧ markers.Closes rest := by
  constructor
  · rintro ⟨body, rest, rfl, hbody⟩
    exact ⟨body ++ markers.closing ++ rest, by simp only [written, List.append_assoc],
      body, rest, rfl, hbody⟩
  · rintro ⟨_, rfl, body, rest, rfl, hbody⟩
    exact ⟨body, rest, by simp only [written, List.append_assoc], hbody⟩

/-- The second text is the first one with some of its placeholders replaced by texts that share
nothing with the markers. -/
inductive Replaced (markers : Markers) : List Char → List Char → Prop
  /-- Nothing is left of both. -/
  | nil : Replaced markers [] []
  /-- A character is kept. -/
  | keep {text output : List Char} (c : Char) (rest : Replaced markers text output) :
      Replaced markers (c :: text) (c :: output)
  /-- A placeholder has given way to a text. -/
  | replace {body value text output : List Char} (line : lineBreak ∉ body)
      (unmarked : markers.Unmarked value) (rest : Replaced markers text output) :
      Replaced markers (markers.written body ++ text) (value ++ output)

namespace Replaced

variable {text output word : List Char}

/-- A text that is kept. -/
theorem append (h : markers.Replaced text output) (front : List Char) :
    markers.Replaced (front ++ text) (front ++ output) := by
  induction front with
  | nil => exact h
  | cons c front ih => exact .keep c ih

/-- Characters of markers at the front of the output were kept. -/
theorem exists_eq_append (hword : ∀ c ∈ word, markers.Uses c)
    (h : markers.Replaced text (word ++ output)) :
    ∃ others, text = word ++ others ∧ markers.Replaced others output := by
  induction word generalizing text with
  | nil => exact ⟨text, rfl, h⟩
  | cons c word ih =>
    obtain ⟨hc, hword⟩ := List.forall_mem_cons.1 hword
    generalize hwhole : c :: word ++ output = whole at h
    cases h with
    | nil => cases hwhole
    | keep d hrest =>
      obtain ⟨rfl, rfl⟩ := List.cons.inj hwhole
      obtain ⟨others, rfl, hothers⟩ := ih hword hrest
      exact ⟨others, rfl, hothers⟩
    | @replace body value text other hline hvalue hrest =>
      cases value with
      | nil => exact absurd rfl hvalue.ne_nil
      | cons d value =>
        obtain ⟨rfl, -⟩ := List.cons.inj hwhole
        exact absurd hc (hvalue.not_uses c List.mem_cons_self)

/-- A closing marker that follows in the output follows in the text. -/
theorem closes (h : markers.Replaced text output) (hmarkers : markers.SingleLine)
    (hcloses : markers.Closes output) : markers.Closes text := by
  induction h with
  | nil => exact hcloses
  | @keep text output c hrest ih =>
    obtain ⟨_ | ⟨d, body⟩, rest, houtput, hbody⟩ := hcloses
    · have hwhole := Replaced.keep c hrest
      rw [houtput] at hwhole
      obtain ⟨others, htext, -⟩ := hwhole.exists_eq_append fun d hd ↦ .inr hd
      exact ⟨[], others, htext, List.not_mem_nil⟩
    · obtain ⟨rfl, rfl⟩ := List.cons.inj houtput
      rw [List.mem_cons, not_or] at hbody
      refine (ih ⟨body, rest, rfl, hbody.2⟩).append [c] ?_
      rw [List.mem_singleton]
      exact hbody.1
  | @replace body value text output hline hvalue hrest ih =>
    -- The closing marker stands behind the value, which shares no character with it.
    suffices hbehind : markers.Closes output from
      (ih hbehind).append _ (hmarkers.not_mem_written hline)
    obtain ⟨front, rest, houtput, hfront⟩ := hcloses
    rw [List.append_assoc] at houtput
    rcases List.append_eq_append_iff.1 houtput with
      ⟨between, rfl, rfl⟩ | ⟨_ | ⟨d, others⟩, rfl, hclosing⟩
    · rw [List.mem_append, not_or] at hfront
      exact ⟨between, rest, (List.append_assoc _ _ _).symm, hfront.2⟩
    · exact ⟨[], rest, hclosing.symm, List.not_mem_nil⟩
    · cases hmark : markers.closing with
      | nil => exact absurd hmark markers.closing_ne_nil
      | cons e mark =>
        rw [hmark] at hclosing
        obtain ⟨rfl, -⟩ := List.cons.inj hclosing
        refine absurd (Or.inr ?_) (hvalue.not_uses e (by simp))
        rw [hmark]
        exact List.mem_cons_self

/-- A placeholder that starts in the output starts in the text. -/
theorem starts (h : markers.Replaced text output) (hmarkers : markers.SingleLine)
    (hstarts : markers.Starts output) : markers.Starts text := by
  obtain ⟨rest, rfl, hcloses⟩ := starts_iff_closes.1 hstarts
  obtain ⟨others, rfl, hothers⟩ := h.exists_eq_append fun c hc ↦ .inl hc
  exact starts_iff_closes.2 ⟨others, rfl, hothers.closes hmarkers hcloses⟩

end Replaced

end Markers

namespace Resolver

variable {resolver : Resolver}

/-! ### What interpolation does to a text -/

/-- If a token resolves, then to a text that has a character and shares none with the markers. -/
def MarkerFree (resolver : Resolver) (token : Token) : Prop :=
  ∀ text, resolver.resolve token = .resolved text → resolver.markers.Unmarked text.toList

/-- A placeholder that is unsettled stays as it is written. -/
theorem substitute_tokenOf {body : List Char} (hstrict : resolver.strict = false)
    (h : resolver.Unsettled (resolver.tokenOf body)) :
    (resolver.substitute (resolver.tokenOf body)).toList = resolver.markers.written body := by
  rw [substitute_eq_raw hstrict h, tokenOf, Token.raw_ofBody, String.toList_ofList]

theorem fill_mark (body : List Char) (segments : Segments) :
    resolver.fill (segments.mark body) =
      (resolver.substitute (resolver.tokenOf body)).toList ++ resolver.fill segments :=
  List.append_assoc _ _ _

variable {text : List Char}

/-- Interpolation replaces placeholders by values that share nothing with the markers. -/
theorem replaced_fill (hstrict : resolver.strict = false)
    (hfree : ∀ body ∈ (resolver.markers.segments text).bodies,
      resolver.MarkerFree (resolver.tokenOf body)) :
    resolver.markers.Replaced text (resolver.fill (resolver.markers.segments text)) := by
  fun_induction Markers.segments resolver.markers text with
  | case1 text body rest hfound ih =>
    obtain ⟨rfl, hbody⟩ := Markers.placeholder?_eq_some_iff.1 hfound
    obtain ⟨hfirst, hrest⟩ := List.forall_mem_cons.1 hfree
    rw [fill_mark]
    rcases unsettled_or_resolve_eq (resolver.tokenOf body) with hunsettled | hresolve
    · rw [substitute_tokenOf hstrict hunsettled]
      exact (ih hrest).append _
    · exact .replace hbody.single_line (hfirst _ hresolve) (ih hrest)
  | case2 => exact .nil
  | case3 c rest hfound ih =>
    rw [Segments.bodies_push] at hfree
    rw [fill_push]
    exact .keep c (ih hfree)

/-- The placeholders of an interpolated text are the unsettled ones. -/
theorem bodies_fill (hstrict : resolver.strict = false) (hmarkers : resolver.markers.SingleLine)
    (hfree : ∀ body ∈ (resolver.markers.segments text).bodies,
      resolver.MarkerFree (resolver.tokenOf body)) :
    (resolver.markers.segments (resolver.fill (resolver.markers.segments text))).bodies =
      (resolver.markers.segments text).bodies.filter fun body ↦
        resolver.Unsettled (resolver.tokenOf body) := by
  fun_induction Markers.segments resolver.markers text with
  | case1 text body rest hfound ih =>
    obtain ⟨rfl, hbody⟩ := Markers.placeholder?_eq_some_iff.1 hfound
    obtain ⟨hfirst, hrest⟩ := List.forall_mem_cons.1 hfree
    rw [fill_mark, Segments.bodies_mark]
    rcases unsettled_or_resolve_eq (resolver.tokenOf body) with hunsettled | hresolve
    · rw [substitute_tokenOf hstrict hunsettled,
        Markers.segments_written_append (hbody.in_front _), Segments.bodies_mark, ih hrest,
        List.filter_cons, if_pos (decide_eq_true hunsettled)]
    · have hsettled : ¬ resolver.Unsettled (resolver.tokenOf body) := fun h ↦ h _ hresolve
      rw [(hfirst _ hresolve).segments_append, Segments.bodies_lead, ih hrest, List.filter_cons,
        if_neg (mt of_decide_eq_true hsettled)]
  | case2 => exact congrArg Segments.bodies (Markers.segments_nil _)
  | case3 c rest hfound ih =>
    rw [Segments.bodies_push] at hfree
    have hreplaced := (replaced_fill hstrict hfree).keep c
    have hstarts : ¬ resolver.markers.Starts
        (c :: resolver.fill (resolver.markers.segments rest)) :=
      mt (hreplaced.starts hmarkers) (Markers.placeholder?_eq_none_iff.1 hfound)
    rw [fill_push, Markers.segments_cons hstarts, Segments.bodies_push, Segments.bodies_push,
      ih hfree]

/-! ### Interpolating the output -/

/-- A lenient resolver changes nothing in a text whose tokens are unsettled. -/
theorem interpolate_of_unsettled {text : String} (hstrict : resolver.strict = false)
    (h : ∀ token ∈ resolver.tokens text, resolver.Unsettled token) :
    resolver.interpolate text = .ok text := by
  have hfill : resolver.fill (resolver.markers.segments text.toList) =
      (resolver.markers.segments text.toList).join resolver.markers := by
    refine congrArg (· ++ _) (List.flatMap_congr fun part hpart ↦ ?_)
    rw [substitute_tokenOf hstrict (h _ (List.mem_map_of_mem hpart))]
  refine interpolate_eq_ok_iff.2 ⟨fun _ _ ↦ not_halts_of_lenient hstrict, ?_⟩
  exact (hfill.trans (Segments.join_segments _ _)).symm

/-- Interpolating twice is interpolating once, if the resolver is lenient, the markers are in one
line, and no token of the text resolves to a text that is empty or shares a character with a marker.
The tokens of the output are those of the text that nothing was put in the place of, in their
order. -/
theorem interpolate_idempotent (resolver : Resolver) (text : String)
    (hstrict : resolver.strict = false) (hmarkers : resolver.markers.SingleLine)
    (hfree : ∀ token ∈ resolver.tokens text, resolver.MarkerFree token) :
    ∃ output, resolver.interpolate text = .ok output ∧
      resolver.interpolate output = .ok output ∧
      resolver.tokens output =
        (resolver.tokens text).filter fun token ↦ resolver.Unsettled token := by
  let output := String.ofList (resolver.fill (resolver.markers.segments text.toList))
  have hbodies : ∀ body ∈ (resolver.markers.segments text.toList).bodies,
      resolver.MarkerFree (resolver.tokenOf body) := by
    rw [tokens_eq_map_bodies, List.forall_mem_map] at hfree
    exact hfree
  have htokens : resolver.tokens output =
      (resolver.tokens text).filter fun token ↦ resolver.Unsettled token := by
    rw [tokens_eq_map_bodies, tokens_eq_map_bodies, String.toList_ofList,
      bodies_fill hstrict hmarkers hbodies, List.filter_map]
    rfl
  refine ⟨output, ?_, ?_, htokens⟩
  · exact interpolate_eq_ok_iff.2 ⟨fun _ _ ↦ not_halts_of_lenient hstrict, String.toList_ofList⟩
  · refine interpolate_of_unsettled hstrict fun token htoken ↦ ?_
    rw [htokens] at htoken
    exact of_decide_eq_true (List.mem_filter.1 htoken).2

/-- A text with a marker that is not closed in its line, a token for the name of the branch, and a
token that nothing is known of. -/
def releaseNote : String :=
  "$\x7b\n$\x7bbranch\x7d\x7d for $\x7bissue\x7d"

/-- The name of the branch does not complete the marker in front of it, and the token that was left
is left again. -/
theorem releaseNote_idempotent :
    (∀ token ∈ (ofBranch "main").tokens releaseNote, (ofBranch "main").MarkerFree token) ∧
      (ofBranch "main").interpolate releaseNote = .ok "$\x7b\nmain\x7d for $\x7bissue\x7d" ∧
      (ofBranch "main").interpolate "$\x7b\nmain\x7d for $\x7bissue\x7d" =
        .ok "$\x7b\nmain\x7d for $\x7bissue\x7d" := by
  have htokens : (ofBranch "main").tokens releaseNote =
      [(ofBranch "main").tokenOf "branch".toList, (ofBranch "main").tokenOf "issue".toList] := by
    decide +kernel
  have houtput : (ofBranch "main").interpolate releaseNote =
      .ok "$\x7b\nmain\x7d for $\x7bissue\x7d" := by
    decide +kernel
  have hbranch : (ofBranch "main").resolve ((ofBranch "main").tokenOf "branch".toList) =
      .resolved "main" := by
    decide +kernel
  have hissue : (ofBranch "main").resolve ((ofBranch "main").tokenOf "issue".toList) =
      .unresolved := by
    decide +kernel
  have hfree : ∀ token ∈ (ofBranch "main").tokens releaseNote,
      (ofBranch "main").MarkerFree token := by
    rw [htokens, List.forall_mem_cons, List.forall_mem_singleton]
    constructor
    · intro value hvalue
      obtain rfl := Resolution.resolved.inj (hbranch.symm.trans hvalue)
      exact ⟨by decide, by simp [Markers.Uses, ofBranch, ofStore, Markers.default]⟩
    · intro value hvalue
      cases hissue.symm.trans hvalue
  obtain ⟨output, hfirst, hsecond, -⟩ :=
    interpolate_idempotent (ofBranch "main") releaseNote rfl Markers.singleLine_default hfree
  obtain rfl := Except.ok.inj (houtput.symm.trans hfirst)
  exact ⟨hfree, houtput, hsecond⟩

end Resolver

end BuildPlan
