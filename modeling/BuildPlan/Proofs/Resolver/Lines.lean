import BuildPlan.Proofs.Placeholder.Joining
import BuildPlan.Proofs.Resolver.Interpolation

/-!
# Interpolation line by line

The body of a placeholder is in one line. So if the markers are in one line too
(`Markers.SingleLine`), every placeholder is, and a line break is a place where a text can be cut:
an opening marker that is not closed in its line takes nothing of the next one, and hides no
placeholder of it (`Markers.SingleLine.segments_append`).

`Resolver.interpolate_lines` says that a text is interpolated line by line, and so are its tokens
listed. The first line that cannot be rendered is the failure of the text.
-/

set_option autoImplicit false
set_option relaxedAutoImplicit false

namespace BuildPlan

namespace Markers

/-- No marker has a line break. -/
structure SingleLine (markers : Markers) : Prop where
  opening : lineBreak ∉ markers.opening
  closing : lineBreak ∉ markers.closing

theorem singleLine_default : default.SingleLine where
  opening := by decide
  closing := by decide

namespace SingleLine

variable {markers : Markers}

theorem not_mem_written (h : markers.SingleLine) {body : List Char} (hbody : lineBreak ∉ body) :
    lineBreak ∉ markers.written body := by
  simp only [written, List.mem_append, not_or]
  exact ⟨⟨h.opening, hbody⟩, h.closing⟩

/-- A placeholder that starts in a line ends in it. -/
theorem starts_of_append (h : markers.SingleLine) (first second : List Char)
    (hstarts : markers.Starts (first ++ lineBreak :: second)) : markers.Starts first := by
  obtain ⟨body, rest, htext, hbody⟩ := hstarts
  rcases List.append_eq_append_iff.1 htext with ⟨others, hwritten, hsecond⟩ | ⟨others, rfl, -⟩
  · cases others with
    | nil => exact ⟨body, [], by rw [hwritten, List.append_nil, List.append_nil], hbody⟩
    | cons c others =>
      obtain ⟨rfl, -⟩ := List.cons.inj hsecond
      exact absurd (by simp [hwritten]) (h.not_mem_written hbody)
  · exact ⟨body, others, rfl, hbody⟩

/-- The segments of a text are those of its lines. -/
theorem segments_append (h : markers.SingleLine) (first second : List Char) :
    markers.segments (first ++ lineBreak :: second) =
      (markers.segments first).append ((markers.segments second).push lineBreak) := by
  fun_induction Markers.segments markers first with
  | case1 text body rest hfound ih =>
    obtain ⟨rfl, hbody⟩ := placeholder?_eq_some_iff.1 hfound
    rw [List.append_assoc, segments_written_append (hbody.in_front _), ih, Segments.append_mark]
  | case2 => exact segments_cons (not_starts_of_not_mem h.opening)
  | case3 c rest hfound ih =>
    have hstarts : ¬ markers.Starts (c :: (rest ++ lineBreak :: second)) :=
      mt (h.starts_of_append (c :: rest) second) (placeholder?_eq_none_iff.1 hfound)
    rw [List.cons_append, segments_cons hstarts, ih, Segments.append_push]

end SingleLine

end Markers

namespace Resolver

variable {resolver : Resolver}

theorem tokens_eq_map_bodies (text : String) : resolver.tokens text =
    (resolver.markers.segments text.toList).bodies.map resolver.tokenOf := by
  rw [tokens_eq_map, Segments.bodies, List.map_map]
  rfl

theorem toList_line (first second : String) : (first ++ "\n" ++ second).toList =
    first.toList ++ Markers.lineBreak :: second.toList := by
  rw [String.toList_append, String.toList_append, List.append_assoc]
  rfl

/-- The tokens of a text are those of its lines. -/
theorem tokens_line (h : resolver.markers.SingleLine) (first second : String) :
    resolver.tokens (first ++ "\n" ++ second) =
      resolver.tokens first ++ resolver.tokens second := by
  simp only [tokens_eq_map_bodies, toList_line, h.segments_append, Segments.bodies_append,
    Segments.bodies_push, List.map_append]

/-- Two lines are interpolated one after the other. -/
theorem interpolate_line (h : resolver.markers.SingleLine) (first second : String) :
    resolver.interpolate (first ++ "\n" ++ second) = do
      let front ← resolver.interpolate first
      let back ← resolver.interpolate second
      return front ++ "\n" ++ back := by
  have htokens := tokens_line h first second
  cases hfirst : resolver.interpolate first with
  | error error =>
    obtain ⟨before, token, after, htoken, hbefore, herror⟩ := interpolate_eq_error_iff.1 hfirst
    refine interpolate_eq_error_iff.2 ⟨before, token, after ++ resolver.tokens second, ?_, hbefore,
      herror⟩
    rw [htokens, htoken, List.append_assoc, List.cons_append]
  | ok front =>
    obtain ⟨hkept, hfront⟩ := interpolate_eq_ok_iff.1 hfirst
    cases hsecond : resolver.interpolate second with
    | error error =>
      obtain ⟨before, token, after, htoken, hbefore, herror⟩ := interpolate_eq_error_iff.1 hsecond
      refine interpolate_eq_error_iff.2 ⟨resolver.tokens first ++ before, token, after, ?_,
        List.forall_mem_append.2 ⟨hkept, hbefore⟩, herror⟩
      rw [htokens, htoken, List.append_assoc]
    | ok back =>
      obtain ⟨hkept', hback⟩ := interpolate_eq_ok_iff.1 hsecond
      refine interpolate_eq_ok_iff.2 ⟨htokens ▸ List.forall_mem_append.2 ⟨hkept, hkept'⟩, ?_⟩
      change _ = resolver.fill (resolver.markers.segments (first ++ "\n" ++ second).toList)
      rw [toList_line, toList_line, h.segments_append, fill_append, fill_push, hfront, hback]
      rfl

theorem interpolate_empty : resolver.interpolate "" = .ok "" := by
  refine interpolate_eq_ok_iff.2 ?_
  rw [tokens_eq_map, String.toList_empty, Markers.segments_nil]
  exact ⟨List.forall_mem_nil _, rfl⟩

/-- The lines of a text are interpolated one after the other. -/
theorem interpolate_intercalate (h : resolver.markers.SingleLine) (lines : List String) :
    resolver.interpolate ("\n".intercalate lines) =
      (lines.mapM resolver.interpolate).map "\n".intercalate := by
  induction lines with
  | nil => exact interpolate_empty
  | cons line lines ih =>
    rw [List.mapM_cons]
    cases lines with
    | nil =>
      rw [String.intercalate_singleton]
      cases resolver.interpolate line with
      | error error => rfl
      | ok output => exact congrArg Except.ok String.intercalate_singleton.symm
    | cons next lines =>
      rw [String.intercalate_cons_cons, interpolate_line h, ih]
      cases resolver.interpolate line with
      | error error => rfl
      | ok output =>
        cases houtputs : (next :: lines).mapM resolver.interpolate with
        | error error => rfl
        | ok outputs =>
          have hne : outputs ≠ [] := by
            rintro rfl
            cases Except.mapM_eq_ok_iff_forall₂.1 houtputs
          exact congrArg Except.ok (String.intercalate_cons_of_ne_nil hne).symm

/-- A text is interpolated line by line if no marker has a line break. Two texts with a line break
between them are interpolated one after the other, and the failure is that of the first one that
fails. The tokens of the whole are those of the first text and then those of the second one. So a
text of any number of lines is interpolated by interpolating its lines. -/
theorem interpolate_lines (resolver : Resolver) (h : resolver.markers.SingleLine) :
    (∀ first second, resolver.interpolate (first ++ "\n" ++ second) = do
      let front ← resolver.interpolate first
      let back ← resolver.interpolate second
      return front ++ "\n" ++ back) ∧
    (∀ first second, resolver.tokens (first ++ "\n" ++ second) =
      resolver.tokens first ++ resolver.tokens second) ∧
    ∀ lines, resolver.interpolate ("\n".intercalate lines) =
      (lines.mapM resolver.interpolate).map "\n".intercalate :=
  ⟨interpolate_line h, tokens_line h, interpolate_intercalate h⟩

/-- A placeholder that is not closed in its line takes nothing of the next line, and the one behind
the line break is replaced. -/
theorem unclosed_line_kept : Markers.default.SingleLine ∧
    (ofBranch "main").interpolate "on $\x7bbranch\x7d, not $\x7bbranch\n\x7d but $\x7bbranch\x7d" =
      .ok "on main, not $\x7bbranch\n\x7d but main" := by
  have hfirst : (ofBranch "main").interpolate "on $\x7bbranch\x7d, not $\x7bbranch" =
      .ok "on main, not $\x7bbranch" := by decide +kernel
  have hsecond : (ofBranch "main").interpolate "\x7d but $\x7bbranch\x7d" =
      .ok "\x7d but main" := by decide +kernel
  have hlines := (interpolate_lines (ofBranch "main") Markers.singleLine_default).1
    "on $\x7bbranch\x7d, not $\x7bbranch" "\x7d but $\x7bbranch\x7d"
  refine ⟨Markers.singleLine_default, ?_⟩
  rw [hfirst, hsecond] at hlines
  exact hlines

end Resolver

end BuildPlan
