import BuildPlan.Placeholder.Markers

/-!
# The decomposition of a text at its placeholders

What it means to cut a text at its placeholders, said of the pieces and not of a scan
(`Markers.Decomposes`): the pieces make up the text, every body is in one line and ends at the first
closing marker after its opening one, and no placeholder starts inside of a piece of plain text.
Nothing is assumed of the markers but that they are not empty. They may overlap themselves and each
other, be equal, or hold line breaks.

Every text has exactly one such decomposition, and it is the one that `Markers.segments` finds
(`Markers.decomposes_iff`). So whatever is known about the places of placeholders can be proved by
giving the pieces, without following the scan.
-/

set_option autoImplicit false
set_option relaxedAutoImplicit false

namespace BuildPlan

namespace Markers

/-! ### Placeholders at the front of a text -/

/-- What makes a text the body of a placeholder, in front of a closing marker and another text: it
is in one line, and no closing marker starts before its end. -/
structure IsBody (closing body rest : List Char) : Prop where
  /-- The body is in one line. -/
  single_line : lineBreak ∉ body
  /-- No closing marker starts inside of the body, also none that ends behind it. -/
  shortest : ∀ front back, body = front ++ back → back ≠ [] →
    ¬ closing <+: back ++ closing ++ rest

/-- A placeholder starts at the front of a text: an opening marker, a text in one line, and a
closing marker. -/
def Starts (markers : Markers) (text : List Char) : Prop :=
  ∃ body rest, text = markers.written body ++ rest ∧ lineBreak ∉ body

theorem not_starts_nil (markers : Markers) : ¬ markers.Starts [] := by
  rintro ⟨body, rest, htext, -⟩
  simp [written, markers.opening_ne_nil] at htext

theorem isBody_nil (closing rest : List Char) : IsBody closing [] rest where
  single_line := List.not_mem_nil
  shortest _ _ hbody hback := absurd (List.append_eq_nil_iff.1 hbody.symm).2 hback

/-- A body without its first character is a body. -/
theorem IsBody.tail {closing body rest : List Char} {c : Char}
    (h : IsBody closing (c :: body) rest) : IsBody closing body rest where
  single_line hbreak := h.single_line (List.mem_cons_of_mem c hbreak)
  shortest front back hbody hback := h.shortest (c :: front) back (by rw [hbody]; rfl) hback

/-- A body is found where its text stands in front of a closing marker. -/
theorem cutBody?_of_isBody {closing body rest : List Char} (h : IsBody closing body rest) :
    cutBody? closing (body ++ closing ++ rest) = some (body, rest) := by
  induction body with
  | nil =>
    have hafter : Text.after? closing (closing ++ rest) = some rest :=
      Text.after?_eq_some_iff.2 rfl
    rw [List.nil_append]
    cases htext : closing ++ rest with
    | nil =>
      rw [htext] at hafter
      rw [cutBody?, hafter]
      rfl
    | cons c text =>
      rw [htext] at hafter
      simp only [cutBody?, hafter]
  | cons c body ih =>
    have hafter : Text.after? closing (c :: (body ++ closing ++ rest)) = none := by
      rw [Option.eq_none_iff_forall_not_mem]
      intro other hother
      refine h.shortest [] (c :: body) rfl (List.cons_ne_nil c body) ⟨other, ?_⟩
      exact (Text.after?_eq_some_iff.1 hother).symm
    have hbreak : c ≠ lineBreak := fun hc ↦ h.single_line (hc ▸ List.mem_cons_self)
    simp only [List.cons_append, cutBody?, hafter, if_neg hbreak, ih h.tail, Option.map_some]

/-- What is cut at the first closing marker of a line is a body. -/
theorem isBody_of_cutBody? {closing text body rest : List Char}
    (h : cutBody? closing text = some (body, rest)) : IsBody closing body rest := by
  induction text generalizing body with
  | nil =>
    obtain ⟨other, -, hparts⟩ := Option.map_eq_some_iff.1 h
    obtain ⟨rfl, -⟩ := Prod.mk.inj hparts
    exact isBody_nil closing rest
  | cons c text ih =>
    rw [cutBody?] at h
    split at h
    next other hafter =>
      obtain ⟨rfl, -⟩ := Prod.mk.inj (Option.some.inj h)
      exact isBody_nil closing rest
    next hafter =>
      split at h
      next => cases h
      next hbreak =>
        obtain ⟨parts, hparts, hpair⟩ := Option.map_eq_some_iff.1 h
        obtain ⟨rfl, rfl⟩ := Prod.mk.inj hpair
        have hinner : IsBody closing parts.1 parts.2 := ih hparts
        have htext : text = parts.1 ++ closing ++ parts.2 := eq_of_cutBody? hparts
        refine ⟨?_, ?_⟩
        · rw [List.mem_cons, not_or]
          exact ⟨fun hc ↦ hbreak hc.symm, hinner.single_line⟩
        · intro front back hbody hback hclosing
          cases front with
          | nil =>
            obtain ⟨other, hother⟩ := hclosing
            rw [← List.nil_append back, ← hbody, List.cons_append, List.cons_append,
              ← htext] at hother
            have hsome := Text.after?_eq_some_iff.2 hother.symm
            rw [hafter] at hsome
            cases hsome
          | cons d front =>
            exact hinner.shortest front back (List.cons.inj hbody).2 hback hclosing

/-- No body is found only if no closing marker follows in the line. -/
theorem not_exists_of_cutBody? {closing text : List Char} (h : cutBody? closing text = none) :
    ¬ ∃ body rest, text = body ++ closing ++ rest ∧ lineBreak ∉ body := by
  have hnone {text : List Char} (hafter : Text.after? closing text = none) (rest : List Char) :
      text ≠ closing ++ rest := by
    intro htext
    rw [Text.after?_eq_some_iff.2 htext] at hafter
    cases hafter
  induction text with
  | nil =>
    rintro ⟨body, rest, htext, -⟩
    obtain ⟨hfirst, rfl⟩ := List.append_eq_nil_iff.1 htext.symm
    obtain ⟨rfl, rfl⟩ := List.append_eq_nil_iff.1 hfirst
    exact hnone (Option.map_eq_none_iff.1 h) [] rfl
  | cons c text ih =>
    rintro ⟨body, rest, htext, hline⟩
    rw [cutBody?] at h
    split at h
    next => cases h
    next hafter =>
      cases body with
      | nil => exact hnone hafter rest htext
      | cons d body =>
        obtain ⟨rfl, hrest⟩ := List.cons.inj htext
        rw [List.mem_cons, not_or] at hline
        rw [if_neg fun hc ↦ hline.1 hc.symm, Option.map_eq_none_iff] at h
        exact ih h ⟨body, rest, hrest, hline.2⟩

/-- What stands behind the opening marker of a placeholder. -/
theorem after?_opening_written (markers : Markers) (body rest : List Char) :
    Text.after? markers.opening (markers.written body ++ rest) =
      some (body ++ markers.closing ++ rest) := by
  rw [Text.after?_eq_some_iff, written]
  simp only [List.append_assoc]

variable {markers : Markers} {text body rest : List Char}

/-- A placeholder is found at the front of a text if its body ends at the first closing marker. -/
theorem placeholder?_eq_some_iff : markers.placeholder? text = some (body, rest) ↔
    text = markers.written body ++ rest ∧ IsBody markers.closing body rest := by
  constructor
  · intro h
    obtain ⟨opened, -, hbody⟩ := Option.bind_eq_some_iff.1 h
    exact ⟨eq_of_placeholder? h, isBody_of_cutBody? hbody⟩
  · rintro ⟨rfl, hbody⟩
    rw [placeholder?, after?_opening_written, Option.bind_some, cutBody?_of_isBody hbody]

/-- No placeholder is found at the front of a text if none starts there. -/
theorem placeholder?_eq_none_iff : markers.placeholder? text = none ↔ ¬ markers.Starts text := by
  constructor
  · rintro h ⟨body, rest, rfl, hline⟩
    rw [placeholder?, after?_opening_written, Option.bind_some] at h
    exact not_exists_of_cutBody? h ⟨body, rest, rfl, hline⟩
  · intro h
    cases hfound : markers.placeholder? text with
    | none => rfl
    | some parts =>
      obtain ⟨htext, hbody⟩ := placeholder?_eq_some_iff.1 hfound
      exact absurd ⟨parts.1, parts.2, htext, hbody.single_line⟩ h

/-! ### Decompositions -/

/-- No placeholder starts inside of a text that is followed by another one. -/
def Plain (markers : Markers) (text following : List Char) : Prop :=
  ∀ front back, text = front ++ back → back ≠ [] → ¬ markers.Starts (back ++ following)

/-- Segments are the decomposition of a text at its placeholders. -/
structure Decomposes (markers : Markers) (text : List Char) (segments : Segments) : Prop where
  /-- The pieces make up the text. -/
  join_eq : segments.join markers = text
  /-- Every body is in one line and ends at the first closing marker. -/
  isBody : ∀ before literal body after, segments.marked = before ++ (literal, body) :: after →
    IsBody markers.closing body (Segments.join markers ⟨after, segments.tail⟩)
  /-- No placeholder starts in the plain text in front of another one. -/
  plain : ∀ before literal body after, segments.marked = before ++ (literal, body) :: after →
    markers.Plain literal
      (markers.written body ++ Segments.join markers ⟨after, segments.tail⟩)
  /-- No placeholder starts in the plain text after the last one. -/
  plain_tail : markers.Plain segments.tail []

variable {literal tail : List Char} {parts : List (List Char × List Char)} {segments : Segments}

/-- A text without placeholders is one piece. -/
theorem decomposes_nil_iff :
    markers.Decomposes text ⟨[], tail⟩ ↔ tail = text ∧ markers.Plain tail [] := by
  constructor
  · intro h
    exact ⟨h.join_eq, h.plain_tail⟩
  · rintro ⟨rfl, hplain⟩
    have hnone {before after : List (List Char × List Char)} {literal body : List Char}
        (h : [] = before ++ (literal, body) :: after) : False := by
      simp at h
    exact ⟨rfl, fun _ _ _ _ h ↦ (hnone h).elim, fun _ _ _ _ h ↦ (hnone h).elim, hplain⟩

/-- A text is decomposed at its first placeholder and in the text behind it. -/
theorem decomposes_cons_iff :
    markers.Decomposes text ⟨(literal, body) :: parts, tail⟩ ↔
      ∃ remaining, text = literal ++ (markers.written body ++ remaining) ∧
        IsBody markers.closing body remaining ∧
        markers.Plain literal (markers.written body ++ remaining) ∧
        markers.Decomposes remaining ⟨parts, tail⟩ := by
  have hjoin : Segments.join markers ⟨(literal, body) :: parts, tail⟩ =
      literal ++ (markers.written body ++ Segments.join markers ⟨parts, tail⟩) := by
    simp [Segments.join]
  constructor
  · intro h
    refine ⟨Segments.join markers ⟨parts, tail⟩, ?_, h.isBody [] literal body parts rfl,
      h.plain [] literal body parts rfl, rfl, ?_, ?_, h.plain_tail⟩
    · rw [← hjoin]
      exact h.join_eq.symm
    · intro before other inner after hparts
      exact h.isBody ((literal, body) :: before) other inner after (congrArg (List.cons _) hparts)
    · intro before other inner after hparts
      exact h.plain ((literal, body) :: before) other inner after (congrArg (List.cons _) hparts)
  · rintro ⟨remaining, rfl, hbody, hplain, hrest⟩
    obtain rfl := hrest.join_eq
    refine ⟨hjoin, ?_, ?_, hrest.plain_tail⟩
    · intro before other inner after hparts
      cases before with
      | nil =>
        obtain ⟨hpair, rfl⟩ := List.cons.inj hparts
        obtain ⟨rfl, rfl⟩ := Prod.mk.inj hpair
        exact hbody
      | cons first before =>
        exact hrest.isBody before other inner after (List.cons.inj hparts).2
    · intro before other inner after hparts
      cases before with
      | nil =>
        obtain ⟨hpair, rfl⟩ := List.cons.inj hparts
        obtain ⟨rfl, rfl⟩ := Prod.mk.inj hpair
        exact hplain
      | cons first before =>
        exact hrest.plain before other inner after (List.cons.inj hparts).2

/-! ### The scan finds the decomposition -/

/-- One more character of plain text, at which no placeholder starts. -/
theorem plain_cons_iff {c : Char} {following : List Char} :
    markers.Plain (c :: text) following ↔
      ¬ markers.Starts (c :: text ++ following) ∧ markers.Plain text following := by
  constructor
  · intro h
    refine ⟨h [] (c :: text) rfl (List.cons_ne_nil c text), fun front back htext hback ↦ ?_⟩
    exact h (c :: front) back (by rw [htext]; rfl) hback
  · rintro ⟨hstarts, hplain⟩ front back htext hback
    cases front with
    | nil =>
      obtain rfl : c :: text = back := htext
      exact hstarts
    | cons d front => exact hplain front back (List.cons.inj htext).2 hback

theorem plain_nil (following : List Char) : markers.Plain [] following :=
  fun _ _ htext hback ↦ absurd (List.append_eq_nil_iff.1 htext.symm).2 hback

/-- A placeholder starts with an opening marker. -/
theorem Starts.opening_isPrefix (h : markers.Starts text) : markers.opening <+: text := by
  obtain ⟨body, rest, rfl, -⟩ := h
  exact ⟨body ++ markers.closing ++ rest, by simp only [written, List.append_assoc]⟩

/-- A text is plain if no opening marker occurs in it, also none that ends behind it. -/
theorem plain_of_not_isInfix {following : List Char}
    (h : ¬ markers.opening <:+: text ++ following) : markers.Plain text following := by
  intro front back htext _ hstarts
  have hsuffix : back ++ following <:+ text ++ following :=
    ⟨front, by rw [htext, List.append_assoc]⟩
  exact h (hstarts.opening_isPrefix.isInfix.trans hsuffix.isInfix)

/-- A decomposition of a text at whose front no placeholder starts begins with plain text. -/
theorem decomposes_push_iff {c : Char} (hstarts : ¬ markers.Starts (c :: text)) :
    markers.Decomposes (c :: text) (segments.push c) ↔ markers.Decomposes text segments := by
  obtain ⟨_ | ⟨⟨literal, body⟩, parts⟩, tail⟩ := segments
  · rw [Segments.push, decomposes_nil_iff, decomposes_nil_iff, plain_cons_iff]
    constructor
    · rintro ⟨htext, -, hplain⟩
      exact ⟨(List.cons.inj htext).2, hplain⟩
    · rintro ⟨rfl, hplain⟩
      exact ⟨rfl, by rwa [List.append_nil], hplain⟩
  · rw [Segments.push, decomposes_cons_iff, decomposes_cons_iff]
    refine exists_congr fun remaining ↦ ?_
    rw [List.cons_append, List.cons_inj_right, plain_cons_iff]
    constructor
    · rintro ⟨htext, hbody, ⟨-, hplain⟩, hrest⟩
      exact ⟨htext, hbody, hplain, hrest⟩
    · rintro ⟨rfl, hbody, hplain, hrest⟩
      exact ⟨rfl, hbody, ⟨hstarts, hplain⟩, hrest⟩

/-- A placeholder at the front of a text is the first one of its decomposition. -/
theorem decomposes_mark_iff (hbody : IsBody markers.closing body rest) :
    markers.Decomposes (markers.written body ++ rest) (segments.mark body) ↔
      markers.Decomposes rest segments := by
  rw [Segments.mark, decomposes_cons_iff]
  constructor
  · rintro ⟨remaining, htext, -, -, hrest⟩
    rwa [List.append_cancel_left htext]
  · intro hrest
    exact ⟨rest, rfl, hbody, plain_nil _, hrest⟩

/-- The first piece of plain text is empty if a placeholder starts at the front of the text. -/
theorem Decomposes.exists_eq_mark (h : markers.Decomposes text segments)
    (hstarts : markers.Starts text) : ∃ body rest others,
      text = markers.written body ++ rest ∧ IsBody markers.closing body rest ∧
        segments = Segments.mark body others ∧ markers.Decomposes rest others := by
  obtain ⟨_ | ⟨⟨_ | ⟨c, literal⟩, body⟩, parts⟩, tail⟩ := segments
  · obtain ⟨rfl, hplain⟩ := decomposes_nil_iff.1 h
    cases tail with
    | nil => exact absurd hstarts markers.not_starts_nil
    | cons c tail =>
      rw [plain_cons_iff, List.append_nil] at hplain
      exact absurd hstarts hplain.1
  · obtain ⟨remaining, htext, hbody, -, hrest⟩ := decomposes_cons_iff.1 h
    exact ⟨body, remaining, ⟨parts, tail⟩, htext, hbody, rfl, hrest⟩
  · obtain ⟨remaining, rfl, -, hplain, -⟩ := decomposes_cons_iff.1 h
    exact absurd hstarts (plain_cons_iff.1 hplain).1

/-- The first piece of plain text is not empty if no placeholder starts at the front of a text. -/
theorem Decomposes.exists_eq_push {c : Char} (h : markers.Decomposes (c :: text) segments)
    (hstarts : ¬ markers.Starts (c :: text)) : ∃ others,
      segments = Segments.push c others ∧ markers.Decomposes text others := by
  have hpush (others : Segments) (hsegments : segments = others.push c) :
      ∃ others, segments = Segments.push c others ∧ markers.Decomposes text others :=
    ⟨others, hsegments, (decomposes_push_iff hstarts).1 (hsegments ▸ h)⟩
  obtain ⟨_ | ⟨⟨_ | ⟨d, literal⟩, body⟩, parts⟩, tail⟩ := segments
  · obtain ⟨rfl, -⟩ := decomposes_nil_iff.1 h
    exact hpush ⟨[], text⟩ rfl
  · obtain ⟨remaining, htext, hbody, -, -⟩ := decomposes_cons_iff.1 h
    exact absurd ⟨body, remaining, htext, hbody.single_line⟩ hstarts
  · obtain ⟨remaining, htext, -, -, -⟩ := decomposes_cons_iff.1 h
    obtain ⟨rfl, -⟩ := List.cons.inj htext
    exact hpush ⟨(literal, body) :: parts, tail⟩ rfl

/-- Every text has exactly one decomposition at its placeholders, the one that is found by scanning
it from left to right. -/
theorem decomposes_iff : markers.Decomposes text segments ↔ segments = markers.segments text := by
  fun_induction Markers.segments markers text generalizing segments with
  | case1 text body rest hfound ih =>
    obtain ⟨rfl, hbody⟩ := placeholder?_eq_some_iff.1 hfound
    constructor
    · intro h
      obtain ⟨other, remaining, others, htext, hother, rfl, hrest⟩ :=
        h.exists_eq_mark ⟨body, rest, rfl, hbody.single_line⟩
      have hsame := placeholder?_eq_some_iff.2 ⟨htext, hother⟩
      obtain ⟨rfl, rfl⟩ := Prod.mk.inj (Option.some.inj (hfound.symm.trans hsame))
      rw [ih.1 hrest]
    · rintro rfl
      exact (decomposes_mark_iff hbody).2 (ih.2 rfl)
  | case2 hfound =>
    obtain ⟨parts, tail⟩ := segments
    constructor
    · intro h
      cases parts with
      | nil =>
        obtain ⟨rfl, -⟩ := decomposes_nil_iff.1 h
        rfl
      | cons part parts =>
        obtain ⟨remaining, htext, -, -, -⟩ := decomposes_cons_iff.1 h
        simp [written, markers.opening_ne_nil] at htext
    · intro h
      obtain ⟨rfl, rfl⟩ := Segments.mk.inj h
      exact decomposes_nil_iff.2 ⟨rfl, plain_nil []⟩
  | case3 c rest hfound ih =>
    have hstarts := placeholder?_eq_none_iff.1 hfound
    constructor
    · intro h
      obtain ⟨others, rfl, hrest⟩ := h.exists_eq_push hstarts
      rw [ih.1 hrest]
    · rintro rfl
      exact (decomposes_push_iff hstarts).2 (ih.2 rfl)

/-! ### Finding segments -/

theorem segments_nil (markers : Markers) : markers.segments [] = ⟨[], []⟩ :=
  (decomposes_iff.1 (decomposes_nil_iff.2 ⟨rfl, plain_nil []⟩)).symm

/-- A character at which no placeholder starts is plain text. -/
theorem segments_cons {c : Char} (h : ¬ markers.Starts (c :: text)) :
    markers.segments (c :: text) = (markers.segments text).push c :=
  (decomposes_iff.1 ((decomposes_push_iff h).2 (decomposes_iff.2 rfl))).symm

/-- A placeholder at the front of a text is its first one. -/
theorem segments_written_append (h : IsBody markers.closing body rest) :
    markers.segments (markers.written body ++ rest) = (markers.segments rest).mark body :=
  (decomposes_iff.1 ((decomposes_mark_iff h).2 (decomposes_iff.2 rfl))).symm

/-- A text in which the opening marker does not occur is plain. -/
theorem segments_of_not_isInfix (h : ¬ markers.opening <:+: text) :
    markers.segments text = ⟨[], text⟩ := by
  refine (decomposes_iff.1 (decomposes_nil_iff.2 ⟨rfl, plain_of_not_isInfix ?_⟩)).symm
  rwa [List.append_nil]

end Markers

end BuildPlan
