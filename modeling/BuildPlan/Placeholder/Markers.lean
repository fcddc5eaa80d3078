import BuildPlan.Placeholder.Token

/-!
# Finding placeholders

A placeholder is an opening marker, a body without line breaks, and a closing marker. `segments`
finds the placeholders of a text from left to right: each starts at the first place where an
opening marker is followed by a closing one on the way to the next line break, and its body ends
at the first closing marker. An opening marker that is never closed is plain text, and so is every
closing marker outside of a placeholder. The markers themselves may hold any characters.

`Segments.join_segments` says that the text between the placeholders and the placeholders
themselves make up the text again.
-/

set_option autoImplicit false
set_option relaxedAutoImplicit false

namespace BuildPlan

/-- The texts that stand around the body of a placeholder. -/
structure Markers where
  /-- The marker in front. -/
  opening : List Char
  /-- The marker at the end. -/
  closing : List Char
  /-- The marker in front is not empty. -/
  opening_ne_nil : opening ≠ []
  /-- The marker at the end is not empty. -/
  closing_ne_nil : closing ≠ []

/-- A text cut at its placeholders. -/
structure Segments where
  /-- The plain text in front of each placeholder, and the body of the placeholder. -/
  marked : List (List Char × List Char)
  /-- The plain text after the last placeholder. -/
  tail : List Char
  deriving DecidableEq

namespace Segments

/-- The segments with one more character of plain text in front. -/
def push (c : Char) (segments : Segments) : Segments :=
  match segments.marked with
  | [] => { segments with tail := c :: segments.tail }
  | (literal, body) :: rest => { segments with marked := (c :: literal, body) :: rest }

/-- The segments with one more placeholder in front. -/
def mark (body : List Char) (segments : Segments) : Segments :=
  { segments with marked := ([], body) :: segments.marked }

end Segments

namespace Markers

/-- The markers of placeholders that have none of their own. -/
def default : Markers where
  opening := ['$', '\x7b']
  closing := ['\x7d']
  opening_ne_nil := by simp
  closing_ne_nil := by simp

instance : Inhabited Markers := ⟨default⟩

/-- The character that no body contains. -/
def lineBreak : Char := '\n'

/-- Cuts a text at the first closing marker, if there is one before the next line break. -/
def cutBody? (closing : List Char) : List Char → Option (List Char × List Char)
  | [] => (Text.after? closing []).map fun rest ↦ ([], rest)
  | c :: text =>
    match Text.after? closing (c :: text) with
    | some rest => some ([], rest)
    | none =>
      if c = lineBreak then none
      else (cutBody? closing text).map fun parts ↦ (c :: parts.1, parts.2)

/-- The body of a placeholder at the front of a text, and the text after it. -/
def placeholder? (markers : Markers) (text : List Char) : Option (List Char × List Char) :=
  (Text.after? markers.opening text).bind (cutBody? markers.closing)

/-- A placeholder as it is written. -/
def written (markers : Markers) (body : List Char) : List Char :=
  markers.opening ++ body ++ markers.closing

theorem eq_of_cutBody? {closing text body rest : List Char}
    (h : cutBody? closing text = some (body, rest)) : text = body ++ closing ++ rest := by
  induction text generalizing body with
  | nil =>
    simp only [cutBody?, Option.map_eq_some_iff, Prod.mk.injEq] at h
    obtain ⟨_, hrest, rfl, rfl⟩ := h
    simpa using Text.after?_eq_some_iff.1 hrest
  | cons c text ih =>
    simp only [cutBody?] at h
    split at h
    next hrest =>
      simp only [Option.some.injEq, Prod.mk.injEq] at h
      obtain ⟨rfl, rfl⟩ := h
      simpa using Text.after?_eq_some_iff.1 hrest
    next =>
      split at h
      · contradiction
      · simp only [Option.map_eq_some_iff, Prod.mk.injEq] at h
        obtain ⟨parts, hparts, rfl, rfl⟩ := h
        simp [ih hparts]

/-- A placeholder and the text after it make up the text. -/
theorem eq_of_placeholder? {markers : Markers} {text body rest : List Char}
    (h : markers.placeholder? text = some (body, rest)) :
    text = markers.written body ++ rest := by
  obtain ⟨opened, hopened, hbody⟩ := Option.bind_eq_some_iff.1 h
  rw [Text.after?_eq_some_iff.1 hopened, eq_of_cutBody? hbody]
  simp [written]

theorem length_lt_of_placeholder? {markers : Markers} {text body rest : List Char}
    (h : markers.placeholder? text = some (body, rest)) : rest.length < text.length := by
  have := List.length_pos_iff.2 markers.opening_ne_nil
  simp only [eq_of_placeholder? h, written, List.length_append]
  omega

/-- Cuts a text at its placeholders. -/
def segments (markers : Markers) (text : List Char) : Segments :=
  match _ : markers.placeholder? text with
  | some (body, rest) => (segments markers rest).mark body
  | none =>
    match text with
    | [] => { marked := [], tail := [] }
    | c :: rest => (segments markers rest).push c
termination_by text.length
decreasing_by
  · exact length_lt_of_placeholder? ‹_›
  · simp

end Markers

namespace Segments

/-- The text that was cut. -/
def join (markers : Markers) (segments : Segments) : List Char :=
  segments.marked.flatMap (fun part ↦ part.1 ++ markers.written part.2) ++ segments.tail

theorem join_push (markers : Markers) (c : Char) (segments : Segments) :
    (segments.push c).join markers = c :: segments.join markers := by
  obtain ⟨_ | ⟨⟨literal, body⟩, rest⟩, tail⟩ := segments <;> simp [push, join]

theorem join_mark (markers : Markers) (body : List Char) (segments : Segments) :
    (segments.mark body).join markers = markers.written body ++ segments.join markers := by
  simp [mark, join]

/-- Cutting a text at its placeholders loses nothing. -/
theorem join_segments (markers : Markers) (text : List Char) :
    (markers.segments text).join markers = text := by
  fun_induction Markers.segments markers text with
  | case1 text body rest h ih => rw [join_mark, ih, ← Markers.eq_of_placeholder? h]
  | case2 => rfl
  | case3 c rest _ ih => rw [join_push, ih]

end Segments

namespace Markers

/-- The tokens of a text, from left to right. -/
def tokens (markers : Markers) (text : String) : List Token :=
  (markers.segments text.toList).marked.map fun part ↦
    .ofBody (.ofList (markers.written part.2)) part.2

end Markers

end BuildPlan
