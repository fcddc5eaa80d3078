import BuildPlan.Gate.Lexeme
import BuildPlan.Proofs.Placeholder.Decomposition

/-!
# Cutting a text that has placeholders

Where a text is cut in two, the placeholders of the whole are not always those of the parts: the
cut may go through a placeholder. It is the only thing that can go wrong. If every placeholder of
the text ends before the cut or starts behind it, the segments of the text are those of the parts
put together (`Markers.segments_append`). An opening marker in front of the cut that is not closed
there does no harm, since it would otherwise be closed behind it and be a placeholder through the
cut.

The places of placeholders are counted in bytes, as those of lexemes are.
-/

set_option autoImplicit false
set_option relaxedAutoImplicit false

namespace BuildPlan

open Gate (byteLength byteLength_append)

namespace Segments

/-! ### Segments put together -/

/-- The segments with some plain text in front. -/
def lead (text : List Char) (segments : Segments) : Segments :=
  text.foldr push segments

/-- The segments of two texts put together. -/
def append (first second : Segments) : Segments :=
  { marked := first.marked ++ (second.lead first.tail).marked
    tail := (second.lead first.tail).tail }

/-- The bodies of the placeholders of some segments. -/
def bodies (segments : Segments) : List (List Char) :=
  segments.marked.map Prod.snd

variable (markers : Markers) (c : Char) (body text : List Char) (first second segments : Segments)

theorem nil_append : append ⟨[], []⟩ segments = segments :=
  rfl

theorem append_push : (first.push c).append second = (first.append second).push c := by
  obtain ⟨_ | ⟨⟨literal, body⟩, parts⟩, tail⟩ := first <;> rfl

theorem append_mark : (first.mark body).append second = (first.append second).mark body :=
  rfl

theorem bodies_push : (segments.push c).bodies = segments.bodies := by
  obtain ⟨_ | ⟨⟨literal, body⟩, parts⟩, tail⟩ := segments <;> rfl

theorem bodies_mark : (segments.mark body).bodies = body :: segments.bodies :=
  rfl

theorem bodies_lead : (segments.lead text).bodies = segments.bodies := by
  induction text with
  | nil => rfl
  | cons c text ih => exact (bodies_push c _).trans ih

theorem bodies_append : (first.append second).bodies = first.bodies ++ second.bodies := by
  rw [← bodies_lead first.tail second, bodies, append, List.map_append]
  rfl

/-! ### The places of placeholders -/

/-- A stretch of a text: the offset of its first byte, and the one behind its last byte. -/
structure Stretch where
  start : Nat
  finish : Nat
  deriving DecidableEq

/-- The places of the placeholders in a text that starts at an offset. -/
def placesFrom (offset : Nat) : List (List Char × List Char) → List Stretch
  | [] => []
  | (literal, body) :: parts =>
    let start := offset + byteLength literal
    let finish := start + byteLength (markers.written body)
    ⟨start, finish⟩ :: placesFrom finish parts

/-- The places of the placeholders of some segments that start at an offset. -/
def places (offset : Nat) (segments : Segments) : List Stretch :=
  placesFrom markers offset segments.marked

theorem places_push (offset : Nat) :
    places markers offset (segments.push c) = places markers (offset + c.utf8Size) segments := by
  obtain ⟨_ | ⟨⟨literal, body⟩, parts⟩, tail⟩ := segments
  · rfl
  · simp only [places, push, placesFrom, byteLength, Nat.add_assoc]

theorem places_mark (offset : Nat) :
    places markers offset (segments.mark body) =
      ⟨offset, offset + byteLength (markers.written body)⟩ ::
        places markers (offset + byteLength (markers.written body)) segments :=
  rfl

theorem places_lead (offset : Nat) :
    places markers offset (segments.lead text) =
      places markers (offset + byteLength text) segments := by
  induction text generalizing offset with
  | nil => rfl
  | cons c text ih =>
    rw [byteLength, ← Nat.add_assoc, ← ih]
    exact places_push markers c _ offset

/-- A text starts with the plain text in front of its first placeholder, and the placeholder. -/
theorem byteLength_join_cons (literal body tail : List Char)
    (parts : List (List Char × List Char)) :
    byteLength (join markers ⟨(literal, body) :: parts, tail⟩) =
      byteLength literal + byteLength (markers.written body) +
        byteLength (join markers ⟨parts, tail⟩) := by
  simp only [join, List.flatMap_cons, byteLength_append]
  omega

/-- The places in two texts put together are those in the first one and, further on, those in the
second one. -/
theorem places_append (offset : Nat) :
    places markers offset (first.append second) = places markers offset first ++
      places markers (offset + byteLength (first.join markers)) second := by
  obtain ⟨parts, tail⟩ := first
  induction parts generalizing offset with
  | nil => exact places_lead markers tail second offset
  | cons part parts ih =>
    obtain ⟨literal, body⟩ := part
    rw [byteLength_join_cons, ← Nat.add_assoc, ← Nat.add_assoc]
    exact congrArg (List.cons _) (ih _)

/-- A placeholder has a byte, and lies within the text. -/
theorem bounds_of_mem_places {offset : Nat} {place : Stretch}
    (h : place ∈ places markers offset segments) :
    offset ≤ place.start ∧ place.start < place.finish ∧
      place.finish ≤ offset + byteLength (segments.join markers) := by
  obtain ⟨parts, tail⟩ := segments
  induction parts generalizing offset with
  | nil => cases h
  | cons part parts ih =>
    obtain ⟨literal, body⟩ := part
    have hpos : 0 < byteLength (markers.written body) :=
      Gate.byteLength_pos (by simp [Markers.written, markers.opening_ne_nil])
    rw [byteLength_join_cons]
    rcases List.mem_cons.1 h with rfl | hrest
    · dsimp only
      omega
    · have hbounds := ih hrest
      omega

end Segments

namespace Markers

open Segments (places)

variable {markers : Markers} {body rest first second : List Char}

/-! ### Segments of the parts of a text -/

/-- A body is one in front of every text, since no closing marker reaches behind its own. -/
theorem IsBody.in_front {closing : List Char} (h : IsBody closing body rest) (other : List Char) :
    IsBody closing body other where
  single_line := h.single_line
  shortest front back hbody hback hclosing := by
    have hshort : closing <+: back ++ closing :=
      List.prefix_of_prefix_length_le hclosing (List.prefix_append _ other) (by simp)
    exact h.shortest front back hbody hback (hshort.trans (List.prefix_append _ rest))

/-- A placeholder that starts a part of a text starts in the text. -/
theorem Starts.append (h : markers.Starts first) (second : List Char) :
    markers.Starts (first ++ second) := by
  obtain ⟨body, rest, rfl, hline⟩ := h
  exact ⟨body, rest ++ second, List.append_assoc _ _ _, hline⟩

/-- No placeholder starts at a character that the opening marker does not have. -/
theorem not_starts_of_not_mem {c : Char} (h : c ∉ markers.opening) :
    ¬ markers.Starts (c :: rest) := by
  intro hstarts
  have hopens := hstarts.opening_isPrefix
  cases hopening : markers.opening with
  | nil => exact markers.opening_ne_nil hopening
  | cons d opening =>
    rw [hopening, List.cons_prefix_cons] at hopens
    rw [hopening, hopens.1] at h
    exact h List.mem_cons_self

/-- A placeholder that ends before a cut is a part of the text in front of it. -/
theorem exists_eq_written_append (htext : first ++ second = markers.written body ++ rest)
    (hends : byteLength (markers.written body) ≤ byteLength first) :
    ∃ others, first = markers.written body ++ others ∧ rest = others ++ second := by
  rcases List.append_eq_append_iff.1 htext with ⟨others, hwritten, hsecond⟩ | hfirst
  · cases others with
    | nil => exact ⟨[], by rw [hwritten, List.append_nil, List.append_nil], hsecond.symm⟩
    | cons c others =>
      have hpos : 0 < byteLength (c :: others) := Gate.byteLength_pos (List.cons_ne_nil c others)
      rw [hwritten, byteLength_append] at hends
      omega
  · exact hfirst

/-- A text of characters at which no placeholder can start is plain text in front of every other
text. -/
theorem segments_lead (h : ∀ c ∈ first, ∀ text, ¬ markers.Starts (c :: text)) :
    markers.segments (first ++ second) = (markers.segments second).lead first := by
  induction first with
  | nil => rfl
  | cons c first ih =>
    obtain ⟨hc, hrest⟩ := List.forall_mem_cons.1 h
    rw [List.cons_append, segments_cons (hc _), ih hrest]
    rfl

/-- A text is cut into the parts of its segments wherever no placeholder goes through the cut. -/
theorem segments_append (offset : Nat)
    (h : ∀ place ∈ places markers offset (markers.segments (first ++ second)),
      place.finish ≤ offset + byteLength first ∨ offset + byteLength first ≤ place.start) :
    markers.segments (first ++ second) =
      (markers.segments first).append (markers.segments second) := by
  generalize htext : first ++ second = text at h ⊢
  fun_induction Markers.segments markers text generalizing offset first with
  | case1 text body rest hfound ih =>
    obtain ⟨rfl, hbody⟩ := placeholder?_eq_some_iff.1 hfound
    rw [Segments.places_mark, List.forall_mem_cons] at h
    obtain ⟨hplace, hrest⟩ := h
    by_cases hfirst : first = []
    · rw [hfirst, List.nil_append] at htext
      rw [hfirst, htext, segments_nil, Segments.nil_append, segments_written_append hbody]
    · have hpos := Gate.byteLength_pos hfirst
      have hends : byteLength (markers.written body) ≤ byteLength first := by
        dsimp only at hplace
        omega
      -- The placeholder ends before the cut, so it is the first one of the text in front of it.
      obtain ⟨others, rfl, rfl⟩ := exists_eq_written_append htext hends
      rw [segments_written_append (hbody.in_front others), Segments.append_mark]
      refine congrArg _ (@ih _ (offset + byteLength (markers.written body)) rfl ?_)
      intro place hplace
      have hcut := hrest place hplace
      rw [byteLength_append] at hcut
      omega
  | case2 =>
    obtain ⟨rfl, rfl⟩ := List.append_eq_nil_iff.1 htext
    rw [segments_nil, Segments.nil_append]
  | case3 c rest hfound ih =>
    have hplain := placeholder?_eq_none_iff.1 hfound
    rw [Segments.places_push] at h
    cases first with
    | nil =>
      rw [List.nil_append] at htext
      rw [htext, segments_nil, Segments.nil_append, segments_cons hplain]
    | cons d first =>
      obtain ⟨rfl, rfl⟩ := List.cons.inj htext
      have hstarts : ¬ markers.Starts (d :: first) := fun hstarts ↦ hplain (hstarts.append second)
      rw [segments_cons hstarts, Segments.append_push]
      refine congrArg _ (@ih _ (offset + d.utf8Size) rfl ?_)
      intro place hplace
      have hcut := h place hplace
      rw [byteLength] at hcut
      omega

end Markers

end BuildPlan
