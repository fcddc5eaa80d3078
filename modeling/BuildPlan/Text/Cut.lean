/-!
# Cutting texts

Cutting a text at a character, at all occurrences of a character, or where another text begins.
All work on lists of characters. The main statements say that nothing is lost: the pieces, put
together again with the character between them, are the text that was cut.
-/

set_option autoImplicit false
set_option relaxedAutoImplicit false

namespace BuildPlan.Text

/-- Cuts a text at the first occurrence of a character, which is left out of both parts. -/
def cutAt? (mark : Char) : List Char → Option (List Char × List Char)
  | [] => none
  | c :: rest =>
    if c = mark then some ([], rest)
    else (cutAt? mark rest).map fun parts ↦ (c :: parts.1, parts.2)

/-- Cuts a text at all occurrences of a character, giving the first piece and the others. -/
def pieces (mark : Char) : List Char → List Char × List (List Char)
  | [] => ([], [])
  | c :: rest =>
    let tail := pieces mark rest
    if c = mark then ([], tail.1 :: tail.2) else (c :: tail.1, tail.2)

/-- All ways to cut a text in two at one occurrence of a character, the last one first. -/
def cuts (mark : Char) : List Char → List (List Char × List Char)
  | [] => []
  | c :: rest =>
    (cuts mark rest).map (fun parts ↦ (c :: parts.1, parts.2)) ++
      if c = mark then [([], rest)] else []

/-- The text behind another text that it begins with. -/
def after? : (first text : List Char) → Option (List Char)
  | [], text => some text
  | _ :: _, [] => none
  | mark :: first, c :: rest => if c = mark then after? first rest else none

/-- The parts of a cut make up the text again. -/
theorem eq_of_cutAt? {mark : Char} {text first second : List Char}
    (h : cutAt? mark text = some (first, second)) : text = first ++ mark :: second := by
  induction text generalizing first with
  | nil => simp [cutAt?] at h
  | cons c rest ih =>
    by_cases hc : c = mark
    · simp_all [cutAt?]
    · simp only [cutAt?, if_neg hc, Option.map_eq_some_iff, Prod.mk.injEq] at h
      obtain ⟨parts, hparts, rfl, rfl⟩ := h
      simp [← ih hparts]

/-- A text is not cut exactly if it does not have the character. -/
theorem cutAt?_eq_none_iff {mark : Char} {text : List Char} :
    cutAt? mark text = none ↔ mark ∉ text := by
  induction text with
  | nil => simp [cutAt?]
  | cons c rest ih =>
    rw [cutAt?, List.mem_cons, not_or]
    by_cases hc : c = mark
    · simp [hc]
    · rw [if_neg hc, Option.map_eq_none_iff, ih]
      exact ⟨fun h ↦ ⟨Ne.symm hc, h⟩, And.right⟩

/-- A text is cut at the first occurrence of a character. -/
theorem cutAt?_eq_some_iff {mark : Char} {text first second : List Char} :
    cutAt? mark text = some (first, second) ↔
      text = first ++ mark :: second ∧ mark ∉ first := by
  constructor
  · intro h
    refine ⟨eq_of_cutAt? h, ?_⟩
    induction text generalizing first with
    | nil => cases h
    | cons c rest ih =>
      rw [cutAt?] at h
      split at h
      next =>
        obtain ⟨rfl, -⟩ := Prod.mk.inj (Option.some.inj h)
        exact List.not_mem_nil
      next hc =>
        obtain ⟨⟨front, back⟩, hparts, heq⟩ := Option.map_eq_some_iff.1 h
        obtain ⟨rfl, rfl⟩ := Prod.mk.inj heq
        exact List.not_mem_cons_of_ne_of_not_mem (Ne.symm hc) (ih hparts)
  · rintro ⟨rfl, hfree⟩
    induction first with
    | nil => simp [cutAt?]
    | cons c first ih =>
      rw [List.mem_cons, not_or] at hfree
      rw [List.cons_append, cutAt?, if_neg (Ne.symm hfree.1), ih hfree.2]
      rfl

/-- The cuts of a text are the ways to write it around the character. -/
theorem mem_cuts_iff {mark : Char} {text first second : List Char} :
    (first, second) ∈ cuts mark text ↔ text = first ++ mark :: second := by
  induction text generalizing first with
  | nil => simp [cuts]
  | cons c rest ih =>
    cases first with
    | nil => by_cases hc : c = mark <;> simp [cuts, hc, eq_comm (a := rest)]
    | cons d first =>
      by_cases hc : c = mark <;> by_cases hd : c = d <;>
        simp_all [cuts, eq_comm]

/-- A text begins with another one exactly if it can be written as that text and the rest. -/
theorem after?_eq_some_iff {first text rest : List Char} :
    after? first text = some rest ↔ text = first ++ rest := by
  induction first generalizing text with
  | nil => simp [after?]
  | cons mark first ih =>
    cases text with
    | nil => simp [after?]
    | cons c text => by_cases hc : c = mark <;> simp [after?, hc, ih]

/-- The second part of a cut is shorter than the text. -/
theorem length_lt_of_mem_cuts {mark : Char} {text : List Char} {parts : List Char × List Char}
    (h : parts ∈ cuts mark text) : parts.2.length < text.length := by
  have := mem_cuts_iff.1 (show (parts.1, parts.2) ∈ cuts mark text from h)
  rw [this]
  simp
  omega

end BuildPlan.Text
