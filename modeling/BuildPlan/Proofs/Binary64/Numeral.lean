import Mathlib.Data.List.TakeWhile
import BuildPlan.Binary64.Decimal

/-!
# Numerals

A numeral is an optional minus sign, a digit, and digits with at most one point among them
(`IsNumeral`). Of all texts that start with a digit behind an optional minus sign, and go on with
digits and points, these are the ones that have a value (`Binary64.exists_ofText?_iff`), and that
value is a number (`Binary64.ne_nan_of_isNumeral`). Other decimal numbers have a plus sign, no digit
in front of the point, or an exponent (`Decimal.exists_mantissa_of_ofChars?`).
-/

set_option autoImplicit false
set_option relaxedAutoImplicit false

namespace BuildPlan

/-- A numeral: an optional minus sign, a digit, and digits with at most one point among them. -/
inductive IsNumeral : List Char → Prop
  | intro {sign rest : List Char} {c : Char} (hsign : sign = [] ∨ sign = ['-'])
    (hc : c.isDigit = true) (hrest : ∀ other ∈ rest, other.isDigit = true ∨ other = '.')
    (hpoint : rest.count '.' ≤ 1) : IsNumeral (sign ++ c :: rest)

variable {sign digits after rest : List Char} {c : Char}

/-- A numeral has no other characters than digits, points and minus signs. -/
theorem IsNumeral.digit_or_mark {text : List Char} (h : IsNumeral text) :
    ∀ other ∈ text, other.isDigit = true ∨ other = '.' ∨ other = '-' := by
  cases h with
  | @intro sign rest c hsign hc hrest =>
    intro other hother
    rcases List.mem_append.1 hother with hmem | hmem
    · rcases hsign with rfl | rfl
      · exact absurd hmem List.not_mem_nil
      · exact .inr (.inr (List.mem_singleton.1 hmem))
    · rcases List.mem_cons.1 hmem with rfl | hmem
      · exact .inl hc
      · exact (hrest other hmem).imp_right .inl

namespace Decimal

/-- A minus sign or nothing is cut off in front of a digit. -/
theorem exists_cutSign_append (hsign : sign = [] ∨ sign = ['-']) (hc : c.isDigit = true)
    (rest : List Char) : ∃ negative, cutSign (sign ++ c :: rest) = (negative, c :: rest) := by
  rcases hsign with rfl | rfl
  · refine ⟨false, ?_⟩
    unfold cutSign
    split
    next h => exact absurd ((List.cons.inj h).1 ▸ hc) (by decide)
    next h => exact absurd ((List.cons.inj h).1 ▸ hc) (by decide)
    next => rfl
  · exact ⟨true, rfl⟩

theorem cutDigits_eq (hdigits : ∀ other ∈ digits, other.isDigit = true) :
    cutDigits digits = (digits, []) := by
  rw [cutDigits, List.takeWhile_eq_self_iff.2 hdigits, List.dropWhile_eq_nil_iff.2 hdigits]

/-- Digits are cut off in front of a point. -/
theorem cutDigits_append_point (hdigits : ∀ other ∈ digits, other.isDigit = true) :
    cutDigits (digits ++ '.' :: after) = (digits, '.' :: after) := by
  rw [cutDigits, List.takeWhile_append_of_pos hdigits, List.dropWhile_append_of_pos hdigits]
  simp

/-- Digits and points are digits up to the first point, if there is one. -/
theorem digits_or_point (hrest : ∀ other ∈ rest, other.isDigit = true ∨ other = '.') :
    (∀ other ∈ rest, other.isDigit = true) ∧ rest.count '.' = 0 ∨
      ∃ digits after, rest = digits ++ '.' :: after ∧ rest.count '.' = after.count '.' + 1 ∧
        (∀ other ∈ digits, other.isDigit = true) ∧
          ∀ other ∈ after, other.isDigit = true ∨ other = '.' := by
  by_cases hpoint : '.' ∈ rest
  · obtain ⟨digits, after, rfl, hdigits⟩ := List.eq_append_cons_of_mem hpoint
    refine .inr ⟨digits, after, rfl, ?_, fun other hother ↦ ?_, fun other hother ↦ ?_⟩
    · simp [List.count_append, List.count_eq_zero_of_not_mem hdigits]
    · rcases hrest other (List.mem_append_left _ hother) with hdigit | rfl
      · exact hdigit
      · exact absurd hother hdigits
    · exact hrest other (List.mem_append_right _ (List.mem_cons_of_mem _ hother))
  · refine .inl ⟨fun other hother ↦ ?_, List.count_eq_zero_of_not_mem hpoint⟩
    rcases hrest other hother with hdigit | rfl
    · exact hdigit
    · exact absurd hother hpoint

/-- Digits and points that start with a digit are a decimal number if there is at most one point
among them. -/
theorem isSome_ofChars?_iff (hsign : sign = [] ∨ sign = ['-']) (hc : c.isDigit = true)
    (hrest : ∀ other ∈ rest, other.isDigit = true ∨ other = '.') :
    (ofChars? (sign ++ c :: rest)).isSome ↔ rest.count '.' ≤ 1 := by
  obtain ⟨negative, hcut⟩ := exists_cutSign_append hsign hc rest
  unfold ofChars?
  rw [hcut]
  dsimp only
  -- The first point ends the whole part. A second one ends the fraction, and starts no exponent.
  rcases digits_or_point hrest with
    ⟨hdigits, hcount⟩ | ⟨digits, after, rfl, hcount, hdigits, hafter⟩
  · have hwhole : cutDigits (c :: rest) = (c :: rest, []) :=
      cutDigits_eq (List.forall_mem_cons.2 ⟨hc, hdigits⟩)
    rw [hwhole, hcount]
    simp [cutFraction, exponentPart?]
  · have hwhole : cutDigits (c :: (digits ++ '.' :: after)) = (c :: digits, '.' :: after) :=
      cutDigits_append_point (List.forall_mem_cons.2 ⟨hc, hdigits⟩)
    rw [hwhole, hcount]
    rcases digits_or_point hafter with
      ⟨hfraction, hzero⟩ | ⟨fraction, more, rfl, hmore, hfraction, -⟩
    · rw [hzero]
      simp [cutFraction, exponentPart?, cutDigits_eq hfraction]
    · rw [hmore]
      simp [cutFraction, exponentPart?, cutDigits_append_point hfraction]

/-- Every numeral is a decimal number. -/
theorem exists_ofChars?_of_isNumeral {text : List Char} (h : IsNumeral text) :
    ∃ decimal, ofChars? text = some decimal := by
  cases h with
  | intro hsign hc hrest hpoint =>
    exact Option.isSome_iff_exists.1 ((isSome_ofChars?_iff hsign hc hrest).2 hpoint)

/-- A sign or nothing is cut off a text. -/
theorem exists_eq_append_of_cutSign (text : List Char) :
    ∃ sign, text = sign ++ (cutSign text).2 ∧ (sign = [] ∨ sign = ['-'] ∨ sign = ['+']) := by
  unfold cutSign
  split
  · exact ⟨['-'], rfl, .inr (.inl rfl)⟩
  · exact ⟨['+'], rfl, .inr (.inr rfl)⟩
  · exact ⟨[], rfl, .inl rfl⟩

/-- What is cut off as a fraction is a point and digits, or nothing. -/
theorem exists_eq_append_of_cutFraction (text : List Char) :
    ∃ fraction, text = fraction ++ (cutFraction text).2 ∧
      ((cutFraction text).1 ≠ [] → fraction ≠ []) ∧
      ∀ c ∈ fraction, c.isDigit = true ∨ c = '.' := by
  unfold cutFraction
  split
  next rest =>
    refine ⟨'.' :: rest.takeWhile Char.isDigit, ?_, fun _ ↦ List.cons_ne_nil _ _, ?_⟩
    · rw [cutDigits, List.cons_append, List.takeWhile_append_dropWhile]
    · exact List.forall_mem_cons.2
        ⟨.inr rfl, fun c hc ↦ .inl (List.all_eq_true.1 List.all_takeWhile c hc)⟩
  next => exact ⟨[], rfl, fun h ↦ absurd rfl h, fun _ h ↦ absurd h List.not_mem_nil⟩

theorem head?_of_exponentPart? {text : List Char} {exponent : Int}
    (h : exponentPart? text = some exponent) : ∀ c ∈ text.head?, c = 'e' ∨ c = 'E' := by
  cases text with
  | nil => exact nofun
  | cons c rest =>
    intro other hother
    obtain rfl := Option.some.inj hother
    by_contra hletter
    rw [exponentPart?, if_neg hletter] at h
    cases h

/-- A decimal number is an optional sign, digits and points, and an optional exponent. -/
theorem exists_mantissa_of_ofChars? {text : List Char} {decimal : Decimal}
    (h : ofChars? text = some decimal) : ∃ sign mantissa exponent,
      text = sign ++ (mantissa ++ exponent) ∧ (sign = [] ∨ sign = ['-'] ∨ sign = ['+']) ∧
      mantissa ≠ [] ∧ (∀ c ∈ mantissa, c.isDigit = true ∨ c = '.') ∧
      ∀ c ∈ exponent.head?, c = 'e' ∨ c = 'E' := by
  unfold ofChars? at h
  dsimp only at h
  split at h
  next => cases h
  next hdigits =>
    obtain ⟨exponent, hexponent, -⟩ := Option.map_eq_some_iff.1 h
    obtain ⟨sign, hsign, hsigns⟩ := exists_eq_append_of_cutSign text
    obtain ⟨fraction, hfraction, hne, hpoints⟩ :=
      exists_eq_append_of_cutFraction (cutDigits (cutSign text).2).2
    have hwhole : (cutSign text).2 =
        (cutDigits (cutSign text).2).1 ++ (cutDigits (cutSign text).2).2 :=
      List.takeWhile_append_dropWhile.symm
    refine ⟨sign, (cutDigits (cutSign text).2).1 ++ fraction, _, ?_, hsigns, ?_, ?_,
      head?_of_exponentPart? hexponent⟩
    · rw [List.append_assoc, ← hfraction, ← hwhole]
      exact hsign
    · intro hempty
      obtain ⟨hnone, hnofraction⟩ := List.append_eq_nil_iff.1 hempty
      refine hdigits (Bool.and_eq_true_iff.2 ⟨List.isEmpty_iff.2 hnone, List.isEmpty_iff.2 ?_⟩)
      by_contra hsome
      exact hne hsome hnofraction
    · intro c hc
      rcases List.mem_append.1 hc with hc | hc
      · exact .inl (List.all_eq_true.1 List.all_takeWhile c hc)
      · exact hpoints c hc

end Decimal

namespace Binary64

/-- A text with a finite value is a decimal number. -/
theorem exists_ofChars?_of_isFinite {text : String} {value : Binary64}
    (hvalue : ofText? text = some value) (hfinite : value.isFinite = true) :
    ∃ decimal, Decimal.ofChars? text.toList = some decimal := by
  unfold ofText? at hvalue
  split at hvalue
  next decimal hdecimal => exact ⟨decimal, hdecimal⟩
  next =>
    dsimp only at hvalue
    split_ifs at hvalue
    · obtain rfl := Option.some.inj hvalue
      cases hnegative : (Decimal.cutSign text.toList).1 <;> rw [hnegative] at hfinite <;>
        exact absurd hfinite (by decide)
    · obtain rfl := Option.some.inj hvalue
      cases hfinite

theorem toLower_of_isDigit (hc : c.isDigit = true) : c.toLower = c := by
  simp only [Char.isDigit, Bool.and_eq_true, decide_eq_true_eq] at hc
  unfold Char.toLower
  rw [dif_neg]
  intro hupper
  exact absurd (UInt32.le_trans hupper.1 hc.2) (by decide)

/-- Of the texts that start with a digit behind an optional minus sign, and go on with digits and
points, those have a value that have at most one point. -/
theorem exists_ofText?_iff (hsign : sign = [] ∨ sign = ['-']) (hc : c.isDigit = true)
    (hrest : ∀ other ∈ rest, other.isDigit = true ∨ other = '.') :
    (∃ value, ofText? (.ofList (sign ++ c :: rest)) = some value) ↔ rest.count '.' ≤ 1 := by
  rw [← Decimal.isSome_ofChars?_iff hsign hc hrest]
  unfold ofText?
  rw [String.toList_ofList]
  cases hchars : Decimal.ofChars? (sign ++ c :: rest) with
  | some decimal => simp
  | none =>
    obtain ⟨negative, hcut⟩ := Decimal.exists_cutSign_append hsign hc rest
    -- No name starts with a digit.
    have hname (text : String) (htext : text.toList.head? = some c) :
        text ∉ infinityNames ∧ text ≠ nanName := by
      constructor
      · intro hmem
        simp only [infinityNames, List.mem_cons, List.not_mem_nil, or_false] at hmem
        rcases hmem with rfl | rfl
        · exact absurd (Option.some.inj htext ▸ hc) (by decide)
        · exact absurd (Option.some.inj htext ▸ hc) (by decide)
      · rintro rfl
        exact absurd (Option.some.inj htext ▸ hc) (by decide)
    obtain ⟨hinfinity, hnan⟩ := hname (.ofList ((c :: rest).map Char.toLower)) (by
      rw [String.toList_ofList, List.map_cons, List.head?_cons, toLower_of_isDigit hc])
    rw [hcut]
    simp [-List.map_cons, hinfinity, hnan]

/-- Every numeral has a value. -/
theorem exists_ofText?_of_isNumeral {text : List Char} (h : IsNumeral text) :
    ∃ value, ofText? (.ofList text) = some value := by
  cases h with
  | intro hsign hc hrest hpoint => exact (exists_ofText?_iff hsign hc hrest).2 hpoint

/-- A decimal number is rounded to a number. -/
theorem toBinary64_ne_nan (decimal : Decimal) : decimal.toBinary64 ≠ .nan := by
  unfold Decimal.toBinary64
  dsimp only
  split_ifs <;> exact nofun

/-- The value of a numeral is a number. -/
theorem ne_nan_of_isNumeral {text : String} {value : Binary64} (h : IsNumeral text.toList)
    (hvalue : ofText? text = some value) : value ≠ .nan := by
  obtain ⟨decimal, hdecimal⟩ := Decimal.exists_ofChars?_of_isNumeral h
  rw [ofText?, hdecimal] at hvalue
  rw [← Option.some.inj hvalue]
  exact toBinary64_ne_nan decimal

end Binary64

end BuildPlan
