import Mathlib.Data.List.Chain
import BuildPlan.Proofs.Gate.Grammar
import BuildPlan.Proofs.Gate.Printing

/-!
# Leaves as literals

A leaf of a store that is a boolean or a number may also be written out in a gate, if its text is
one literal there. Booleans and numerals are (`scan_leaf`). Other numbers have a plus sign, an
exponent, or no digit in front of their point. Their texts start with a character that starts no
lexeme, or they are read as a number and a name behind it (`exists_beside_of_scan`), and no phrase
has two operands side by side (`Derives.isChain`).
-/

set_option autoImplicit false
set_option relaxedAutoImplicit false

namespace BuildPlan.Gate

/-- A text that is a literal of a gate: a boolean or a numeral. -/
def IsLiteral (text : String) : Prop :=
  text = "true" ∨ text = "false" ∨ IsNumeral text.toList

/-! ### Neighbours in a phrase -/

namespace Lexeme

/-- An operand may end with the lexeme. -/
def EndsOperand : Lexeme → Prop
  | .rightParen | .literal _ | .identifier _ => True
  | _ => False

/-- An operand may start with the lexeme. -/
def StartsOperand : Lexeme → Prop
  | .leftParen | .not | .literal _ | .identifier _ => True
  | _ => False

end Lexeme

/-- No two operands stand side by side. -/
theorem Derives.isChain {phrase : Phrase} {text : List Lexeme} {tree : Expr} {nesting : Nat}
    (h : Derives phrase text tree nesting) :
    text.IsChain fun first second ↦ first.EndsOperand → ¬ second.StartsOperand := by
  induction h with
  | literal => exact .singleton _
  | identifier => exact .singleton _
  | parentheses _ ih =>
    refine List.isChain_append.2 ⟨?_, .singleton _, ?_⟩
    · exact List.isChain_cons.2 ⟨fun _ _ h ↦ h.elim, ih⟩
    · intro last _ closing hclosing _ hstarts
      obtain rfl := Option.some.inj hclosing
      exact hstarts
  | not _ ih => exact List.isChain_cons.2 ⟨fun _ _ h ↦ h.elim, ih⟩
  | single _ ih => exact ih
  | join _ _ _ ihparts ihlast =>
    refine List.isChain_append.2 ⟨ihparts, List.isChain_cons.2 ⟨fun _ _ h ↦ h.elim, ihlast⟩, ?_⟩
    intro last _ operator hoperator _ hstarts
    obtain rfl := Option.some.inj hoperator
    exact hstarts

/-- A phrase has no name right behind a literal. -/
theorem not_derives_beside {phrase : Phrase} {front back : List Lexeme} {value : Scalar}
    {name : String} {tree : Expr} {nesting : Nat} :
    ¬ Derives phrase (front ++ .literal value :: .identifier name :: back) tree nesting := by
  intro h
  have hback := h.isChain.right_of_append
  exact (List.isChain_cons_cons.1 hback).1 trivial trivial

variable {value : String}

/-! ### The texts of leaves -/

namespace Scalar

theorem of_ofLeaf_eq_bool {answer : Bool} (h : ofLeaf value = .bool answer) :
    value = toString answer := by
  unfold ofLeaf at h
  split_ifs at h with htrue hfalse
  · rw [← bool.inj h]
    exact htrue
  · rw [← bool.inj h]
    exact hfalse
  · split at h
    · split at h <;> cases h
    · cases h

/-- A leaf that is a number is written as it, and the number is finite. -/
theorem of_ofLeaf_eq_number {number : Binary64} {text : String}
    (h : ofLeaf value = .number number text) :
    text = value ∧ Binary64.ofText? value = some number ∧ number.isFinite = true := by
  unfold ofLeaf at h
  split_ifs at h
  split at h
  next found hfound =>
    split at h
    next hfinite =>
      obtain ⟨rfl, rfl⟩ := Scalar.number.inj h
      exact ⟨rfl, hfound, hfinite⟩
    next => cases h
  next => cases h

/-- A leaf that is no string is a literal if it can be written as one. -/
theorem isLiteral_iff_isPrintable (hvalue : ∀ text, ofLeaf value ≠ .string text) :
    IsLiteral value ↔ (Lexeme.literal (ofLeaf value)).IsPrintable := by
  cases hleaf : ofLeaf value with
  | bool answer =>
    refine iff_of_true ?_ trivial
    rw [of_ofLeaf_eq_bool hleaf]
    cases answer
    · exact .inr (.inl rfl)
    · exact .inl rfl
  | number number text =>
    obtain ⟨rfl, hnumber, -⟩ := of_ofLeaf_eq_number hleaf
    constructor
    · rintro (rfl | rfl | hnumeral)
      · cases hleaf
      · cases hleaf
      · exact ⟨hnumeral, hnumber⟩
    · exact fun hprintable ↦ .inr (.inr hprintable.1)
  | string text => exact absurd hleaf (hvalue text)

/-- A leaf that is neither a string nor a literal is a finite number without being a numeral. -/
theorem exists_number_of_not_isLiteral (hvalue : ∀ text, ofLeaf value ≠ .string text)
    (hliteral : ¬ IsLiteral value) : ∃ number, Binary64.ofText? value = some number ∧
      number.isFinite = true ∧ ¬ IsNumeral value.toList := by
  cases hleaf : ofLeaf value with
  | bool answer =>
    refine absurd ((isLiteral_iff_isPrintable hvalue).2 ?_) hliteral
    rw [hleaf]
    trivial
  | number number text =>
    obtain ⟨-, hnumber, hfinite⟩ := of_ofLeaf_eq_number hleaf
    exact ⟨number, hnumber, hfinite, fun hnumeral ↦ hliteral (.inr (.inr hnumeral))⟩
  | string text => exact absurd hleaf (hvalue text)

/-- A leaf that is no string is written as the literal that it stands for. -/
theorem mem_spellings_ofLeaf (hvalue : ∀ text, ofLeaf value ≠ .string text) :
    value.toList ∈ (Lexeme.literal (ofLeaf value)).spellings := by
  cases hleaf : ofLeaf value with
  | bool answer =>
    rw [of_ofLeaf_eq_bool hleaf]
    exact List.mem_singleton_self _
  | number number text =>
    obtain ⟨rfl, -, -⟩ := of_ofLeaf_eq_number hleaf
    exact List.mem_singleton_self _
  | string text => exact absurd hleaf (hvalue text)

end Scalar

/-- The text of a leaf that is a literal is read as the literal that the leaf stands for. -/
theorem scan_leaf (hvalue : ∀ text, Scalar.ofLeaf value ≠ .string text)
    (hliteral : IsLiteral value) (offset : Nat) :
    scan offset value.toList = .ok [⟨.literal (.ofLeaf value), offset⟩] := by
  let piece : Piece :=
    { lexeme := .literal (.ofLeaf value)
      printable := (Scalar.isLiteral_iff_isPrintable hvalue).1 hliteral
      spelling := value.toList
      spelled := Scalar.mem_spellings_ofLeaf hvalue
      gap := []
      blank := fun _ h ↦ absurd h List.not_mem_nil }
  have hseparated : Separated [piece] := fun _ h ↦ absurd h List.not_mem_nil
  have hread := scan_flatMap_text hseparated offset
  simpa [piece, Piece.text, spans] using hread

/-! ### Numbers that are no numerals -/

/-- The first lexeme of a text is read from its first character. -/
theorem exists_read_of_scan {c : Char} {rest : List Char} {offset : Nat} {found : List Spanned}
    (hblank : Text.isBlank c = false) (h : scan offset (c :: rest) = .ok found) :
    ∃ lexeme after behind others, Lexeme.read c rest = .ok (lexeme, after) ∧
      scan behind after = .ok others ∧ found = ⟨lexeme, offset⟩ :: others := by
  rw [scan, if_neg (by simp [hblank])] at h
  split at h
  next => cases h
  next lexeme after hread =>
    obtain ⟨others, hothers, rfl⟩ := Except.map_eq_ok_iff.1 h
    exact ⟨lexeme, after, _, others, hread, hothers, rfl⟩

namespace Lexeme

variable {c d : Char} {lexeme : Lexeme} {digits rest after : List Char}

theorem isBlank_eq_false_of_isDigit (h : c.isDigit = true) : Text.isBlank c = false :=
  isBlank_eq_false_of_isIdentifierRest
    (isIdentifierRest_of_isNumberRest (isNumberRest_of_isDigit h))

/-- What starts with an optional sign and a digit or a point is read only if the sign is a minus
sign or missing, and the digit is there. -/
theorem isDigit_of_read {sign : List Char} (hsign : sign = [] ∨ sign = ['-'] ∨ sign = ['+'])
    (hd : d.isDigit = true ∨ d = '.') (htext : sign ++ d :: digits = c :: rest)
    (h : read c rest = .ok (lexeme, after)) : (sign = [] ∨ sign = ['-']) ∧ d.isDigit = true := by
  rcases hsign with rfl | rfl | rfl
  · obtain ⟨rfl, rfl⟩ := List.cons.inj htext
    rcases hd with hdigit | rfl
    · exact ⟨.inl rfl, hdigit⟩
    · cases h
  · obtain ⟨rfl, rfl⟩ := List.cons.inj htext
    rcases hd with hdigit | rfl
    · exact ⟨.inr rfl, hdigit⟩
    · cases h
  · obtain ⟨rfl, rfl⟩ := List.cons.inj htext
    cases h

/-- A number ends where its digits and points end. -/
theorem literal_of_read (hc : c.isDigit = true ∨ c = '-' ∧ startsWithDigit rest = true)
    (h : read c rest = .ok (lexeme, after)) :
    (∃ value, lexeme = .literal value) ∧ after = rest.dropWhile isNumberRest := by
  rw [read_of_startsNumber hc] at h
  obtain ⟨number, hnumber, hpair⟩ := Except.map_eq_ok_iff.1 h
  obtain ⟨rfl, rfl⟩ := Prod.mk.inj hpair
  obtain ⟨value, -, rfl⟩ := eq_of_ofNumber hnumber
  exact ⟨⟨_, rfl⟩, rfl⟩

/-- A decimal number is read only if it starts with a digit or with a minus sign and a digit, and
then as a literal that ends in front of the exponent. -/
theorem literal_of_read_decimal {sign exponent : List Char}
    (hsign : sign = [] ∨ sign = ['-'] ∨ sign = ['+']) (hd : d.isDigit = true ∨ d = '.')
    (hdigits : ∀ other ∈ digits, other.isDigit = true ∨ other = '.')
    (hexponent : ∀ other ∈ exponent.head?, other = 'e' ∨ other = 'E')
    (htext : sign ++ d :: (digits ++ exponent) = c :: rest)
    (h : read c rest = .ok (lexeme, after)) :
    (sign = [] ∨ sign = ['-']) ∧ d.isDigit = true ∧ (∃ value, lexeme = .literal value) ∧
      after = exponent := by
  obtain ⟨hminus, hdigit⟩ := isDigit_of_read hsign hd htext h
  have hnumber : ∀ other ∈ digits, isNumberRest other = true := by
    simpa [isNumberRest] using hdigits
  have hstops : exponent.dropWhile isNumberRest = exponent := by
    cases exponent with
    | nil => rfl
    | cons e more => rcases hexponent e rfl with rfl | rfl <;> rfl
  have hdrop : (digits ++ exponent).dropWhile isNumberRest = exponent := by
    rw [List.dropWhile_append_of_pos hnumber, hstops]
  rcases hminus with rfl | rfl
  · obtain ⟨rfl, rfl⟩ := List.cons.inj htext
    obtain ⟨hliteral, hafter⟩ := literal_of_read (.inl hdigit) h
    exact ⟨.inl rfl, hdigit, hliteral, hafter.trans hdrop⟩
  · rw [List.singleton_append] at htext
    obtain ⟨rfl, rfl⟩ := List.cons.inj htext
    have hstarts : startsWithDigit (d :: (digits ++ exponent)) = true := hdigit
    obtain ⟨hliteral, hafter⟩ := literal_of_read (.inr ⟨rfl, hstarts⟩) h
    rw [List.dropWhile_cons_of_pos (isNumberRest_of_isDigit hdigit), hdrop] at hafter
    exact ⟨.inr rfl, hdigit, hliteral, hafter⟩

/-- The letter of an exponent is read as the start of a name. -/
theorem identifier_of_read (hc : c = 'e' ∨ c = 'E') (h : read c rest = .ok (lexeme, after)) :
    ∃ name, lexeme = .identifier name := by
  have hkeywords : ∀ word ∈ keywords,
      word.toList.head? ≠ some 'e' ∧ word.toList.head? ≠ some 'E' := by
    decide
  have hkeyword (others : List Char) : String.ofList (c :: others) ∉ keywords := by
    intro hmem
    obtain ⟨hlower, hupper⟩ := hkeywords _ hmem
    rw [String.toList_ofList, List.head?_cons] at hlower hupper
    rcases hc with rfl | rfl
    · exact hlower rfl
    · exact hupper rfl
  have hread : read c rest = .ok (ofWord (.ofList (c :: rest.takeWhile isIdentifierRest)),
      rest.dropWhile isIdentifierRest) := by
    rcases hc with rfl | rfl <;> rfl
  rw [hread, ofWord_of_not_mem_keywords (hkeyword _)] at h
  obtain ⟨rfl, -⟩ := Prod.mk.inj (Except.ok.inj h)
  exact ⟨_, rfl⟩

end Lexeme

/-- The text of a number that is no numeral is read as a number and a name behind it, if it is
read. -/
theorem exists_beside_of_scan {number : Binary64} (hnumber : Binary64.ofText? value = some number)
    (hfinite : number.isFinite = true) (hnumeral : ¬ IsNumeral value.toList) {offset : Nat}
    {found : List Spanned} (h : scan offset value.toList = .ok found) : ∃ left name others,
      found.map Spanned.lexeme = .literal left :: .identifier name :: others := by
  obtain ⟨decimal, hdecimal⟩ := Binary64.exists_ofChars?_of_isFinite hnumber hfinite
  obtain ⟨sign, mantissa, exponent, htext, hsigns, hne, hmantissa, hexponent⟩ :=
    Decimal.exists_mantissa_of_ofChars? hdecimal
  obtain ⟨d, digits, rfl⟩ := List.exists_cons_of_ne_nil hne
  obtain ⟨hd, hdigits⟩ := List.forall_mem_cons.1 hmantissa
  rw [List.cons_append] at htext
  obtain ⟨c, rest, hfirst⟩ : ∃ c rest, sign ++ d :: (digits ++ exponent) = c :: rest :=
    List.exists_cons_of_ne_nil (by simp)
  have hblank : Text.isBlank c = false := by
    rcases hsigns with rfl | rfl | rfl <;> rw [← (List.cons.inj hfirst).1]
    · rcases hd with hdigit | rfl
      · exact Lexeme.isBlank_eq_false_of_isDigit hdigit
      · decide
    · decide
    · decide
  rw [htext, hfirst] at h
  obtain ⟨lexeme, after, behind, others, hread, hothers, rfl⟩ := exists_read_of_scan hblank h
  obtain ⟨hsign, hdigit, ⟨left, rfl⟩, rfl⟩ :=
    Lexeme.literal_of_read_decimal hsigns hd hdigits hexponent hfirst hread
  cases hafter : after with
  | nil =>
    -- Without an exponent the number is a numeral.
    rw [htext, hafter, List.append_nil] at hdecimal hnumeral
    have hpoint := (Decimal.isSome_ofChars?_iff hsign hdigit hdigits).1 (hdecimal ▸ rfl)
    exact absurd (.intro hsign hdigit hdigits hpoint) hnumeral
  | cons e more =>
    rw [hafter] at hothers hexponent
    have he := hexponent e rfl
    have hblank : Text.isBlank e = false := by rcases he with rfl | rfl <;> decide
    obtain ⟨lexeme, after, _, others, hread, -, rfl⟩ := exists_read_of_scan hblank hothers
    obtain ⟨name, rfl⟩ := Lexeme.identifier_of_read he hread
    exact ⟨left, name, others.map Spanned.lexeme, rfl⟩

end BuildPlan.Gate
