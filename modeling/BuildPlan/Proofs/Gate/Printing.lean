import BuildPlan.Proofs.Binary64.Numeral
import BuildPlan.Proofs.Gate.Reading

/-!
# Printing lexemes

A lexeme may be written in several ways (`Lexeme.spellings`): an operator by its symbol or by its
word, a string between either kind of quotes. Some lexemes cannot be written at all, such as an
identifier with the name of an operator; the others are printable (`Lexeme.IsPrintable`).

A spelling of a printable lexeme is read as that lexeme wherever a blank or nothing follows
(`Lexeme.readsAs_of_mem_spellings`), and only printable lexemes are read
(`Lexeme.isPrintable_of_read`). For a text that consists of spellings with blanks between them
(`Piece`, `printed`) both come together in the main result `lexemes_of_printed`: its lexemes are the
ones that were written, each at the offset of its spelling, and what is read of any text can be
written and read again.
-/

set_option autoImplicit false
set_option relaxedAutoImplicit false

namespace BuildPlan.Gate

namespace Lexeme

/-! ### Printable lexemes and their spellings -/

/-- The words that are no names of identifiers. -/
def keywords : List String := ["true", "false", "and", "or", "not"]

/-- A name of an identifier: a letter or an underscore, then letters, digits, underscores and
points, but no keyword. -/
inductive IsName : List Char → Prop
  | intro {c : Char} {rest : List Char} (hc : isIdentifierStart c = true)
    (hrest : ∀ other ∈ rest, isIdentifierRest other = true)
    (hkeyword : String.ofList (c :: rest) ∉ keywords) : IsName (c :: rest)

/-- All characters of a name may continue one. -/
theorem IsName.isIdentifierRest {name : List Char} (h : IsName name) :
    ∀ c ∈ name, Lexeme.isIdentifierRest c = true := by
  cases h with
  | intro hc hrest =>
    exact List.forall_mem_cons.2 ⟨isIdentifierRest_of_isIdentifierStart hc, hrest⟩

/-- A lexeme that can be written. Numbers are written as numerals that have their value, and
identifiers by their names. -/
def IsPrintable : Lexeme → Prop
  | .literal (.number value text) => IsNumeral text.toList ∧ Binary64.ofText? text = some value
  | .identifier name => IsName name.toList
  | _ => True

/-- A text with a backslash in front of each backslash and of each quote. -/
def escape (quote : Char) (text : List Char) : List Char :=
  text.flatMap fun c ↦ if c = quote ∨ c = '\\' then ['\\', c] else [c]

/-- A text between quotes. -/
def inQuotes (quote : Char) (text : String) : List Char :=
  quote :: (escape quote text.toList ++ [quote])

/-- The ways to write a lexeme. -/
def spellings : Lexeme → List (List Char)
  | .leftParen => [['(']]
  | .rightParen => [[')']]
  | .not => [['!'], "not".toList]
  | .operator .and => ["&&".toList, "and".toList]
  | .operator .or => ["||".toList, "or".toList]
  | .operator op => [op.symbol.toList]
  | .literal (.bool value) => [(toString value).toList]
  | .literal (.number _ text) => [text.toList]
  | .literal (.string text) => [inQuotes '\x27' text, inQuotes '"' text]
  | .identifier name => [name.toList]

theorem spellings_ne_nil (lexeme : Lexeme) : lexeme.spellings ≠ [] := by
  cases lexeme with
  | operator op => cases op <;> exact List.cons_ne_nil _ _
  | literal value => cases value <;> exact List.cons_ne_nil _ _
  | _ => exact List.cons_ne_nil _ _

/-! ### Reading a spelling -/

/-- A text sets off what is in front of it: it is empty or starts with a blank. -/
def Apart (after : List Char) : Prop :=
  ∀ c ∈ after.head?, Text.isBlank c = true

/-- A text is read as a lexeme, whatever follows, if only it is set off. -/
def ReadsAs (spelling : List Char) (lexeme : Lexeme) : Prop :=
  ∃ c rest, spelling = c :: rest ∧ Text.isBlank c = false ∧
    ∀ after, Apart after → read c (rest ++ after) = .ok (lexeme, after)

variable {c quote : Char} {rest after spelling text : List Char} {lexeme : Lexeme}

/-- The letters are two ranges of code points. -/
theorem isAlpha_iff : c.isAlpha = true ↔
    (0x41 ≤ c.toNat ∧ c.toNat ≤ 0x5A) ∨ (0x61 ≤ c.toNat ∧ c.toNat ≤ 0x7A) := by
  have hranges : c.isAlpha = (decide (0x41 ≤ c.val ∧ c.val ≤ 0x5A) ||
      (decide (0x61 ≤ c.val) && decide (c.val ≤ 0x7A))) := rfl
  simp only [hranges, Bool.or_eq_true, Bool.and_eq_true, decide_eq_true_eq]
  rfl

theorem isBlank_eq_false_of_isIdentifierRest (h : isIdentifierRest c = true) :
    Text.isBlank c = false := by
  have hcode : 0x2E ≤ c.toNat ∧ c.toNat ≤ 0x7A := by
    simp only [isIdentifierRest, Char.isAlphanum, Bool.or_eq_true, isAlpha_iff,
      decide_eq_true_eq] at h
    rcases h with ((hletter | hdigit) | rfl) | rfl
    · omega
    · have hrange : 0x30 ≤ c.toNat ∧ c.toNat ≤ 0x39 := Char.isDigit_iff_toNat.1 hdigit
      omega
    · decide
    · decide
  simp [Text.isBlank, Text.inRanges, Text.blankRanges]
  omega

/-- A class of characters without blanks is read up to a text that sets it off. -/
theorem span_of_apart {p : Char → Bool}
    (hp : ∀ c, p c = true → isIdentifierRest c = true) (hrest : ∀ c ∈ rest, p c = true)
    (hafter : Apart after) :
    (rest ++ after).takeWhile p = rest ∧ (rest ++ after).dropWhile p = after := by
  have hstops : after.takeWhile p = [] ∧ after.dropWhile p = after := by
    cases after with
    | nil => exact ⟨rfl, rfl⟩
    | cons c after =>
      have hc : ¬ p c = true := by
        intro hc
        have hblank := hafter c rfl
        rw [isBlank_eq_false_of_isIdentifierRest (hp c hc)] at hblank
        cases hblank
      exact ⟨List.takeWhile_cons_of_neg hc, List.dropWhile_cons_of_neg hc⟩
  rw [List.takeWhile_append_of_pos hrest, List.dropWhile_append_of_pos hrest, hstops.1, hstops.2,
    List.append_nil]
  exact ⟨rfl, rfl⟩

/-! ### Words and numbers -/

theorem not_mem_signs_of_isIdentifierRest (h : isIdentifierRest c = true) : c ∉ signs := by
  have hsigns : (signs.all fun sign ↦ !isIdentifierRest sign) = true := by decide
  intro hmem
  have hnot := List.all_eq_true.1 hsigns c hmem
  rw [h] at hnot
  cases hnot

theorem isDigit_eq_false_of_isIdentifierStart (h : isIdentifierStart c = true) :
    c.isDigit = false := by
  rw [isIdentifierStart, Bool.or_eq_true, decide_eq_true_iff] at h
  rcases h with hletter | rfl
  · rw [isAlpha_iff] at hletter
    refine Bool.eq_false_iff.2 fun hdigit ↦ ?_
    have hrange : 0x30 ≤ c.toNat ∧ c.toNat ≤ 0x39 := Char.isDigit_iff_toNat.1 hdigit
    omega
  · decide

/-- A word is read as its lexeme. -/
theorem readsAs_word (hc : isIdentifierStart c = true)
    (hrest : ∀ other ∈ rest, isIdentifierRest other = true) :
    ReadsAs (c :: rest) (ofWord (.ofList (c :: rest))) := by
  have hcontinues := isIdentifierRest_of_isIdentifierStart hc
  have hminus : c ≠ '-' := by
    rintro rfl
    cases hc
  refine ⟨c, rest, rfl, isBlank_eq_false_of_isIdentifierRest hcontinues, fun after hafter ↦ ?_⟩
  obtain ⟨htake, hdrop⟩ := span_of_apart (fun _ ↦ id) hrest hafter
  rw [read_of_not_mem_signs (not_mem_signs_of_isIdentifierRest hcontinues),
    isDigit_eq_false_of_isIdentifierStart hc, if_neg (by simp [hminus]), if_pos hc, htake, hdrop]

/-- A digit, or a minus sign in front of one, starts a number. -/
theorem read_of_startsNumber (hc : c.isDigit = true ∨ c = '-' ∧ startsWithDigit text = true) :
    read c text = (ofNumber (.ofList (c :: text.takeWhile isNumberRest))).map fun lexeme ↦
      (lexeme, text.dropWhile isNumberRest) := by
  have hsign : c ∉ signs := by
    rcases hc with hdigit | ⟨rfl, -⟩
    · exact not_mem_signs_of_isIdentifierRest
        (isIdentifierRest_of_isNumberRest (isNumberRest_of_isDigit hdigit))
    · decide
  have hstarts : (c.isDigit || (c = '-' && startsWithDigit text)) = true := by
    rw [Bool.or_eq_true, Bool.and_eq_true, decide_eq_true_iff]
    exact hc
  rw [read_of_not_mem_signs hsign, if_pos hstarts]

/-- Digits and points are read as a number, behind a digit or behind a sign that is followed by a
digit. -/
theorem read_number {value : Binary64}
    (hc : c.isDigit = true ∨ c = '-' ∧ startsWithDigit rest = true)
    (hrest : ∀ other ∈ rest, isNumberRest other = true)
    (hvalue : Binary64.ofText? (.ofList (c :: rest)) = some value) (hafter : Apart after) :
    read c (rest ++ after) = .ok (.literal (.number value (.ofList (c :: rest))), after) := by
  obtain ⟨htake, hdrop⟩ :=
    span_of_apart (fun _ ↦ isIdentifierRest_of_isNumberRest) hrest hafter
  have hstarts : c.isDigit = true ∨ c = '-' ∧ startsWithDigit (rest ++ after) = true := by
    refine hc.imp_right fun ⟨hminus, hdigit⟩ ↦ ⟨hminus, ?_⟩
    cases rest with
    | nil => cases hdigit
    | cons d others => exact hdigit
  rw [read_of_startsNumber hstarts, htake, hdrop, ofNumber, hvalue]
  rfl

/-- A numeral is read as the number that it writes. -/
theorem readsAs_number {value : Binary64} (hnumeral : IsNumeral text)
    (hvalue : Binary64.ofText? (.ofList text) = some value) :
    ReadsAs text (.literal (.number value (.ofList text))) := by
  cases hnumeral with
  | @intro sign rest c hsign hc hrest hpoint =>
    have hdigit : isNumberRest c = true := isNumberRest_of_isDigit hc
    have hclass : ∀ other ∈ rest, isNumberRest other = true := by simpa [isNumberRest] using hrest
    rcases hsign with rfl | rfl
    · exact ⟨c, rest, rfl,
        isBlank_eq_false_of_isIdentifierRest (isIdentifierRest_of_isNumberRest hdigit),
        fun after ↦ read_number (.inl hc) hclass hvalue⟩
    · exact ⟨'-', c :: rest, rfl, by decide, fun after ↦
        read_number (.inr ⟨rfl, hc⟩) (List.forall_mem_cons.2 ⟨hdigit, hclass⟩) hvalue⟩

/-! ### Signs -/

theorem readWithEquals_of_apart (hafter : Apart after) (plain extended : Lexeme) :
    readWithEquals plain extended after = (plain, after) := by
  have hnone : after? '=' after = none := by
    rw [after?_eq_none_iff]
    intro hequals
    exact absurd (hafter _ hequals) (by decide)
  rw [readWithEquals, hnone]

/-- The symbol of an operator is read as the operator. -/
theorem readsAs_symbol (op : Operator) : ReadsAs op.symbol.toList (.operator op) := by
  cases op with
  | or => exact ⟨'|', ['|'], rfl, by decide, fun _ _ ↦ rfl⟩
  | and => exact ⟨'&', ['&'], rfl, by decide, fun _ _ ↦ rfl⟩
  | eq => exact ⟨'=', ['='], rfl, by decide, fun _ _ ↦ rfl⟩
  | ne => exact ⟨'!', ['='], rfl, by decide, fun _ _ ↦ rfl⟩
  | lt =>
    exact ⟨'<', [], rfl, by decide, fun _ hafter ↦ congrArg _ (readWithEquals_of_apart hafter ..)⟩
  | le => exact ⟨'<', ['='], rfl, by decide, fun _ _ ↦ rfl⟩
  | gt =>
    exact ⟨'>', [], rfl, by decide, fun _ hafter ↦ congrArg _ (readWithEquals_of_apart hafter ..)⟩
  | ge => exact ⟨'>', ['='], rfl, by decide, fun _ _ ↦ rfl⟩

/-- An escaped text stands for itself. -/
theorem quoted_escape (hquote : IsQuote quote) (text : List Char) :
    Quoted quote (escape quote text ++ [quote]) text := by
  have hbackslash : '\\' ≠ quote := by rcases hquote with rfl | rfl <;> decide
  induction text with
  | nil => exact .close
  | cons c text ih =>
    by_cases hescape : c = quote ∨ c = '\\'
    · have hsame : unescape c = c := by
        rcases hquote with rfl | rfl <;> rcases hescape with rfl | rfl <;> decide
      have hbody := Quoted.escape c hbackslash ih
      rw [hsame] at hbody
      simpa [escape, hescape] using hbody
    · have hbody := Quoted.plain (not_or.1 hescape).1 (not_or.1 hescape).2 ih
      simpa [escape, hescape] using hbody

/-- A text between quotes is read as a string. -/
theorem readsAs_inQuotes (hquote : IsQuote quote) (text : String) :
    ReadsAs (inQuotes quote text) (.literal (.string text)) := by
  have hblank : Text.isBlank quote = false := by rcases hquote with rfl | rfl <;> decide
  refine ⟨quote, escape quote text.toList ++ [quote], rfl, hblank, fun after _ ↦ ?_⟩
  rw [read_quoted hquote (quoted_escape hquote text.toList), String.ofList_toList]

/-! ### All lexemes -/

/-- A word that is no keyword is an identifier. -/
theorem ofWord_of_not_mem_keywords {word : String} (h : word ∉ keywords) :
    ofWord word = .identifier word := by
  simp only [keywords, List.mem_cons, List.not_mem_nil, or_false, not_or] at h
  obtain ⟨htrue, hfalse, hand, hor, hnot⟩ := h
  rw [ofWord, if_neg htrue, if_neg hfalse, if_neg hand, if_neg hor, if_neg hnot]

/-- A name is read as its identifier. -/
theorem readsAs_name (hname : IsName text) : ReadsAs text (.identifier (.ofList text)) := by
  cases hname with
  | intro hc hrest hkeyword =>
    rw [← ofWord_of_not_mem_keywords hkeyword]
    exact readsAs_word hc hrest

/-- A keyword is read as its lexeme. -/
theorem readsAs_keyword {word : String} (hword : word ∈ keywords) :
    ReadsAs word.toList (ofWord word) := by
  simp only [keywords, List.mem_cons, List.not_mem_nil, or_false] at hword
  rcases hword with rfl | rfl | rfl | rfl | rfl <;>
    exact readsAs_word rfl (List.all_eq_true.1 rfl)

/-- A spelling of a printable lexeme is read as that lexeme, whatever follows, if only it is set
off. -/
theorem readsAs_of_mem_spellings (hprintable : lexeme.IsPrintable)
    (hspelling : spelling ∈ lexeme.spellings) : ReadsAs spelling lexeme := by
  cases lexeme with
  | leftParen =>
    obtain rfl := List.mem_singleton.1 hspelling
    exact ⟨'(', [], rfl, by decide, fun _ _ ↦ rfl⟩
  | rightParen =>
    obtain rfl := List.mem_singleton.1 hspelling
    exact ⟨')', [], rfl, by decide, fun _ _ ↦ rfl⟩
  | not =>
    rcases List.mem_pair.1 hspelling with rfl | rfl
    · exact ⟨'!', [], rfl, by decide,
        fun _ hafter ↦ congrArg _ (readWithEquals_of_apart hafter ..)⟩
    · exact readsAs_keyword (by decide)
  | operator op =>
    cases op with
    | and =>
      rcases List.mem_pair.1 hspelling with rfl | rfl
      · exact readsAs_symbol .and
      · exact readsAs_keyword (by decide)
    | or =>
      rcases List.mem_pair.1 hspelling with rfl | rfl
      · exact readsAs_symbol .or
      · exact readsAs_keyword (by decide)
    | _ =>
      obtain rfl := List.mem_singleton.1 hspelling
      exact readsAs_symbol _
  | literal value =>
    cases value with
    | bool value =>
      obtain rfl := List.mem_singleton.1 hspelling
      cases value <;> exact readsAs_keyword (by decide)
    | number value text =>
      obtain rfl := List.mem_singleton.1 hspelling
      obtain ⟨hnumeral, hvalue⟩ := hprintable
      rw [← String.ofList_toList (s := text)] at hvalue
      have hreads := readsAs_number hnumeral hvalue
      rwa [String.ofList_toList] at hreads
    | string text =>
      rcases List.mem_pair.1 hspelling with rfl | rfl
      · exact readsAs_inQuotes (.inl rfl) text
      · exact readsAs_inQuotes (.inr rfl) text
  | identifier name =>
    obtain rfl := List.mem_singleton.1 hspelling
    have hreads := readsAs_name hprintable
    rwa [String.ofList_toList] at hreads

/-! ### Only printable lexemes are read -/

theorem isPrintable_ofWord (hc : isIdentifierStart c = true)
    (hrest : ∀ other ∈ rest, isIdentifierRest other = true) :
    (ofWord (.ofList (c :: rest))).IsPrintable := by
  by_cases hkeyword : String.ofList (c :: rest) ∈ keywords
  · simp only [keywords, List.mem_cons, List.not_mem_nil, or_false] at hkeyword
    rcases hkeyword with hword | hword | hword | hword | hword <;> rw [hword] <;> trivial
  · rw [ofWord_of_not_mem_keywords hkeyword]
    show IsName (String.ofList (c :: rest)).toList
    rw [String.toList_ofList]
    exact .intro hc hrest hkeyword

/-- What starts with a parenthesis, an operator or a quote is printable. -/
theorem Spelled.isPrintable_of_mem_signs (h : Spelled lexeme spelling)
    (hsign : ∀ c ∈ spelling.head?, c ∈ signs) : lexeme.IsPrintable := by
  cases h with
  | leftParen => trivial
  | rightParen => trivial
  | not => trivial
  | symbol op => trivial
  | string hquote hbody => trivial
  | @number c rest value hc hrest hvalue =>
    rcases hc with hdigit | rfl
    · have hclass := isIdentifierRest_of_isNumberRest (isNumberRest_of_isDigit hdigit)
      exact absurd (hsign c rfl) (not_mem_signs_of_isIdentifierRest hclass)
    · exact absurd (hsign '-' rfl) (by decide)
  | word hc hrest => exact isPrintable_ofWord hc hrest

/-- Digits and points with a value are a numeral, behind a digit or behind a sign that is followed
by a digit. -/
theorem isNumeral_of_ofText? {value : Binary64}
    (hc : c.isDigit = true ∨ c = '-' ∧ startsWithDigit rest = true)
    (hrest : ∀ other ∈ rest, isNumberRest other = true)
    (hvalue : Binary64.ofText? (.ofList (c :: rest)) = some value) : IsNumeral (c :: rest) := by
  simp only [isNumberRest, Bool.or_eq_true, decide_eq_true_iff] at hrest
  rcases hc with hdigit | ⟨rfl, hdigit⟩
  · exact .intro (.inl rfl) hdigit hrest
      ((Binary64.exists_ofText?_iff (.inl rfl) hdigit hrest).1 ⟨value, hvalue⟩)
  · cases rest with
    | nil => cases hdigit
    | cons d rest =>
      have hothers := (List.forall_mem_cons.1 hrest).2
      exact .intro (.inr rfl) hdigit hothers
        ((Binary64.exists_ofText?_iff (.inr rfl) hdigit hothers).1 ⟨value, hvalue⟩)

/-- What is read as a lexeme is printable. -/
theorem isPrintable_of_read (h : read c text = .ok (lexeme, after)) : lexeme.IsPrintable := by
  by_cases hsign : c ∈ signs
  · obtain ⟨spelling, -, hread⟩ := exists_isRead_of_mem_signs hsign h
    exact hread.spelled.isPrintable_of_mem_signs fun other hother ↦ Option.some.inj hother ▸ hsign
  rw [read_of_not_mem_signs hsign] at h
  split at h
  next hnumber =>
    obtain ⟨number, hfound, hpair⟩ := Except.map_eq_ok_iff.1 h
    obtain ⟨rfl, -⟩ := Prod.mk.inj hpair
    obtain ⟨value, hvalue, rfl⟩ := eq_of_ofNumber hfound
    rw [Bool.or_eq_true, Bool.and_eq_true, decide_eq_true_iff] at hnumber
    refine ⟨?_, hvalue⟩
    rw [String.toList_ofList]
    refine isNumeral_of_ofText? (hnumber.imp_right fun hminus ↦ ⟨hminus.1, ?_⟩)
      (forall_mem_takeWhile isNumberRest text) hvalue
    cases text with
    | nil => exact hminus.2
    | cons d others =>
      -- The digit behind the sign is the first character of the rest of the number.
      have hd : d.isDigit = true := hminus.2
      rw [List.takeWhile_cons_of_pos (isNumberRest_of_isDigit hd)]
      exact hd
  next =>
    split at h
    next hc =>
      obtain ⟨rfl, -⟩ := Prod.mk.inj (Except.ok.inj h)
      exact isPrintable_ofWord hc (forall_mem_takeWhile isIdentifierRest text)
    next => cases h

end Lexeme

/-! ### Texts of spellings -/

/-- A printable lexeme as it is written in a text, with the blanks behind it. -/
structure Piece where
  lexeme : Lexeme
  printable : lexeme.IsPrintable
  /-- One of the ways to write the lexeme. -/
  spelling : List Char
  spelled : spelling ∈ lexeme.spellings
  /-- What stands between this lexeme and the next one, or behind the last one. -/
  gap : List Char
  blank : ∀ c ∈ gap, Text.isBlank c = true

/-- A printable lexeme in one of its spellings, with a space behind it. -/
def Piece.spaced {lexeme : Lexeme} {spelling : List Char} (printable : lexeme.IsPrintable)
    (spelled : spelling ∈ lexeme.spellings) : Piece where
  lexeme
  printable
  spelling
  spelled
  gap := [' ']
  blank := List.all_eq_true.1 rfl

/-- A lexeme and the blanks behind it. -/
def Piece.text (piece : Piece) : List Char :=
  piece.spelling ++ piece.gap

/-- There is a blank between any two neighbours. -/
def Separated (pieces : List Piece) : Prop :=
  ∀ piece ∈ pieces.dropLast, piece.gap ≠ []

instance (pieces : List Piece) : Decidable (Separated pieces) :=
  inferInstanceAs (Decidable (∀ piece ∈ pieces.dropLast, piece.gap ≠ []))

/-- The text of some pieces, with some blanks in front. -/
def printed (margin : List Char) (pieces : List Piece) : String :=
  .ofList (margin ++ pieces.flatMap Piece.text)

/-- The lexemes of some pieces, each with the offset of the first byte of its spelling. -/
def spans (offset : Nat) : List Piece → List Spanned
  | [] => []
  | piece :: rest => ⟨piece.lexeme, offset⟩ :: spans (offset + byteLength piece.text) rest

theorem map_lexeme_spans (offset : Nat) (pieces : List Piece) :
    (spans offset pieces).map Spanned.lexeme = pieces.map Piece.lexeme := by
  induction pieces generalizing offset with
  | nil => rfl
  | cons piece pieces ih => rw [spans, List.map_cons, List.map_cons, ih]

/-- A piece at the front of a text is followed by the lexemes of the text behind it. -/
theorem scan_piece_append (piece : Piece) {after : List Char}
    (hafter : piece.gap = [] → after = []) (offset : Nat) :
    scan offset (piece.text ++ after) =
      (scan (offset + byteLength piece.text) after).map
        fun others ↦ ⟨piece.lexeme, offset⟩ :: others := by
  obtain ⟨c, rest, hspelling, hc, hread⟩ :=
    Lexeme.readsAs_of_mem_spellings piece.printable piece.spelled
  have hapart : Lexeme.Apart (piece.gap ++ after) := by
    intro d hd
    cases hgap : piece.gap with
    | nil =>
      rw [hgap, hafter hgap] at hd
      cases hd
    | cons e gap =>
      rw [hgap] at hd
      obtain rfl := Option.some.inj hd
      exact piece.blank e (hgap ▸ List.mem_cons_self)
  rw [Piece.text, List.append_assoc, hspelling, scan_append_of_read hc (hread _ hapart),
    scan_append_of_isBlank piece.blank, byteLength_append, Nat.add_assoc]

/-- A spelling with a space behind it is followed by the lexemes of the text behind that. -/
theorem scan_spaced {lexeme : Lexeme} {spelling : List Char} (hprintable : lexeme.IsPrintable)
    (hspelling : spelling ∈ lexeme.spellings) (offset : Nat) (after : List Char) :
    scan offset (spelling ++ ' ' :: after) =
      (scan (offset + byteLength (spelling ++ [' '])) after).map
        fun others ↦ ⟨lexeme, offset⟩ :: others := by
  have hgap : (Piece.spaced hprintable hspelling).gap = [] → after = [] :=
    fun h ↦ absurd h (List.cons_ne_nil _ _)
  rw [List.append_cons]
  exact scan_piece_append (.spaced hprintable hspelling) hgap offset

/-- The lexemes of some pieces are the ones that were written. -/
theorem scan_flatMap_text {pieces : List Piece} (h : Separated pieces) (offset : Nat) :
    scan offset (pieces.flatMap Piece.text) = .ok (spans offset pieces) := by
  induction pieces generalizing offset with
  | nil =>
    rw [List.flatMap_nil, scan]
    rfl
  | cons piece pieces ih =>
    have hrest : Separated pieces := by
      intro other hother
      cases pieces with
      | nil => cases hother
      | cons next pieces => exact h other (List.mem_cons_of_mem _ hother)
    -- Only the last piece may have no gap, and nothing follows it.
    have hafter : piece.gap = [] → pieces.flatMap Piece.text = [] := by
      intro hgap
      cases pieces with
      | nil => rfl
      | cons next pieces => exact absurd hgap (h piece List.mem_cons_self)
    rw [List.flatMap_cons, scan_piece_append piece hafter, ih hrest]
    rfl

/-- What is read as lexemes is printable. -/
theorem isPrintable_of_scan {offset : Nat} {text : List Char} {found : List Spanned}
    (h : scan offset text = .ok found) : ∀ spanned ∈ found, spanned.lexeme.IsPrintable := by
  fun_induction scan offset text generalizing found with
  | case1 =>
    obtain rfl := Except.ok.inj h
    exact fun _ hmem ↦ absurd hmem List.not_mem_nil
  | case2 offset c rest _ ih => exact ih h
  | case3 => cases h
  | case4 offset c rest _ lexeme after hread width =>
    rename_i ih
    obtain ⟨others, hothers, rfl⟩ := Except.map_eq_ok_iff.1 h
    exact List.forall_mem_cons.2 ⟨Lexeme.isPrintable_of_read hread, ih hothers⟩

/-- Printable lexemes can be written as a text. -/
theorem exists_pieces {found : List Lexeme} (h : ∀ lexeme ∈ found, lexeme.IsPrintable) :
    ∃ pieces, Separated pieces ∧ pieces.map Piece.lexeme = found := by
  have hgaps : ∃ pieces : List Piece,
      (∀ piece ∈ pieces, piece.gap ≠ []) ∧ pieces.map Piece.lexeme = found := by
    induction found with
    | nil => exact ⟨[], fun _ hmem ↦ absurd hmem List.not_mem_nil, rfl⟩
    | cons lexeme found ih =>
      obtain ⟨hlexeme, hfound⟩ := List.forall_mem_cons.1 h
      obtain ⟨pieces, hpieces, rfl⟩ := ih hfound
      obtain ⟨spelling, hspelling⟩ := List.exists_mem_of_ne_nil _ lexeme.spellings_ne_nil
      exact ⟨.spaced hlexeme hspelling :: pieces,
        List.forall_mem_cons.2 ⟨List.cons_ne_nil _ _, hpieces⟩, rfl⟩
  obtain ⟨pieces, hpieces, hmap⟩ := hgaps
  exact ⟨pieces, fun piece hpiece ↦ hpieces piece (List.dropLast_subset _ hpiece), hmap⟩

/-- Reading undoes printing. A text that is written from printable lexemes, in any of their
spellings and with blanks between neighbours and maybe at both ends, has these lexemes, each at the
offset of its spelling. All lexemes of any text are printable, and written again in any way they
are read as the same lexemes. Every list of printable lexemes can be written so, and among them are
the numbers of all numerals. -/
theorem lexemes_of_printed :
    (∀ margin pieces, (∀ c ∈ margin, Text.isBlank c = true) → Separated pieces →
      lexemes (printed margin pieces) = .ok (spans (byteLength margin) pieces)) ∧
    (∀ expression found, lexemes expression = .ok found →
      (∀ spanned ∈ found, spanned.lexeme.IsPrintable) ∧
      ∀ margin pieces, (∀ c ∈ margin, Text.isBlank c = true) → Separated pieces →
        pieces.map Piece.lexeme = found.map Spanned.lexeme →
          ∃ again, lexemes (printed margin pieces) = .ok again ∧
            again.map Spanned.lexeme = found.map Spanned.lexeme) ∧
    (∀ found : List Lexeme, (∀ lexeme ∈ found, lexeme.IsPrintable) →
      ∃ pieces, Separated pieces ∧ pieces.map Piece.lexeme = found) ∧
    ∀ text : String, IsNumeral text.toList →
      ∃ value, Lexeme.IsPrintable (.literal (.number value text)) := by
  have hprinted (margin : List Char) (pieces : List Piece)
      (hmargin : ∀ c ∈ margin, Text.isBlank c = true) (hpieces : Separated pieces) :
      lexemes (printed margin pieces) = .ok (spans (byteLength margin) pieces) := by
    rw [lexemes, printed, String.toList_ofList, scan_append_of_isBlank hmargin, Nat.zero_add]
    exact scan_flatMap_text hpieces _
  refine ⟨hprinted, fun expression found hfound ↦ ⟨isPrintable_of_scan hfound, ?_⟩,
    fun found ↦ exists_pieces, fun text hnumeral ↦ ?_⟩
  · intro margin pieces hmargin hpieces hsame
    exact ⟨_, hprinted margin pieces hmargin hpieces, (map_lexeme_spans _ pieces).trans hsame⟩
  · obtain ⟨value, hvalue⟩ := Binary64.exists_ofText?_of_isNumeral hnumeral
    rw [String.ofList_toList] at hvalue
    exact ⟨value, hnumeral, hvalue⟩

/-- Pieces with words and symbols, escaped characters, and blanks of several bytes. -/
def samplePieces : List Piece :=
  [{ lexeme := .not, printable := trivial, spelling := "not".toList, spelled := by decide
     gap := ['\u00A0'], blank := List.all_eq_true.1 rfl },
    { lexeme := .identifier "not.a_2"
      printable := .intro rfl (List.all_eq_true.1 rfl) (by decide)
      spelling := "not.a_2".toList, spelled := by decide
      gap := [' '], blank := List.all_eq_true.1 rfl },
    { lexeme := .operator .ne, printable := trivial, spelling := "!=".toList, spelled := by decide
      gap := ['\n', '\u2003'], blank := List.all_eq_true.1 rfl },
    { lexeme := .literal (.string "'é\\"), printable := trivial
      spelling := "'\\'é\\\\'".toList, spelled := by decide
      gap := [' '], blank := List.all_eq_true.1 rfl },
    { lexeme := .operator .and, printable := trivial, spelling := "and".toList
      spelled := by decide, gap := ['\t'], blank := List.all_eq_true.1 rfl },
    { lexeme := .literal (.number (.ofRatio true 15 10) "-1.5")
      printable :=
        ⟨.intro (.inr rfl) rfl
          (List.forall_mem_cons.2 ⟨.inr rfl, List.forall_mem_singleton.2 (.inl rfl)⟩) (by decide),
          by decide +kernel⟩
      spelling := "-1.5".toList, spelled := by decide
      gap := [], blank := List.all_eq_true.1 rfl }]

/-- These pieces are read back behind a blank of three bytes. -/
theorem sample_read_back : Separated samplePieces ∧
    lexemes (printed ['\u3000'] samplePieces) =
      .ok [⟨.not, 3⟩, ⟨.identifier "not.a_2", 8⟩, ⟨.operator .ne, 16⟩,
        ⟨.literal (.string "'é\\"), 22⟩, ⟨.operator .and, 31⟩,
        ⟨.literal (.number (.ofRatio true 15 10) "-1.5"), 35⟩] :=
  ⟨by decide, lexemes_of_printed.1 ['\u3000'] samplePieces (List.all_eq_true.1 rfl) (by decide)⟩

end BuildPlan.Gate
