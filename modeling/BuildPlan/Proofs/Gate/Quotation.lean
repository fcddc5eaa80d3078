import BuildPlan.Proofs.Gate.Reading

/-!
# Quotation in gate expressions

A string starts at a quote outside of all strings and ends at the next quote of the same kind that
has no backslash in front. So reading a text from left to right tells at every place whether it is
inside of a string (`Quotation`).

Inside of a string any character may stand. Outside of strings the lexemes of an expression consist
of few characters: blanks, the characters of the operators, parentheses, quotes, and those of
numbers and words (`isSyntax`). The main result is that a text with any other character outside of
its strings has no lexemes (`isSyntax_of_lexemes`).
-/

set_option autoImplicit false
set_option relaxedAutoImplicit false

namespace BuildPlan.Gate

/-- Where a character stands. -/
inductive Quotation where
  /-- Outside of all strings. -/
  | outside
  /-- Inside of a string with a quote. -/
  | within (quote : Char)
  /-- Behind a backslash inside of a string. -/
  | escaped (quote : Char)
  deriving DecidableEq

namespace Quotation

/-- Where the next character stands. -/
def step : Quotation → Char → Quotation
  | .outside, c => if c = '\x27' ∨ c = '"' then .within c else .outside
  | .within quote, c =>
    if c = quote then .outside else if c = '\\' then .escaped quote else .within quote
  | .escaped quote, _ => .within quote

/-- Where a character stands behind some text, from where the text starts. -/
def run (start : Quotation) (text : List Char) : Quotation :=
  text.foldl step start

theorem run_cons (start : Quotation) (c : Char) (rest : List Char) :
    start.run (c :: rest) = (start.step c).run rest :=
  rfl

end Quotation

/-- The characters of operators, parentheses and quotes, and the sign of a number. -/
def marks : List Char :=
  ['(', ')', '!', '=', '&', '|', '<', '>', '\x27', '"', '-']

/-- A character that may stand outside of strings. -/
def isSyntax (c : Char) : Bool :=
  Text.isBlank c || decide (c ∈ marks) || Lexeme.isIdentifierRest c

/-- Outside of strings there are only characters of the syntax, from where the text starts. -/
def Clean : Quotation → List Char → Prop
  | _, [] => True
  | start, c :: rest => (start = .outside → isSyntax c = true) ∧ Clean (start.step c) rest

@[simp]
theorem clean_within {quote c : Char} {rest : List Char} :
    Clean (.within quote) (c :: rest) ↔ Clean ((Quotation.within quote).step c) rest := by
  simp [Clean]

@[simp]
theorem clean_escaped {quote c : Char} {rest : List Char} :
    Clean (.escaped quote) (c :: rest) ↔ Clean (.within quote) rest := by
  simp [Clean, Quotation.step]

theorem clean_append {start : Quotation} {front back : List Char} :
    Clean start (front ++ back) ↔ Clean start front ∧ Clean (start.run front) back := by
  induction front generalizing start with
  | nil => simp [Clean, Quotation.run]
  | cons c front ih =>
    rw [List.cons_append, Clean, Clean, ih, and_assoc]
    rfl

/-- A lexeme leaves the reader outside of strings, and shows only characters of the syntax there. -/
def Closed (text : List Char) : Prop :=
  Clean .outside text ∧ Quotation.outside.run text = .outside

/-- Characters of the syntax other than the quotes. -/
def isPlain (c : Char) : Bool :=
  isSyntax c && c != '\x27' && c != '"'

theorem isSyntax_of_isPlain {c : Char} (h : isPlain c = true) : isSyntax c = true := by
  simp only [isPlain, Bool.and_eq_true] at h
  exact h.1.1

/-- A text of plain characters holds no string. -/
theorem closed_of_isPlain {text : List Char} (h : text.all isPlain = true) : Closed text := by
  induction text with
  | nil => exact ⟨trivial, rfl⟩
  | cons c text ih =>
    rw [List.all_cons, Bool.and_eq_true] at h
    obtain ⟨hc, htext⟩ := h
    simp only [isPlain, Bool.and_eq_true, bne_iff_ne] at hc
    have hstep : Quotation.outside.step c = .outside :=
      if_neg (not_or.2 ⟨hc.1.2, hc.2⟩)
    obtain ⟨hclean, hrun⟩ := ih htext
    refine ⟨⟨fun _ ↦ hc.1.1, ?_⟩, ?_⟩
    · rwa [hstep]
    · rwa [Quotation.run_cons, hstep]

/-- A class of characters of the syntax is plain if the quotes are not in it. -/
theorem isPlain_of_class {p : Char → Bool} {c : Char} (hc : p c = true)
    (hvalid : isSyntax c = true) (hquote : p '\x27' = false) (hdouble : p '"' = false) :
    isPlain c = true := by
  have hne : c ≠ '\x27' := by
    rintro rfl
    exact absurd (hc.symm.trans hquote) (by decide)
  have hne' : c ≠ '"' := by
    rintro rfl
    exact absurd (hc.symm.trans hdouble) (by decide)
  simp [isPlain, hvalid, hne, hne']

theorem isPlain_of_isBlank {c : Char} (h : Text.isBlank c = true) : isPlain c = true :=
  isPlain_of_class h (by simp [isSyntax, h]) (by decide) (by decide)

theorem isPlain_of_isIdentifierRest {c : Char} (h : Lexeme.isIdentifierRest c = true) :
    isPlain c = true :=
  isPlain_of_class h (by simp [isSyntax, h]) (by decide) (by decide)

theorem isPlain_of_isNumberRest {c : Char} (h : Lexeme.isNumberRest c = true) :
    isPlain c = true :=
  isPlain_of_isIdentifierRest (Lexeme.isIdentifierRest_of_isNumberRest h)

/-! ### Lexemes are closed -/

namespace Lexeme

/-- The rest of a string ends outside of it, and shows nothing outside. -/
theorem Quoted.clean {quote : Char} {body value : List Char} (h : Quoted quote body value) :
    Clean (.within quote) body ∧ (Quotation.within quote).run body = .outside := by
  induction h with
  | close =>
    refine ⟨clean_within.2 trivial, ?_⟩
    simp [Quotation.run, Quotation.step]
  | escape escaped hquote _ ih =>
    have hstep : (Quotation.within quote).step '\\' = .escaped quote := by
      simp [Quotation.step, hquote]
    rw [clean_within, Quotation.run_cons, hstep, clean_escaped]
    exact ih
  | @plain c _ _ hquote hescape _ ih =>
    have hstep : (Quotation.within quote).step c = .within quote := by
      simp [Quotation.step, hquote, hescape]
    rwa [clean_within, Quotation.run_cons, hstep]

theorem isSyntax_of_isQuote {c : Char} (h : IsQuote c) : isSyntax c = true := by
  rcases h with rfl | rfl <;> decide

theorem closed_of_quoted {quote : Char} {body value : List Char} (hquote : IsQuote quote)
    (h : Quoted quote body value) : Closed (quote :: body) := by
  have hstep : Quotation.outside.step quote = .within quote := if_pos hquote
  obtain ⟨hclean, hrun⟩ := h.clean
  refine ⟨⟨fun _ ↦ isSyntax_of_isQuote hquote, ?_⟩, ?_⟩
  · rwa [hstep]
  · rwa [Quotation.run_cons, hstep]

theorem isPlain_of_number {c : Char} (h : c.isDigit = true ∨ c = '-') :
    isPlain c = true := by
  rcases h with hdigit | rfl
  · exact isPlain_of_isNumberRest (isNumberRest_of_isDigit hdigit)
  · decide

theorem isPlain_of_isIdentifierStart {c : Char} (h : isIdentifierStart c = true) :
    isPlain c = true :=
  isPlain_of_isIdentifierRest (isIdentifierRest_of_isIdentifierStart h)

theorem ofWord_ne_string (word text : String) : ofWord word ≠ .literal (.string text) := by
  grind [ofWord]

/-- A lexeme is a string between quotes, or none and written with plain characters. -/
theorem Spelled.isString_or_isPlain {lexeme : Lexeme} {spelling : List Char}
    (h : Spelled lexeme spelling) :
    (∃ quote body value, IsQuote quote ∧ Quoted quote body value ∧ spelling = quote :: body ∧
      lexeme = .literal (.string (.ofList value))) ∨
    spelling.all isPlain = true ∧ ∀ text, lexeme ≠ .literal (.string text) := by
  cases h with
  | leftParen => exact .inr ⟨by decide, nofun⟩
  | rightParen => exact .inr ⟨by decide, nofun⟩
  | not => exact .inr ⟨by decide, nofun⟩
  | symbol op =>
    refine .inr ⟨?_, nofun⟩
    cases op <;> decide
  | string hquote hbody => exact .inl ⟨_, _, _, hquote, hbody, rfl, rfl⟩
  | number hc hrest =>
    have hplain := List.all_eq_true.2 fun other hother ↦
      isPlain_of_isNumberRest (hrest other hother)
    exact .inr ⟨by rw [List.all_cons, isPlain_of_number hc, hplain]; rfl, nofun⟩
  | word hc hrest =>
    have hplain := List.all_eq_true.2 fun other hother ↦
      isPlain_of_isIdentifierRest (hrest other hother)
    exact .inr ⟨by rw [List.all_cons, isPlain_of_isIdentifierStart hc, hplain]; rfl,
      ofWord_ne_string _⟩

/-- Every lexeme is closed. -/
theorem Spelled.closed {lexeme : Lexeme} {spelling : List Char} (h : Spelled lexeme spelling) :
    Closed spelling := by
  rcases h.isString_or_isPlain with ⟨_, _, _, hquote, hbody, rfl, -⟩ | ⟨hplain, -⟩
  · exact closed_of_quoted hquote hbody
  · exact closed_of_isPlain hplain

end Lexeme

/-- The lexemes of a text leave only characters of the syntax outside of its strings. -/
theorem clean_of_scan {offset : Nat} {text : List Char} {found : List Spanned}
    (h : scan offset text = .ok found) : Clean .outside text := by
  fun_induction scan offset text generalizing found with
  | case1 => trivial
  | case2 offset c rest hblank ih =>
    have hplain : [c].all isPlain = true := by
      rw [List.all_cons, isPlain_of_isBlank hblank]
      rfl
    obtain ⟨hclean, hrun⟩ := closed_of_isPlain hplain
    rw [← List.singleton_append, clean_append, hrun]
    exact ⟨hclean, ih h⟩
  | case3 => cases h
  | case4 offset c rest _ lexeme after hread width =>
    rename_i ih
    obtain ⟨others, hothers, -⟩ := Except.map_eq_ok_iff.1 h
    obtain ⟨spelling, rfl, hreads⟩ := Lexeme.exists_isRead_of_read hread
    obtain ⟨hclean, hrun⟩ := hreads.spelled.closed
    rw [← List.cons_append, clean_append, hrun]
    exact ⟨hclean, ih hothers⟩

/-- Where an expression has lexemes, every character outside of strings belongs to the syntax. -/
theorem isSyntax_of_lexemes {expression : String} {found : List Spanned}
    (h : lexemes expression = .ok found) {front back : List Char} {c : Char}
    (htext : expression.toList = front ++ c :: back)
    (hfront : Quotation.outside.run front = .outside) : isSyntax c = true := by
  have hclean := clean_of_scan h
  rw [htext, clean_append, hfront] at hclean
  exact hclean.2.1 rfl

end BuildPlan.Gate
