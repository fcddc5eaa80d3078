import BuildPlan.Gate.Lexeme
import BuildPlan.Proofs.Outcome

/-!
# Spellings of lexemes

How each lexeme is written (`Lexeme.Spelled`): a parenthesis, the symbol of an operator, a string
between quotes, a number, or a word. A property of everything that is read is proved once for each
kind of spelling. What the parts of the reader take from a text is said here, one lemma for each.
-/

set_option autoImplicit false
set_option relaxedAutoImplicit false

namespace BuildPlan.Gate.Lexeme

/-! ### Classes of characters -/

theorem isNumberRest_of_isDigit {c : Char} (h : c.isDigit = true) : isNumberRest c = true := by
  simp [isNumberRest, h]

theorem isIdentifierRest_of_isNumberRest {c : Char} (h : isNumberRest c = true) :
    isIdentifierRest c = true := by
  simp only [isNumberRest, Bool.or_eq_true] at h
  rcases h with hdigit | hpoint
  · simp [isIdentifierRest, Char.isAlphanum, hdigit]
  · simp [isIdentifierRest, hpoint]

theorem isIdentifierRest_of_isIdentifierStart {c : Char} (h : isIdentifierStart c = true) :
    isIdentifierRest c = true := by
  rw [isIdentifierStart, Bool.or_eq_true] at h
  rcases h with hletter | hunderscore
  · simp [isIdentifierRest, Char.isAlphanum, hletter]
  · simp [isIdentifierRest, hunderscore]

/-! ### Spellings -/

/-- What stands behind the opening quote of a string, up to its closing quote, and the text that the
string stands for. -/
inductive Quoted (quote : Char) : List Char → List Char → Prop
  /-- The closing quote. -/
  | close : Quoted quote [quote] []
  /-- A backslash and the character behind it. -/
  | escape (escaped : Char) {body value : List Char} (hquote : '\\' ≠ quote)
    (rest : Quoted quote body value) :
    Quoted quote ('\\' :: escaped :: body) (unescape escaped :: value)
  /-- A character that stands for itself. -/
  | plain {c : Char} {body value : List Char} (hquote : c ≠ quote) (hescape : c ≠ '\\')
    (rest : Quoted quote body value) : Quoted quote (c :: body) (c :: value)

/-- A character that starts a string. -/
def IsQuote (c : Char) : Prop :=
  c = '\x27' ∨ c = '"'

/-- The ways to write a lexeme. -/
inductive Spelled : Lexeme → List Char → Prop
  | leftParen : Spelled .leftParen ['(']
  | rightParen : Spelled .rightParen [')']
  | not : Spelled .not ['!']
  | symbol (op : Operator) : Spelled (.operator op) op.symbol.toList
  | string {quote : Char} {body value : List Char} (hquote : IsQuote quote)
    (hbody : Quoted quote body value) :
    Spelled (.literal (.string (.ofList value))) (quote :: body)
  | number {c : Char} {rest : List Char} {value : Binary64} (hc : c.isDigit = true ∨ c = '-')
    (hrest : ∀ other ∈ rest, isNumberRest other = true)
    (hvalue : Binary64.ofText? (.ofList (c :: rest)) = some value) :
    Spelled (.literal (.number value (.ofList (c :: rest)))) (c :: rest)
  | word {c : Char} {rest : List Char} (hc : isIdentifierStart c = true)
    (hrest : ∀ other ∈ rest, isIdentifierRest other = true) :
    Spelled (ofWord (.ofList (c :: rest))) (c :: rest)

/-! ### What is read -/

/-- What is read of a string ends with its closing quote. -/
theorem exists_quoted_of_readString {quote : Char} {text value after : List Char}
    (h : readString quote text = some (value, after)) :
    ∃ body, text = body ++ after ∧ Quoted quote body value := by
  fun_induction readString quote text generalizing value with
  | case1 => cases h
  | case2 rest =>
    obtain ⟨rfl, rfl⟩ := Prod.mk.inj (Option.some.inj h)
    exact ⟨[quote], rfl, .close⟩
  | case3 => cases h
  | case4 escaped rest hquote ih =>
    obtain ⟨parts, hparts, hpair⟩ := Option.map_eq_some_iff.1 h
    obtain ⟨rfl, rfl⟩ := Prod.mk.inj hpair
    obtain ⟨body, rfl, hbody⟩ := ih hparts
    exact ⟨'\\' :: escaped :: body, rfl, .escape escaped hquote hbody⟩
  | case5 c rest hquote hescape ih =>
    obtain ⟨parts, hparts, hpair⟩ := Option.map_eq_some_iff.1 h
    obtain ⟨rfl, rfl⟩ := Prod.mk.inj hpair
    obtain ⟨body, rfl, hbody⟩ := ih hparts
    exact ⟨c :: body, rfl, .plain hquote hescape hbody⟩

theorem eq_of_after? {c : Char} {text rest : List Char} (h : after? c text = some rest) :
    text = c :: rest := by
  cases text with
  | nil => cases h
  | cons first text =>
    rw [after?] at h
    split at h
    next hfirst => rw [hfirst, Option.some.inj h]
    next => cases h

theorem eq_of_readTwice {c : Char} {op : Operator} {text after : List Char} {lexeme : Lexeme}
    (h : readTwice c op text = .ok (lexeme, after)) :
    lexeme = .operator op ∧ text = c :: after := by
  unfold readTwice at h
  split at h
  next hrest =>
    obtain ⟨rfl, rfl⟩ := Prod.mk.inj (Except.ok.inj h)
    exact ⟨rfl, eq_of_after? hrest⟩
  next => cases h

/-- A lexeme that may be followed by an equals sign is one of two. -/
theorem eq_of_readWithEquals {plain extended lexeme : Lexeme} {text after : List Char}
    (h : readWithEquals plain extended text = (lexeme, after)) :
    lexeme = extended ∧ text = '=' :: after ∨ lexeme = plain ∧ text = after := by
  unfold readWithEquals at h
  split at h
  next hrest =>
    obtain ⟨rfl, rfl⟩ := Prod.mk.inj h
    exact .inl ⟨rfl, eq_of_after? hrest⟩
  next =>
    obtain ⟨rfl, rfl⟩ := Prod.mk.inj h
    exact .inr ⟨rfl, rfl⟩

theorem eq_of_ofNumber {text : String} {lexeme : Lexeme} (h : ofNumber text = .ok lexeme) :
    ∃ value, Binary64.ofText? text = some value ∧ lexeme = .literal (.number value text) := by
  unfold ofNumber at h
  split at h
  next value hvalue => exact ⟨value, hvalue, (Except.ok.inj h).symm⟩
  next => cases h

theorem forall_mem_takeWhile (p : Char → Bool) (text : List Char) :
    ∀ c ∈ text.takeWhile p, p c = true :=
  List.all_eq_true.1 List.all_takeWhile

end BuildPlan.Gate.Lexeme
