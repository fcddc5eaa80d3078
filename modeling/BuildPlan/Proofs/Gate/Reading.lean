import BuildPlan.Proofs.Gate.Spelling

/-!
# Reading lexemes

What is read of a text as a lexeme is a spelling of that lexeme at the front of the text. It is read
without regard to what comes after it but for one character: the first one that is not a part of
it. So the same lexeme is read in front of every text with the same first character
(`Lexeme.exists_isRead_of_read`). A string does not depend even on that, since its closing quote
ends it: whatever a string may hold, it is read back as the text that it stands for
(`Lexeme.readString_append`, `Lexeme.read_quoted`).

For all lexemes of a text this means that the reading of a text is the reading of its first lexeme
and the reading of the rest, at a later offset (`scan_append_of_read`).
-/

set_option autoImplicit false
set_option relaxedAutoImplicit false

namespace BuildPlan.Gate

namespace Lexeme

/-! ### Strings -/

variable {quote : Char} {body value text after after' spelling : List Char}

/-- A string is read up to its closing quote, whatever follows. -/
theorem readString_append (h : Quoted quote body value) (after : List Char) :
    readString quote (body ++ after) = some (value, after) := by
  induction h with
  | close =>
    rw [List.singleton_append, readString.eq_def]
    exact if_pos rfl
  | escape escaped hquote _ ih =>
    rw [List.cons_append, List.cons_append, readString.eq_def]
    dsimp only
    rw [if_neg hquote, if_pos rfl, ih, Option.map_some]
  | plain hquote hescape _ ih =>
    rw [List.cons_append, readString.eq_def]
    dsimp only
    rw [if_neg hquote, if_neg hescape, ih, Option.map_some]

/-- A text without the quote and without backslashes stands for itself between quotes. -/
theorem quoted_append_quote (h : ∀ c ∈ text, c ≠ quote ∧ c ≠ '\\') :
    Quoted quote (text ++ [quote]) text := by
  induction text with
  | nil => exact .close
  | cons c text ih =>
    obtain ⟨⟨hquote, hescape⟩, hrest⟩ := List.forall_mem_cons.1 h
    exact .plain hquote hescape (ih hrest)

/-- A string without backslashes stands for what is between its quotes, where the quote does not
occur. -/
theorem Quoted.eq_append_quote (h : Quoted quote body value) (hescape : '\\' ∉ body) :
    body = value ++ [quote] ∧ quote ∉ value := by
  induction h with
  | close => exact ⟨rfl, List.not_mem_nil⟩
  | escape escaped _ _ _ => exact absurd List.mem_cons_self hescape
  | plain hquote _ _ ih =>
    obtain ⟨hbody, hvalue⟩ := ih fun hmem ↦ hescape (List.mem_cons_of_mem _ hmem)
    refine ⟨congrArg (List.cons _) hbody, ?_⟩
    rw [List.mem_cons, not_or]
    exact ⟨fun h ↦ hquote h.symm, hvalue⟩

/-- A quote starts a string. -/
theorem read_quote (hquote : IsQuote quote) (text : List Char) :
    read quote text = match readString quote text with
      | some (value, rest) => .ok (.literal (.string (.ofList value)), rest)
      | none => .error .unterminatedString := by
  rcases hquote with rfl | rfl <;> rfl

/-- A quoted text is read as a string, whatever follows. -/
theorem read_quoted (hquote : IsQuote quote) (hbody : Quoted quote body value)
    (after : List Char) :
    read quote (body ++ after) = .ok (.literal (.string (.ofList value)), after) := by
  rw [read_quote hquote, readString_append hbody]

/-! ### Lexemes that end at the first character behind them -/

/-- A class of characters is read up to the first character outside of it. -/
theorem span_append {p : Char → Bool} (hspan : (spelling ++ after).dropWhile p = after)
    (hhead : after'.head? = after.head?) :
    (spelling ++ after').takeWhile p = (spelling ++ after).takeWhile p ∧
      (spelling ++ after').dropWhile p = after' := by
  have hsplit := List.takeWhile_append_dropWhile (p := p) (l := spelling ++ after)
  rw [hspan] at hsplit
  have hspelling : (spelling ++ after).takeWhile p = spelling := List.append_cancel_right hsplit
  have hinside : ∀ c ∈ spelling, p c = true := by
    rw [← hspelling]
    exact List.all_eq_true.1 List.all_takeWhile
  have hstops : after'.takeWhile p = [] ∧ after'.dropWhile p = after' := by
    cases after' with
    | nil => exact ⟨rfl, rfl⟩
    | cons c rest =>
      cases after with
      | nil => cases hhead
      | cons d others =>
        obtain rfl := Option.some.inj hhead
        have hc : p c = false := by
          by_contra hc
          rw [List.dropWhile_append_of_pos hinside,
            List.dropWhile_cons_of_pos (by simpa using hc)] at hspan
          have hlength := congrArg List.length hspan
          have hshorter := (List.dropWhile_sublist p (l := others)).length_le
          rw [List.length_cons] at hlength
          omega
        exact ⟨List.takeWhile_cons_of_neg (by simp [hc]), List.dropWhile_cons_of_neg (by simp [hc])⟩
  rw [List.takeWhile_append_of_pos hinside, List.dropWhile_append_of_pos hinside, hstops.1,
    hstops.2, hspelling, List.append_nil]
  exact ⟨rfl, rfl⟩

theorem after?_eq_none_iff {c : Char} : after? c text = none ↔ text.head? ≠ some c := by
  cases text with
  | nil => simp [after?]
  | cons first text => simp [after?]

/-- A lexeme without an equals sign is read in front of every text with the same first
character. -/
theorem readWithEquals_of_head? {plain extended lexeme : Lexeme}
    (h : readWithEquals plain extended after = (lexeme, after))
    (hhead : after'.head? = after.head?) :
    readWithEquals plain extended after' = (lexeme, after') := by
  unfold readWithEquals at h
  split at h
  next rest hrest =>
    obtain ⟨-, rfl⟩ := Prod.mk.inj h
    exact absurd (length_lt_of_after? hrest) (Nat.lt_irrefl _)
  next hnone =>
    obtain ⟨rfl, -⟩ := Prod.mk.inj h
    rw [after?_eq_none_iff, ← hhead, ← after?_eq_none_iff] at hnone
    rw [readWithEquals, hnone]

theorem startsWithDigit_append (hhead : after'.head? = after.head?) :
    startsWithDigit (spelling ++ after') = startsWithDigit (spelling ++ after) := by
  cases spelling with
  | cons c spelling => rfl
  | nil =>
    cases after' with
    | nil =>
      cases after with
      | nil => rfl
      | cons d others => cases hhead
    | cons c rest =>
      cases after with
      | nil => cases hhead
      | cons d others =>
        obtain rfl := Option.some.inj hhead
        rfl

/-! ### Reading one lexeme -/

/-- A character and the spelling behind it are read as a lexeme in front of a text, and of every
other one with the same first character. -/
structure IsRead (c : Char) (spelling after : List Char) (lexeme : Lexeme) : Prop where
  /-- The lexeme is written so. -/
  spelled : Spelled lexeme (c :: spelling)
  /-- What stands behind the lexeme matters by its first character alone. -/
  read_eq : ∀ after', after'.head? = after.head? →
    read c (spelling ++ after') = .ok (lexeme, after')

variable {c : Char} {lexeme : Lexeme}

/-- The characters that start parentheses, operators and strings. -/
def signs : List Char :=
  ['(', ')', '!', '=', '&', '|', '<', '>', '\x27', '"']

/-- Every other character starts a number or a word. -/
theorem read_of_not_mem_signs (h : c ∉ signs) (text : List Char) :
    read c text =
      if c.isDigit || (c = '-' && startsWithDigit text) then
        (ofNumber (.ofList (c :: text.takeWhile isNumberRest))).map fun lexeme ↦
          (lexeme, text.dropWhile isNumberRest)
      else if isIdentifierStart c then
        .ok (ofWord (.ofList (c :: text.takeWhile isIdentifierRest)),
          text.dropWhile isIdentifierRest)
      else .error (.unexpectedCharacter c) := by
  simp only [signs, List.mem_cons, List.not_mem_nil, or_false, not_or] at h
  obtain ⟨hleft, hright, hnot, heq, hand, hor, hlt, hgt, hquotes⟩ := h
  rw [read, if_neg hleft, if_neg hright, if_neg hnot, if_neg heq, if_neg hand, if_neg hor,
    if_neg hlt, if_neg hgt, if_neg (not_or.2 hquotes)]

/-- What a parenthesis, an operator or a string is read from. -/
theorem exists_isRead_of_mem_signs (hc : c ∈ signs) (h : read c text = .ok (lexeme, after)) :
    ∃ spelling, text = spelling ++ after ∧ IsRead c spelling after lexeme := by
  have hparenthesis {found : Lexeme} (hfound : Spelled found [c])
      (hread : ∀ text, read c text = .ok (found, text)) :
      ∃ spelling, text = spelling ++ after ∧ IsRead c spelling after lexeme := by
    rw [hread] at h
    obtain ⟨rfl, rfl⟩ := Prod.mk.inj (Except.ok.inj h)
    exact ⟨[], rfl, hfound, fun after' _ ↦ hread after'⟩
  have hequals {plain extended : Lexeme} (hplain : Spelled plain [c])
      (hextended : Spelled extended [c, '='])
      (hread : ∀ text, read c text = .ok (readWithEquals plain extended text)) :
      ∃ spelling, text = spelling ++ after ∧ IsRead c spelling after lexeme := by
    rw [hread] at h
    have hpair := Except.ok.inj h
    rcases eq_of_readWithEquals hpair with ⟨rfl, rfl⟩ | ⟨rfl, rfl⟩
    · exact ⟨['='], rfl, hextended, fun after' _ ↦ (hread _).trans rfl⟩
    · refine ⟨[], rfl, hplain, fun after' hhead ↦ ?_⟩
      rw [hread]
      exact congrArg _ (readWithEquals_of_head? hpair hhead)
  have htwice {op : Operator} (hop : Spelled (.operator op) [c, c])
      (hread : ∀ text, read c text = readTwice c op text) :
      ∃ spelling, text = spelling ++ after ∧ IsRead c spelling after lexeme := by
    rw [hread] at h
    obtain ⟨rfl, rfl⟩ := eq_of_readTwice h
    refine ⟨[c], rfl, hop, fun after' _ ↦ ?_⟩
    rw [hread, readTwice, List.singleton_append, after?, if_pos rfl]
  have hstring (hquote : IsQuote c) :
      ∃ spelling, text = spelling ++ after ∧ IsRead c spelling after lexeme := by
    rw [read_quote hquote] at h
    split at h
    next value rest hvalue =>
      obtain ⟨rfl, rfl⟩ := Prod.mk.inj (Except.ok.inj h)
      obtain ⟨body, rfl, hbody⟩ := exists_quoted_of_readString hvalue
      exact ⟨body, rfl, .string hquote hbody, fun after' _ ↦ read_quoted hquote hbody after'⟩
    next => cases h
  simp only [signs, List.mem_cons, List.not_mem_nil, or_false] at hc
  rcases hc with rfl | rfl | rfl | rfl | rfl | rfl | rfl | rfl | rfl | rfl
  · exact hparenthesis .leftParen fun _ ↦ rfl
  · exact hparenthesis .rightParen fun _ ↦ rfl
  · exact hequals .not (.symbol .ne) fun _ ↦ rfl
  · exact htwice (.symbol .eq) fun _ ↦ rfl
  · exact htwice (.symbol .and) fun _ ↦ rfl
  · exact htwice (.symbol .or) fun _ ↦ rfl
  · exact hequals (.symbol .lt) (.symbol .le) fun _ ↦ rfl
  · exact hequals (.symbol .gt) (.symbol .ge) fun _ ↦ rfl
  · exact hstring (.inl rfl)
  · exact hstring (.inr rfl)

/-- What is read as a lexeme is a spelling of it, which is read in the same way in front of every
text with the same first character. -/
theorem exists_isRead_of_read (h : read c text = .ok (lexeme, after)) :
    ∃ spelling, text = spelling ++ after ∧ IsRead c spelling after lexeme := by
  by_cases hsign : c ∈ signs
  · exact exists_isRead_of_mem_signs hsign h
  rw [read_of_not_mem_signs hsign] at h
  split at h
  next hnumber =>
    obtain ⟨number, hfound, hpair⟩ := Except.map_eq_ok_iff.1 h
    obtain ⟨rfl, hdrop⟩ := Prod.mk.inj hpair
    have htext : text = text.takeWhile isNumberRest ++ after := by
      rw [← hdrop, List.takeWhile_append_dropWhile]
    refine ⟨text.takeWhile isNumberRest, htext, ?_, fun after' hhead ↦ ?_⟩
    · obtain ⟨value, hvalue, rfl⟩ := eq_of_ofNumber hfound
      rw [Bool.or_eq_true, Bool.and_eq_true, decide_eq_true_iff] at hnumber
      exact .number (hnumber.imp_right And.left) (forall_mem_takeWhile isNumberRest text) hvalue
    · rw [htext] at hnumber hdrop hfound
      obtain ⟨htake, hrest⟩ := span_append hdrop hhead
      rw [read_of_not_mem_signs hsign, startsWithDigit_append hhead, if_pos hnumber, htake, hrest,
        hfound]
      rfl
  next hnumber =>
    split at h
    next hword =>
      obtain ⟨rfl, hdrop⟩ := Prod.mk.inj (Except.ok.inj h)
      have htext : text = text.takeWhile isIdentifierRest ++ after := by
        rw [← hdrop, List.takeWhile_append_dropWhile]
      refine ⟨text.takeWhile isIdentifierRest, htext,
        .word hword (forall_mem_takeWhile isIdentifierRest text), fun after' hhead ↦ ?_⟩
      rw [htext] at hnumber hdrop
      obtain ⟨htake, hrest⟩ := span_append hdrop hhead
      rw [read_of_not_mem_signs hsign, startsWithDigit_append hhead, if_neg hnumber, if_pos hword,
        htake, hrest, ← htext]
    next => cases h

end Lexeme

/-! ### The first lexeme and the others -/

/-- A blank in front of a text has no part in its lexemes. -/
theorem scan_cons_of_isBlank {c : Char} (h : Text.isBlank c = true) (offset : Nat)
    (rest : List Char) : scan offset (c :: rest) = scan (offset + c.utf8Size) rest := by
  rw [scan, if_pos h]

/-- Blanks in front of a text have no part in its lexemes. -/
theorem scan_append_of_isBlank {margin : List Char} (h : ∀ c ∈ margin, Text.isBlank c = true)
    (offset : Nat) (text : List Char) :
    scan offset (margin ++ text) = scan (offset + byteLength margin) text := by
  induction margin generalizing offset with
  | nil => rfl
  | cons c margin ih =>
    obtain ⟨hc, hmargin⟩ := List.forall_mem_cons.1 h
    rw [List.cons_append, scan_cons_of_isBlank hc, ih hmargin, byteLength, Nat.add_assoc]

/-- A text whose first lexeme cannot be read is at fault where that lexeme starts. -/
theorem scan_of_read_eq_error {c : Char} {rest : List Char} {fault : Fault}
    (hblank : Text.isBlank c = false) (hread : Lexeme.read c rest = .error fault) (offset : Nat) :
    scan offset (c :: rest) = .error { offset, fault } := by
  rw [scan, if_neg (by simp [hblank])]
  split
  next fault' hfault =>
    obtain rfl := Except.error.inj (hfault.symm.trans hread)
    rfl
  next hfound => cases hfound.symm.trans hread

/-- The first lexeme of a text is followed by the lexemes of the text behind it. -/
theorem scan_append_of_read {c : Char} {spelling after : List Char} {lexeme : Lexeme}
    (hblank : Text.isBlank c = false)
    (hread : Lexeme.read c (spelling ++ after) = .ok (lexeme, after)) (offset : Nat) :
    scan offset (c :: spelling ++ after) =
      (scan (offset + byteLength (c :: spelling)) after).map
        fun others ↦ ⟨lexeme, offset⟩ :: others := by
  have hwidth : byteLength (c :: spelling ++ after) - byteLength after =
      byteLength (c :: spelling) := by
    rw [byteLength_append, Nat.add_sub_cancel]
  rw [List.cons_append] at hwidth ⊢
  rw [scan, if_neg (by simp [hblank])]
  split
  next fault hfault =>
    rw [hread] at hfault
    cases hfault
  next found rest hfound =>
    rw [hread] at hfound
    obtain ⟨rfl, rfl⟩ := Prod.mk.inj (Except.ok.inj hfound)
    simp only [hwidth]

/-- The lexemes of a text start at or behind the offset of the text. -/
theorem le_offset_of_scan {offset : Nat} {text : List Char} {found : List Spanned}
    (h : scan offset text = .ok found) : ∀ spanned ∈ found, offset ≤ spanned.offset := by
  fun_induction scan offset text generalizing found with
  | case1 =>
    obtain rfl := Except.ok.inj h
    exact fun _ hmem ↦ absurd hmem List.not_mem_nil
  | case2 offset c rest _ ih =>
    intro spanned hmem
    exact Nat.le_trans (Nat.le_add_right _ _) (ih h spanned hmem)
  | case3 => cases h
  | case4 offset c rest _ lexeme after hread width =>
    rename_i ih
    obtain ⟨others, hothers, rfl⟩ := Except.map_eq_ok_iff.1 h
    intro spanned hmem
    rcases List.mem_cons.1 hmem with rfl | hmem
    · exact Nat.le_refl _
    · exact Nat.le_trans (Nat.le_add_right _ _) (ih hothers spanned hmem)

end BuildPlan.Gate
