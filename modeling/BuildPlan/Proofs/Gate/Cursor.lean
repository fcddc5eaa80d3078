import BuildPlan.Proofs.Gate.Position

/-!
# Reading lexemes with a cursor

The lexemes of a source can also be read with a cursor, which is a position in the source counted in
bytes. All that is seen of the source are slices of it: from the cursor to the end, or from the
start of a number or a word to the cursor. A slice is there only between boundaries of characters
(`Cursor.slice`), and reading halts where one is missing.

No slice is ever missing: the cursor always stands at the rest of the source that is still to be
read (`RestAt`), and so the lexemes are the same as those read from the characters themselves
(`Cursor.lexemes_eq`). The main result, `offsets_point_into_source`, joins this with where lexemes
and faults stand.
-/

set_option autoImplicit false
set_option relaxedAutoImplicit false

namespace BuildPlan.Gate

namespace Cursor

/-- Why reading with a cursor halts. -/
inductive Halt where
  /-- The source cannot be read. -/
  | malformed (error : Malformed)
  /-- The source has no slice between two positions. -/
  | noSlice (start stop : Nat)

/-! ### Slices -/

/-- The slice of a source between two positions. Both have to be boundaries of characters, and the
second must not lie in front of the first. -/
def slice (source : String) (start stop : Nat) : Except Halt (List Char) :=
  if h : (String.Pos.Raw.mk start).IsValid source ∧ (String.Pos.Raw.mk stop).IsValid source ∧
      start ≤ stop then
    .ok (source.slice (source.pos ⟨start⟩ h.1) (source.pos ⟨stop⟩ h.2.1) h.2.2).copy.toList
  else .error (.noSlice start stop)

/-- The source from the cursor on. -/
def ahead (source : String) (position : Nat) : Except Halt (List Char) :=
  slice source position source.utf8ByteSize

/-- The character at the cursor, if the source does not end there. -/
def peek (source : String) (position : Nat) : Except Halt (Option Char) :=
  (ahead source position).map List.head?

/-- The character behind the one at the cursor. -/
def peekSecond (source : String) (position : Nat) : Except Halt (Option Char) :=
  (ahead source position).map fun text ↦ text.tail.head?

variable {source : String} {position : Nat} {part text : List Char}

/-- A part of a rest of the source is a slice. -/
theorem slice_of_restAt (h : RestAt source position (part ++ text)) :
    slice source position (position + byteLength part) = .ok part := by
  obtain ⟨before, hsource, rfl⟩ := h
  have happend : source = .ofList before ++ (.ofList part ++ .ofList text) := by
    rw [← String.ofList_append, ← String.ofList_append, ← hsource, String.ofList_toList]
  have happend' : source = (.ofList before ++ .ofList part) ++ .ofList text := by
    rw [happend, String.append_assoc]
  have hstart : String.Pos.Raw.mk (byteLength before) = (String.ofList before).rawEndPos := by
    rw [byteLength_eq_utf8ByteSize]
    rfl
  have hstop : String.Pos.Raw.mk (byteLength before + byteLength part) =
      (String.ofList before ++ String.ofList part).rawEndPos := by
    rw [byteLength_eq_utf8ByteSize, byteLength_eq_utf8ByteSize, ← String.utf8ByteSize_append]
    rfl
  have hvalid := String.Pos.Raw.isValid_iff_exists_append.2 ⟨_, _, happend, hstart⟩
  have hvalid' := String.Pos.Raw.isValid_iff_exists_append.2 ⟨_, _, happend', hstop⟩
  have hsplits : (source.pos _ hvalid).Splits _ _ := ⟨happend, hstart⟩
  have hsplits' : (source.pos _ hvalid').Splits _ _ := ⟨happend', hstop⟩
  obtain ⟨_, hcopy⟩ := String.copy_slice_eq_iff_splits.2 ⟨_, _, hsplits, hsplits'⟩
  rw [slice, dif_pos ⟨hvalid, hvalid', Nat.le_add_right ..⟩]
  exact congrArg Except.ok ((congrArg String.toList hcopy).trans (String.toList_ofList ..))

/-- The source from the cursor on is the rest of the source. -/
theorem ahead_of_restAt (h : RestAt source position text) : ahead source position = .ok text := by
  have hwhole : RestAt source position (text ++ []) := by rwa [List.append_nil]
  rw [ahead, ← h.offset_add]
  exact slice_of_restAt hwhole

theorem restAt_of_ahead (h : ahead source position = .ok text) : RestAt source position text := by
  unfold ahead slice at h
  split_ifs at h with hvalid
  obtain ⟨before, after, hsource, hposition⟩ :=
    String.Pos.Raw.isValid_iff_exists_append.1 hvalid.1
  have hoffset : byteLength before.toList = position := by
    rw [byteLength_eq_utf8ByteSize, String.ofList_toList]
    exact (congrArg String.Pos.Raw.byteIdx hposition).symm
  have hrest : RestAt source position after.toList :=
    ⟨before.toList, by rw [hsource, String.toList_append], hoffset⟩
  have hahead := ahead_of_restAt hrest
  rw [ahead, slice, dif_pos hvalid] at hahead
  rwa [← Except.ok.inj (hahead.symm.trans h)]

theorem peek_of_restAt (h : RestAt source position text) :
    peek source position = .ok text.head? := by
  rw [peek, ahead_of_restAt h]
  rfl

theorem peekSecond_of_restAt (h : RestAt source position text) :
    peekSecond source position = .ok text.tail.head? := by
  rw [peekSecond, ahead_of_restAt h]
  rfl

/-- A character at the cursor is the first one of the rest of the source. -/
theorem exists_restAt_of_peek {c : Char} (h : peek source position = .ok (some c)) :
    ∃ rest, RestAt source position (c :: rest) := by
  obtain ⟨text, htext, hhead⟩ := Except.map_eq_ok_iff.1 h
  obtain ⟨rest, rfl⟩ := List.head?_eq_some_iff.1 hhead
  exact ⟨rest, restAt_of_ahead htext⟩

/-- The cursor stands at a character only in front of the end. -/
theorem lt_of_peek {c : Char} (h : peek source position = .ok (some c)) :
    position < source.utf8ByteSize := by
  obtain ⟨rest, hrest⟩ := exists_restAt_of_peek h
  have hlength := hrest.offset_add
  have hpos := byteLength_pos (List.cons_ne_nil c rest)
  omega

/-! ### Moving the cursor -/

/-- Moves the cursor behind the characters of a class. -/
def skip (p : Char → Bool) (source : String) (position : Nat) : Except Halt Nat :=
  match _ : peek source position with
  | .error halt => .error halt
  | .ok none => .ok position
  | .ok (some c) => if p c then skip p source (position + c.utf8Size) else .ok position
termination_by source.utf8ByteSize - position
decreasing_by
  have := lt_of_peek ‹_›
  have := c.utf8Size_pos
  omega

/-- Reads a string up to its closing quote. -/
def readString (quote : Char) (source : String) (position : Nat) :
    Except Halt (Option (List Char × Nat)) :=
  match _ : peek source position with
  | .error halt => .error halt
  | .ok none => .ok none
  | .ok (some c) =>
    if c = quote then .ok (some ([], position + c.utf8Size))
    else if c = '\\' then
      match peek source (position + c.utf8Size) with
      | .error halt => .error halt
      | .ok none => .ok none
      | .ok (some escaped) =>
        (readString quote source (position + c.utf8Size + escaped.utf8Size)).map
          (·.map fun parts ↦ (Lexeme.unescape escaped :: parts.1, parts.2))
    else
      (readString quote source (position + c.utf8Size)).map
        (·.map fun parts ↦ (c :: parts.1, parts.2))
termination_by source.utf8ByteSize - position
decreasing_by
  all_goals
    have := lt_of_peek ‹peek source position = _›
    have := c.utf8Size_pos
    omega

/-- Reads an operator that is one character written twice. -/
def readTwice (c : Char) (op : Operator) (source : String) (position : Nat) :
    Except Halt (Lexeme × Nat) := do
  let behind := position + c.utf8Size
  if (← peek source behind) = some c then return (.operator op, behind + c.utf8Size)
  else throw (.malformed { offset := position, fault := .halfOperator op })

/-- Reads a lexeme that is another one if an equals sign follows. -/
def readWithEquals (plain extended : Lexeme) (source : String) (behind : Nat) :
    Except Halt (Lexeme × Nat) := do
  if (← peek source behind) = some '=' then return (extended, behind + '='.utf8Size)
  else return (plain, behind)

/-- Whether a number starts at the cursor, which is at a character. -/
def startsNumber (source : String) (position : Nat) (c : Char) : Except Halt Bool := do
  if c = '-' then return (← peekSecond source position).any Char.isDigit
  else return c.isDigit

/-- Reads a number. -/
def readNumber (source : String) (position : Nat) : Except Halt (Lexeme × Nat) := do
  let first ← peek source position
  let digits := if first = some '-' then position + '-'.utf8Size else position
  let behind ← skip Lexeme.isNumberRest source digits
  match Lexeme.ofNumber (.ofList (← slice source position behind)) with
  | .ok lexeme => return (lexeme, behind)
  | .error fault => throw (.malformed { offset := position, fault })

/-- Reads a word. -/
def readWord (source : String) (position : Nat) : Except Halt (Lexeme × Nat) := do
  let behind ← skip Lexeme.isIdentifierRest source position
  return (.ofWord (.ofList (← slice source position behind)), behind)

/-- Reads the lexeme at the cursor, which is at a character, and moves the cursor behind it. -/
def read (source : String) (position : Nat) (c : Char) : Except Halt (Lexeme × Nat) := do
  let behind := position + c.utf8Size
  if c = '(' then return (.leftParen, behind)
  else if c = ')' then return (.rightParen, behind)
  else if c = '!' then readWithEquals .not (.operator .ne) source behind
  else if c = '=' then readTwice c .eq source position
  else if c = '&' then readTwice c .and source position
  else if c = '|' then readTwice c .or source position
  else if c = '<' then readWithEquals (.operator .lt) (.operator .le) source behind
  else if c = '>' then readWithEquals (.operator .gt) (.operator .ge) source behind
  else if c = '\x27' ∨ c = '"' then
    match ← readString c source behind with
    | some (text, behind) => return (.literal (.string (.ofList text)), behind)
    | none => throw (.malformed { offset := position, fault := .unterminatedString })
  else if ← startsNumber source position c then readNumber source position
  else if Lexeme.isIdentifierStart c then readWord source position
  else throw (.malformed { offset := position, fault := .unexpectedCharacter c })

/-! ### The cursor follows the rest of the source -/

/-- What is read with a cursor is what is read of the characters ahead: the same lexeme, where the
cursor then stands at what is left, or the same fault, at the start of the lexeme. -/
inductive Follows (source : String) (start : Nat) :
    Except Halt (Lexeme × Nat) → Except Fault (Lexeme × List Char) → Prop
  | lexeme (lexeme : Lexeme) (behind : Nat) (after : List Char)
    (hrest : RestAt source behind after) :
    Follows source start (.ok (lexeme, behind)) (.ok (lexeme, after))
  | fault (fault : Fault) :
    Follows source start (.error (.malformed ⟨start, fault⟩)) (.error fault)

variable {start : Nat} {p : Char → Bool} {c quote : Char}

theorem skip_of_peek_none (h : peek source position = .ok none) :
    skip p source position = .ok position := by
  rw [skip]
  split <;> simp_all

theorem skip_of_peek_some (h : peek source position = .ok (some c)) :
    skip p source position =
      if p c then skip p source (position + c.utf8Size) else .ok position := by
  rw [skip]
  split <;> simp_all

/-- The cursor is moved behind the longest front part of a class. -/
theorem skip_of_restAt (p : Char → Bool) (h : RestAt source position text) :
    skip p source position = .ok (position + byteLength (text.takeWhile p)) := by
  induction text generalizing position with
  | nil => exact skip_of_peek_none (peek_of_restAt h)
  | cons c text ih =>
    rw [skip_of_peek_some (peek_of_restAt h)]
    by_cases hc : p c
    · rw [if_pos hc, ih h.tail, List.takeWhile_cons_of_pos hc, byteLength, Nat.add_assoc]
    · rw [if_neg hc, List.takeWhile_cons_of_neg hc]
      rfl

/-- A character and the characters of a class behind it are a slice of the source. -/
theorem slice_takeWhile (p : Char → Bool) (h : RestAt source start (c :: text)) :
    slice source start (start + byteLength (c :: text.takeWhile p)) = .ok (c :: text.takeWhile p) ∧
      RestAt source (start + byteLength (c :: text.takeWhile p)) (text.dropWhile p) := by
  rw [← List.takeWhile_append_dropWhile (p := p) (l := text), ← List.cons_append] at h
  exact ⟨slice_of_restAt h, h.behind _⟩

theorem readString_of_peek_none (h : peek source position = .ok none) :
    readString quote source position = .ok none := by
  rw [readString]
  split <;> simp_all

theorem readString_of_peek_some (h : peek source position = .ok (some c)) :
    readString quote source position =
      if c = quote then .ok (some ([], position + c.utf8Size))
      else if c = '\\' then
        match peek source (position + c.utf8Size) with
        | .error halt => .error halt
        | .ok none => .ok none
        | .ok (some escaped) =>
          (readString quote source (position + c.utf8Size + escaped.utf8Size)).map
            (·.map fun parts ↦ (Lexeme.unescape escaped :: parts.1, parts.2))
      else
        (readString quote source (position + c.utf8Size)).map
          (·.map fun parts ↦ (c :: parts.1, parts.2)) := by
  rw [readString]
  split <;> simp_all

/-- What reading a string with the cursor gives, from what reading it of the characters ahead
gives. -/
def FollowsString (source : String) (found : Except Halt (Option (List Char × Nat))) :
    Option (List Char × List Char) → Prop
  | none => found = .ok none
  | some (value, after) => ∃ behind, found = .ok (some (value, behind)) ∧ RestAt source behind after

theorem FollowsString.map {found : Except Halt (Option (List Char × Nat))}
    {read : Option (List Char × List Char)} (h : FollowsString source found read) (c : Char) :
    FollowsString source (found.map (·.map fun parts ↦ (c :: parts.1, parts.2)))
      (read.map fun parts ↦ (c :: parts.1, parts.2)) := by
  cases read with
  | none =>
    obtain rfl : found = .ok none := h
    rfl
  | some parts =>
    obtain ⟨behind, rfl, hrest⟩ := h
    exact ⟨behind, rfl, hrest⟩

/-- A string is read as it is read of the characters ahead. -/
theorem readString_of_restAt (quote : Char) (h : RestAt source position text) :
    FollowsString source (readString quote source position) (Lexeme.readString quote text) := by
  fun_induction Lexeme.readString quote text generalizing position with
  | case1 => exact readString_of_peek_none (peek_of_restAt h)
  | case2 rest =>
    rw [readString_of_peek_some (peek_of_restAt h), if_pos rfl]
    exact ⟨_, rfl, h.tail⟩
  | case3 hquote =>
    rw [readString_of_peek_some (peek_of_restAt h), if_neg hquote, if_pos rfl,
      peek_of_restAt h.tail]
    rfl
  | case4 escaped rest hquote ih =>
    rw [readString_of_peek_some (peek_of_restAt h), if_neg hquote, if_pos rfl,
      peek_of_restAt h.tail]
    exact (ih h.tail.tail).map _
  | case5 c rest hquote hescape ih =>
    rw [readString_of_peek_some (peek_of_restAt h), if_neg hquote, if_neg hescape]
    exact (ih h.tail).map _

theorem readWithEquals_of_restAt {plain extended : Lexeme} (h : RestAt source position text) :
    Follows source start (readWithEquals plain extended source position)
      (.ok (Lexeme.readWithEquals plain extended text)) := by
  unfold readWithEquals
  rw [peek_of_restAt h]
  cases text with
  | nil => exact .lexeme _ _ _ h
  | cons c text =>
    change Follows source start (if some c = some '=' then _ else _) _
    by_cases hc : c = '='
    · subst hc
      exact .lexeme _ _ _ h.tail
    · rw [if_neg (fun heq ↦ hc (Option.some.inj heq)), Lexeme.readWithEquals, Lexeme.after?,
        if_neg hc]
      exact .lexeme _ _ _ h

theorem readTwice_of_restAt {op : Operator} (h : RestAt source start (c :: text)) :
    Follows source start (readTwice c op source start) (Lexeme.readTwice c op text) := by
  unfold readTwice
  dsimp only
  rw [peek_of_restAt h.tail]
  cases text with
  | nil => exact .fault _
  | cons d text =>
    change Follows source start (if some d = some c then _ else _) _
    by_cases hd : d = c
    · subst hd
      rw [if_pos rfl, Lexeme.readTwice, Lexeme.after?, if_pos rfl]
      exact .lexeme _ _ _ h.tail.tail
    · rw [if_neg (fun heq ↦ hd (Option.some.inj heq)), Lexeme.readTwice, Lexeme.after?, if_neg hd]
      exact .fault _

theorem startsNumber_of_restAt (h : RestAt source start (c :: text)) :
    startsNumber source start c = .ok (c.isDigit || (c = '-' && Lexeme.startsWithDigit text)) := by
  unfold startsNumber
  rw [peekSecond_of_restAt h]
  by_cases hc : c = '-'
  · subst hc
    cases text <;> rfl
  · rw [if_neg hc, decide_eq_false hc, Bool.false_and, Bool.or_false]
    rfl

/-- The digits of a number end where the characters of a number do, with a sign or without. -/
theorem readNumber_of_restAt (h : RestAt source start (c :: text))
    (hc : c.isDigit = true ∨ c = '-') :
    Follows source start (readNumber source start)
      ((Lexeme.ofNumber (.ofList (c :: text.takeWhile Lexeme.isNumberRest))).map
        fun lexeme ↦ (lexeme, text.dropWhile Lexeme.isNumberRest)) := by
  have hskip : skip Lexeme.isNumberRest source
      (if some c = some '-' then start + '-'.utf8Size else start) =
        .ok (start + byteLength (c :: text.takeWhile Lexeme.isNumberRest)) := by
    rcases hc with hdigit | rfl
    · have hsign : some c ≠ some '-' := by
        rintro heq
        obtain rfl := Option.some.inj heq
        cases hdigit
      rw [if_neg hsign, skip_of_restAt _ h,
        List.takeWhile_cons_of_pos (Lexeme.isNumberRest_of_isDigit hdigit)]
    · rw [if_pos rfl, skip_of_restAt _ h.tail, byteLength, Nat.add_assoc]
  obtain ⟨hslice, hrest⟩ := slice_takeWhile Lexeme.isNumberRest h
  unfold readNumber
  rw [peek_of_restAt h]
  change Follows source start (skip _ source (if some c = some '-' then _ else _) >>= _) _
  rw [hskip]
  change Follows source start (slice _ _ _ >>= _) _
  rw [hslice]
  change Follows source start (match Lexeme.ofNumber _ with | .ok _ => _ | .error _ => _) _
  cases Lexeme.ofNumber (.ofList (c :: text.takeWhile Lexeme.isNumberRest)) with
  | ok lexeme => exact .lexeme _ _ _ hrest
  | error fault => exact .fault fault

theorem readWord_of_restAt (h : RestAt source start (c :: text))
    (hc : Lexeme.isIdentifierStart c = true) :
    Follows source start (readWord source start)
      (.ok (.ofWord (.ofList (c :: text.takeWhile Lexeme.isIdentifierRest)),
        text.dropWhile Lexeme.isIdentifierRest)) := by
  have hskip : skip Lexeme.isIdentifierRest source start =
      .ok (start + byteLength (c :: text.takeWhile Lexeme.isIdentifierRest)) := by
    rw [skip_of_restAt _ h,
      List.takeWhile_cons_of_pos (Lexeme.isIdentifierRest_of_isIdentifierStart hc)]
  obtain ⟨hslice, hrest⟩ := slice_takeWhile Lexeme.isIdentifierRest h
  unfold readWord
  rw [hskip]
  change Follows source start (slice _ _ _ >>= _) _
  rw [hslice]
  exact .lexeme _ _ _ hrest

theorem read_quote_of_restAt (h : RestAt source start (c :: text)) (hquote : Lexeme.IsQuote c)
    (hread : read source start c = readString c source (start + c.utf8Size) >>= fun
      | some (text, behind) => .ok (.literal (.string (.ofList text)), behind)
      | none => .error (.malformed ⟨start, .unterminatedString⟩)) :
    Follows source start (read source start c) (Lexeme.read c text) := by
  have hstring := readString_of_restAt c h.tail
  rw [hread, Lexeme.read_quote hquote]
  cases hparts : Lexeme.readString c text with
  | none =>
    rw [hparts] at hstring
    rw [show readString c source (start + c.utf8Size) = .ok none from hstring]
    exact .fault _
  | some parts =>
    rw [hparts] at hstring
    obtain ⟨behind, hbehind, hrest⟩ := hstring
    rw [hbehind]
    exact .lexeme _ _ _ hrest

theorem read_of_not_mem_signs (h : c ∉ Lexeme.signs) : read source start c =
    startsNumber source start c >>= fun isNumber ↦
      if isNumber then readNumber source start
      else if Lexeme.isIdentifierStart c then readWord source start
      else .error (.malformed ⟨start, .unexpectedCharacter c⟩) := by
  simp only [Lexeme.signs, List.mem_cons, List.not_mem_nil, or_false, not_or] at h
  obtain ⟨hleft, hright, hnot, heq, hand, hor, hlt, hgt, hquotes⟩ := h
  unfold read
  dsimp only
  rw [if_neg hleft, if_neg hright, if_neg hnot, if_neg heq, if_neg hand, if_neg hor, if_neg hlt,
    if_neg hgt, if_neg (not_or.2 hquotes)]
  rfl

/-- A lexeme is read as it is read of the characters ahead. -/
theorem read_of_restAt (h : RestAt source start (c :: text)) :
    Follows source start (read source start c) (Lexeme.read c text) := by
  by_cases hsign : c ∈ Lexeme.signs
  · simp only [Lexeme.signs, List.mem_cons, List.not_mem_nil, or_false] at hsign
    rcases hsign with rfl | rfl | rfl | rfl | rfl | rfl | rfl | rfl | rfl | rfl
    · exact .lexeme _ _ _ h.tail
    · exact .lexeme _ _ _ h.tail
    · exact readWithEquals_of_restAt h.tail
    · exact readTwice_of_restAt h
    · exact readTwice_of_restAt h
    · exact readTwice_of_restAt h
    · exact readWithEquals_of_restAt h.tail
    · exact readWithEquals_of_restAt h.tail
    · exact read_quote_of_restAt h (.inl rfl) rfl
    · exact read_quote_of_restAt h (.inr rfl) rfl
  · rw [read_of_not_mem_signs hsign, startsNumber_of_restAt h, Lexeme.read_of_not_mem_signs hsign]
    change Follows source start (if _ then _ else _) _
    split
    next hnumber =>
      rw [Bool.or_eq_true, Bool.and_eq_true, decide_eq_true_iff] at hnumber
      exact readNumber_of_restAt h (hnumber.imp_right And.left)
    next =>
      split
      next hword => exact readWord_of_restAt h hword
      next => exact .fault _

/-! ### All lexemes -/

theorem le_of_skip {behind : Nat} (h : skip p source position = .ok behind) :
    position ≤ behind := by
  fun_induction skip p source position with
  | case1 => cases h
  | case2 =>
    obtain rfl := Except.ok.inj h
    exact Nat.le_refl _
  | case3 position c _ _ ih => exact Nat.le_trans (Nat.le_add_right ..) (ih h)
  | case4 =>
    obtain rfl := Except.ok.inj h
    exact Nat.le_refl _

/-- The cursor moves on with every lexeme. -/
theorem lt_of_read {lexeme : Lexeme} {behind : Nat} (hpeek : peek source start = .ok (some c))
    (h : read source start c = .ok (lexeme, behind)) : start < behind := by
  obtain ⟨text, hrest⟩ := exists_restAt_of_peek hpeek
  have hfollows := read_of_restAt hrest
  rw [h] at hfollows
  generalize hread : Lexeme.read c text = found at hfollows
  cases hfollows with
  | lexeme _ _ after hafter =>
    obtain ⟨hbehind, hpos⟩ := hrest.behind_read hread
    have hlength := hafter.offset_add
    have hlength' := hbehind.offset_add
    omega

/-- Reads the lexemes from the cursor on. -/
def scan (source : String) (position : Nat) : Except Halt (List Spanned) :=
  match _ : skip Text.isBlank source position with
  | .error halt => .error halt
  | .ok offset =>
    match _ : peek source offset with
    | .error halt => .error halt
    | .ok none => .ok []
    | .ok (some c) =>
      match _ : read source offset c with
      | .error halt => .error halt
      | .ok (lexeme, behind) => (scan source behind).map fun others ↦ ⟨lexeme, offset⟩ :: others
termination_by source.utf8ByteSize - position
decreasing_by
  have := le_of_skip ‹_›
  have := lt_of_peek ‹_›
  have := lt_of_read ‹_› ‹_›
  omega

/-- The lexemes of an expression. -/
def lexemes (expression : String) : Except Halt (List Spanned) :=
  scan expression 0

theorem scan_of_peek_none {offset : Nat}
    (hskip : skip Text.isBlank source position = .ok offset)
    (hpeek : peek source offset = .ok none) : scan source position = .ok [] := by
  rw [scan]
  split
  next halt hhalt => cases hskip.symm.trans hhalt
  next offset' hoffset =>
    obtain rfl := Except.ok.inj (hskip.symm.trans hoffset)
    split
    next halt hhalt => cases hpeek.symm.trans hhalt
    next => rfl
    next hsome => cases hpeek.symm.trans hsome

theorem scan_of_peek_some {offset : Nat}
    (hskip : skip Text.isBlank source position = .ok offset)
    (hpeek : peek source offset = .ok (some c)) :
    scan source position = read source offset c >>= fun found ↦
      (scan source found.2).map fun others ↦ ⟨found.1, offset⟩ :: others := by
  rw [scan]
  split
  next halt hhalt => cases hskip.symm.trans hhalt
  next offset' hoffset =>
    obtain rfl := Except.ok.inj (hskip.symm.trans hoffset)
    split
    next halt hhalt => cases hpeek.symm.trans hhalt
    next hnone => cases hpeek.symm.trans hnone
    next d hd =>
      obtain rfl := Option.some.inj (Except.ok.inj (hpeek.symm.trans hd))
      split
      next halt hread =>
        rw [hread]
        rfl
      next lexeme behind hread =>
        rw [hread]
        rfl

/-- The lexemes from the cursor on are the lexemes of the rest of the source. -/
theorem scan_of_restAt {position : Nat} {text : List Char} (h : RestAt source position text) :
    scan source position = (Gate.scan position text).mapError .malformed := by
  have hskip := skip_of_restAt Text.isBlank h
  have hrest := h.dropWhile Text.isBlank
  have hblanks : Gate.scan position text = Gate.scan
      (position + byteLength (text.takeWhile Text.isBlank)) (text.dropWhile Text.isBlank) := by
    rw [← scan_append_of_isBlank (Lexeme.forall_mem_takeWhile Text.isBlank text),
      List.takeWhile_append_dropWhile]
  have hshorter := (List.dropWhile_sublist Text.isBlank (l := text)).length_le
  have hhead := List.head?_dropWhile_not Text.isBlank text
  rw [hblanks]
  generalize position + byteLength (text.takeWhile Text.isBlank) = offset at hskip hrest ⊢
  generalize text.dropWhile Text.isBlank = rest at hrest hshorter hhead ⊢
  cases rest with
  | nil =>
    rw [scan_of_peek_none hskip (peek_of_restAt hrest), Gate.scan]
    rfl
  | cons c rest =>
    have hc : Text.isBlank c = false := by simpa using hhead
    rw [scan_of_peek_some hskip (peek_of_restAt hrest)]
    have hfollows := read_of_restAt hrest
    generalize read source offset c = found at hfollows ⊢
    generalize hread : Lexeme.read c rest = read at hfollows
    cases hfollows with
    | fault fault =>
      rw [scan_of_read_eq_error hc hread]
      rfl
    | lexeme lexeme behind after hafter =>
      obtain ⟨spelling, rfl, -⟩ := Lexeme.exists_isRead_of_read hread
      have hbehind : behind = offset + byteLength (c :: spelling) := by
        have hlength := hafter.offset_add
        have hlength' := RestAt.offset_add (hrest.behind (c :: spelling))
        omega
      have hothers := scan_of_restAt hafter
      rw [← List.cons_append, scan_append_of_read hc hread, ← hbehind]
      change (scan source behind).map _ = _
      rw [hothers]
      cases Gate.scan behind after <;> rfl
termination_by text.length
decreasing_by
  simp only [List.length_cons, List.length_append] at hshorter
  omega

/-- Reading with a cursor gives the lexemes of an expression, and no slice is missing. -/
theorem lexemes_eq (expression : String) :
    lexemes expression = (Gate.lexemes expression).mapError .malformed :=
  scan_of_restAt (restAt_zero expression)

end Cursor

/-- Offsets point into the source. The lexemes of a source stand at larger and larger offsets, each
of which is a boundary of characters in front of the end, with a character there that is not blank.
If the source is no gate, the error is that it is malformed, at its end or at such a boundary. And
reading the lexemes with a cursor gives the same, so no slice that is taken on the way lies outside
of the source or begins or ends inside of a character. -/
theorem offsets_point_into_source (source : String) :
    (∀ found, lexemes source = .ok found →
      (found.map Spanned.offset).Pairwise (· < ·) ∧
        ∀ spanned ∈ found, spanned.offset < source.utf8ByteSize ∧ InkAt source spanned.offset) ∧
    (∀ error, compile source = .error error → ∃ malformed,
      error = .malformed source malformed ∧
        (malformed.offset = source.utf8ByteSize ∨ InkAt source malformed.offset)) ∧
    Cursor.lexemes source = (lexemes source).mapError .malformed ∧
    ∀ start stop, Cursor.lexemes source ≠ .error (.noSlice start stop) := by
  have hcursor := Cursor.lexemes_eq source
  refine ⟨?lexemes, fun error h ↦ exists_malformed_of_compile h, hcursor, ?slices⟩
  case lexemes =>
    intro found hfound
    have hstart := restAt_zero source
    refine ⟨hstart.pairwise_offset_of_scan hfound, fun spanned hmem ↦ ?_⟩
    have hink := hstart.inkAt_of_scan.1 found hfound spanned hmem
    exact ⟨hink.lt, hink⟩
  case slices =>
    intro start stop h
    rw [hcursor] at h
    cases hlexemes : lexemes source with
    | ok found =>
      rw [hlexemes] at h
      cases h
    | error error =>
      rw [hlexemes] at h
      cases h

end BuildPlan.Gate
