import BuildPlan.Gate.Basic
import BuildPlan.Proofs.Gate.Parsing
import BuildPlan.Proofs.Gate.Reading

/-!
# Where lexemes and faults stand

Lexemes and faults have offsets, which are counted in bytes. The offset of a lexeme, and of a fault
that is found while lexemes are read, is that of a character that is not blank (`InkAt`): of the
first one of a lexeme. Later lexemes have larger offsets (`pairwise_offset_of_scan`). A fault that is
found while an expression is read stands at a lexeme or at the end of the text (`standsIn_of_parse`).
-/

set_option autoImplicit false
set_option relaxedAutoImplicit false

namespace BuildPlan.Gate

/-! ### Offsets of a text -/

/-- An offset is that of a character of the source that is not blank. Positions of a text are
boundaries of its characters. -/
def InkAt (source : String) (offset : Nat) : Prop :=
  ∃ (position : source.Pos) (hcharacter : position ≠ source.endPos),
    position.offset.byteIdx = offset ∧ Text.isBlank (position.get hcharacter) = false

/-- Some text is the rest of the source from an offset on. -/
def RestAt (source : String) (offset : Nat) (text : List Char) : Prop :=
  ∃ before, source.toList = before ++ text ∧ byteLength before = offset

variable {source : String} {offset : Nat} {text : List Char}

theorem byteLength_eq_utf8ByteSize (text : List Char) :
    byteLength text = (String.ofList text).utf8ByteSize := by
  induction text with
  | nil => rfl
  | cons c text ih =>
    rw [byteLength, ih, ← List.singleton_append, String.ofList_append, String.utf8ByteSize_append,
      ← String.singleton_eq_ofList, String.utf8ByteSize_singleton]

theorem restAt_zero (source : String) : RestAt source 0 source.toList :=
  ⟨[], rfl, rfl⟩

/-- The rest of the source goes on behind a part of it. -/
theorem RestAt.behind (part : List Char) (h : RestAt source offset (part ++ text)) :
    RestAt source (offset + byteLength part) text := by
  obtain ⟨before, hsource, rfl⟩ := h
  exact ⟨before ++ part, by rw [hsource, List.append_assoc], byteLength_append before part⟩

theorem RestAt.tail {c : Char} (h : RestAt source offset (c :: text)) :
    RestAt source (offset + c.utf8Size) text :=
  h.behind [c]

theorem RestAt.dropWhile (h : RestAt source offset text) (p : Char → Bool) :
    RestAt source (offset + byteLength (text.takeWhile p)) (text.dropWhile p) := by
  rw [← List.takeWhile_append_dropWhile (p := p) (l := text)] at h
  exact h.behind _

/-- The rest of the source ends with the source. -/
theorem RestAt.offset_add (h : RestAt source offset text) :
    offset + byteLength text = source.utf8ByteSize := by
  obtain ⟨before, hsource, rfl⟩ := h
  rw [← byteLength_append, ← hsource, byteLength_eq_utf8ByteSize, String.ofList_toList]

/-- Where a rest of the source begins there is a position of it. -/
theorem RestAt.exists_splits (h : RestAt source offset text) :
    ∃ (position : source.Pos) (before : String), position.offset.byteIdx = offset ∧
      position.Splits before (.ofList text) := by
  obtain ⟨before, hsource, rfl⟩ := h
  have happend : source = .ofList before ++ .ofList text := by
    rw [← String.ofList_append, ← hsource, String.ofList_toList]
  have hsplits := String.Pos.splits_ofEqAppend happend
  refine ⟨_, _, ?_, hsplits⟩
  rw [hsplits.offset_eq_rawEndPos, byteLength_eq_utf8ByteSize]
  rfl

/-- The first character of a rest of the source stands where the rest begins. -/
theorem RestAt.inkAt {c : Char} (h : RestAt source offset (c :: text))
    (hc : Text.isBlank c = false) : InkAt source offset := by
  obtain ⟨position, before, hoffset, hsplits⟩ := h.exists_splits
  rw [← List.singleton_append, String.ofList_append,
    ← String.singleton_eq_ofList] at hsplits
  refine ⟨position, hsplits.ne_endPos_of_singleton, hoffset, ?_⟩
  rw [hsplits.next.get_eq_of_singleton]
  exact hc

/-- There are characters only in front of the end. -/
theorem InkAt.lt (h : InkAt source offset) : offset < source.utf8ByteSize := by
  obtain ⟨position, hcharacter, rfl, -⟩ := h
  exact String.Pos.byteIdx_lt_utf8ByteSize position hcharacter

/-! ### Lexemes -/

/-- What is left behind a lexeme is a rest of the source, at a larger offset. -/
theorem RestAt.behind_read {c : Char} {after : List Char} {lexeme : Lexeme}
    (h : RestAt source offset (c :: text)) (hread : Lexeme.read c text = .ok (lexeme, after)) :
    RestAt source (offset + (byteLength (c :: text) - byteLength after)) after ∧
      0 < byteLength (c :: text) - byteLength after := by
  obtain ⟨spelling, rfl, -⟩ := Lexeme.exists_isRead_of_read hread
  have hwidth : byteLength (c :: (spelling ++ after)) - byteLength after =
      byteLength (c :: spelling) := by
    rw [← List.cons_append, byteLength_append, Nat.add_sub_cancel]
  rw [hwidth]
  exact ⟨h.behind (c :: spelling), byteLength_pos (List.cons_ne_nil c spelling)⟩

/-- Every lexeme, and a fault that stops the reading of lexemes, stands at a character that is not
blank. -/
theorem RestAt.inkAt_of_scan (h : RestAt source offset text) :
    (∀ found, scan offset text = .ok found → ∀ spanned ∈ found, InkAt source spanned.offset) ∧
      ∀ error, scan offset text = .error error → InkAt source error.offset := by
  fun_induction scan offset text with
  | case1 offset =>
    constructor
    · intro found hfound
      obtain rfl := Except.ok.inj hfound
      exact fun _ hmem ↦ absurd hmem List.not_mem_nil
    · intro error herror
      cases herror
  | case2 offset c text _ ih => exact ih h.tail
  | case3 offset c text hc fault =>
    constructor
    · intro found hfound
      cases hfound
    · intro error herror
      obtain rfl := Except.error.inj herror
      exact h.inkAt (by simpa using hc)
  | case4 offset c text hc lexeme after hread width =>
    rename_i ih
    obtain ⟨hfound, herror⟩ := ih (h.behind_read hread).1
    constructor
    · intro found hscan
      obtain ⟨others, hothers, rfl⟩ := Except.map_eq_ok_iff.1 hscan
      exact List.forall_mem_cons.2 ⟨h.inkAt (by simpa using hc), hfound others hothers⟩
    · intro error hscan
      exact herror error (Except.map_eq_error_iff.1 hscan)

/-- Later lexemes of the source have larger offsets. -/
theorem RestAt.pairwise_offset_of_scan {found : List Spanned} (h : RestAt source offset text)
    (hscan : scan offset text = .ok found) : (found.map Spanned.offset).Pairwise (· < ·) := by
  fun_induction scan offset text generalizing found with
  | case1 offset =>
    obtain rfl := Except.ok.inj hscan
    exact .nil
  | case2 offset c text _ ih => exact ih h.tail hscan
  | case3 => cases hscan
  | case4 offset c text _ lexeme after hread width =>
    rename_i ih
    obtain ⟨others, hothers, rfl⟩ := Except.map_eq_ok_iff.1 hscan
    obtain ⟨hrest, hwidth⟩ := h.behind_read hread
    refine List.pairwise_cons.2 ⟨?_, ih hrest hothers⟩
    intro later hlater
    obtain ⟨spanned, hspanned, rfl⟩ := List.mem_map.1 hlater
    have hle := le_offset_of_scan hothers spanned hspanned
    change offset < spanned.offset
    omega

/-! ### Expressions -/

/-- A fault stands at the end of the text or at one of some lexemes. -/
def Malformed.StandsIn (error : Malformed) (finish : Nat) (lexemes : List Spanned) : Prop :=
  error.offset = finish ∨ ∃ spanned ∈ lexemes, error.offset = spanned.offset

/-- A reader leaves the end of the lexemes that it is given, and its faults stand in them. -/
structure ExprReader.Local (read : ExprReader) (finish : Nat) : Prop where
  rest_isSuffix : ∀ depth minimum lexemes parsed, read depth minimum lexemes = .ok parsed →
    parsed.rest <:+ lexemes
  standsIn : ∀ depth minimum lexemes error, read depth minimum lexemes = .error error →
    error.StandsIn finish lexemes

section

variable {finish depth minimum height : Nat} {read : ExprReader} {left : Expr} {error : Malformed}
  {lexemes : List Spanned}

theorem Malformed.StandsIn.of_isSuffix {others : List Spanned} (h : error.StandsIn finish others)
    (hsuffix : others <:+ lexemes) : error.StandsIn finish lexemes :=
  h.imp_right fun ⟨spanned, hmem, hoffset⟩ ↦ ⟨spanned, hsuffix.subset hmem, hoffset⟩

theorem Malformed.standsIn_head (spanned : Spanned) (rest : List Spanned) (fault : Fault) :
    Malformed.StandsIn ⟨spanned.offset, fault⟩ finish (spanned :: rest) :=
  .inr ⟨spanned, List.mem_cons_self, rfl⟩

theorem rest_isSuffix_of_readOperand {parsed : Parsed lexemes.length} (hread : read.Local finish)
    (h : readOperand finish read depth lexemes = .ok parsed) : parsed.rest <:+ lexemes := by
  have hoperand := operandRead_of_readOperand h
  clear h
  obtain ⟨expr, height, rest, shorter⟩ := parsed
  dsimp only at hoperand ⊢
  cases hoperand with
  | literal => exact List.suffix_cons _ _
  | identifier => exact List.suffix_cons _ _
  | not offset rest operand _ hoperand =>
    exact (hread.rest_isSuffix _ _ _ _ hoperand).trans (List.suffix_cons _ _)
  | parentheses offset closing rest after inner _ hinner hrest =>
    have hsuffix := hread.rest_isSuffix _ _ _ _ hinner
    rw [hrest] at hsuffix
    exact ((List.suffix_cons _ _).trans hsuffix).trans (List.suffix_cons _ _)

theorem standsIn_of_readOperand (hread : read.Local finish)
    (h : readOperand finish read depth lexemes = .error error) : error.StandsIn finish lexemes := by
  cases operandFails_of_readOperand h with
  | missing => exact .inl rfl
  | misplaced first rest => exact Malformed.standsIn_head first rest _
  | tooNested first rest => exact Malformed.standsIn_head first rest _
  | tooHigh first rest => exact Malformed.standsIn_head first rest _
  | inside first rest minimum error hinside =>
    exact (hread.standsIn _ _ _ _ hinside).of_isSuffix (List.suffix_cons _ _)
  | unclosed first found rest others inner hinner hrest =>
    have hsuffix := hread.rest_isSuffix _ _ _ _ hinner
    rw [hrest] at hsuffix
    exact (Malformed.standsIn_head found others _).of_isSuffix
      (hsuffix.trans (List.suffix_cons _ _))
  | unfinished => exact .inl rfl

theorem rest_isSuffix_of_readOperators {parsed : Parsed (lexemes.length + 1)}
    (hread : read.Local finish)
    (h : readOperators (read depth) minimum left height lexemes = .ok parsed) :
    parsed.rest <:+ lexemes := by
  fun_induction readOperators (read depth) minimum left height lexemes with
  | case1 =>
    obtain rfl := Except.ok.inj h
    exact List.suffix_rfl
  | case2 left height op offset rest _ ih =>
    obtain ⟨right, hright, h⟩ := Except.bind_eq_ok_iff.1 h
    obtain ⟨_, _, h⟩ := Except.bind_eq_ok_iff.1 h
    obtain ⟨done, hdone, h⟩ := Except.bind_eq_ok_iff.1 h
    obtain rfl := Except.ok.inj h
    have hsuffix := (ih right hdone).trans (hread.rest_isSuffix _ _ _ _ hright)
    exact hsuffix.trans (List.suffix_cons _ _)
  | case3 =>
    obtain rfl := Except.ok.inj h
    exact List.suffix_rfl

theorem standsIn_of_readOperators (hread : read.Local finish)
    (h : readOperators (read depth) minimum left height lexemes = .error error) :
    error.StandsIn finish lexemes := by
  fun_induction readOperators (read depth) minimum left height lexemes with
  | case1 => cases h
  | case2 left height op offset rest _ ih =>
    rcases Except.bind_eq_error_iff.1 h with h | ⟨right, hright, h⟩
    · exact (hread.standsIn _ _ _ _ h).of_isSuffix (List.suffix_cons _ _)
    rcases Except.bind_eq_error_iff.1 h with h | ⟨_, _, h⟩
    · obtain ⟨-, rfl⟩ := checkDepth_eq_error_iff.1 h
      exact Malformed.standsIn_head ⟨.operator op, offset⟩ rest _
    rcases Except.bind_eq_error_iff.1 h with h | ⟨done, _, h⟩
    · have hsuffix := hread.rest_isSuffix _ _ _ _ hright
      exact (ih right h).of_isSuffix (hsuffix.trans (List.suffix_cons _ _))
    · cases h
  | case3 => cases h

theorem local_climb (finish budget : Nat) : ExprReader.Local (climb finish budget) finish := by
  induction budget with
  | zero =>
    constructor
    · intro depth minimum lexemes parsed h
      cases h
    · intro depth minimum lexemes error h
      obtain rfl := Except.error.inj h
      exact .inl rfl
  | succ budget ih =>
    constructor
    · intro depth minimum lexemes parsed h
      obtain ⟨first, hfirst, h⟩ := Except.bind_eq_ok_iff.1 h
      obtain ⟨done, hdone, h⟩ := Except.bind_eq_ok_iff.1 h
      obtain rfl := Except.ok.inj h
      exact (rest_isSuffix_of_readOperators ih hdone).trans (rest_isSuffix_of_readOperand ih hfirst)
    · intro depth minimum lexemes error h
      rcases Except.bind_eq_error_iff.1 h with h | ⟨first, hfirst, h⟩
      · exact standsIn_of_readOperand ih h
      rcases Except.bind_eq_error_iff.1 h with h | ⟨done, _, h⟩
      · exact (standsIn_of_readOperators ih h).of_isSuffix (rest_isSuffix_of_readOperand ih hfirst)
      · cases h

/-- A list of lexemes that is no expression is at fault at one of the lexemes or at the end. -/
theorem standsIn_of_parse (h : parse finish lexemes = .error error) :
    error.StandsIn finish lexemes := by
  have hlocal := local_climb finish (lexemes.length + 1)
  rcases Except.bind_eq_error_iff.1 h with h | ⟨parsed, hparsed, h⟩
  · exact hlocal.standsIn _ _ _ _ h
  · split at h
    next => cases h
    next extra others hrest =>
      obtain rfl := Except.error.inj h
      have hsuffix := hlocal.rest_isSuffix _ _ _ _ hparsed
      rw [hrest] at hsuffix
      exact (Malformed.standsIn_head extra others _).of_isSuffix hsuffix

end

/-! ### Gates -/

/-- A source that is no gate is malformed at its end or at a character that is not blank. -/
theorem exists_malformed_of_compile {source : String} {error : GateError}
    (h : compile source = .error error) : ∃ malformed, error = .malformed source malformed ∧
      (malformed.offset = source.utf8ByteSize ∨ InkAt source malformed.offset) := by
  obtain ⟨hfound, herror⟩ := (restAt_zero source).inkAt_of_scan
  unfold compile at h
  split at h
  next malformed hlexemes =>
    obtain rfl := Except.error.inj h
    exact ⟨malformed, rfl, .inr (herror malformed hlexemes)⟩
  next found hlexemes =>
    split at h
    next malformed hparse =>
      obtain rfl := Except.error.inj h
      refine ⟨malformed, rfl, (standsIn_of_parse hparse).imp_right ?_⟩
      rintro ⟨spanned, hmem, hoffset⟩
      exact hoffset ▸ hfound found hlexemes spanned hmem
    next => cases h

end BuildPlan.Gate
