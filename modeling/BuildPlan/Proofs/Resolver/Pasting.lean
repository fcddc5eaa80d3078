import BuildPlan.Proofs.Gate.Reading
import BuildPlan.Proofs.Placeholder.Decomposition
import BuildPlan.Proofs.Resolver.Halting

/-!
# Values between quotes

The way to compare a value of the store with a text is to put its placeholder between quotes. Since
placeholders are replaced before the gate is read, the value becomes a part of the expression, and
its characters are read as characters of the gate.

A value that has neither single quotes nor backslashes is read as one string that stands for the
value, so it is compared as a value. `pasted_value_answer` says what becomes of all other values:
one whose quotes are all behind backslashes is compared as the text that it stands for as a string,
and from the first other quote on the value is syntax. `pasted_value_rewrites_gate` shows a value
that makes its gate hold although it is not the text that it is compared with.
-/

set_option autoImplicit false
set_option relaxedAutoImplicit false

namespace BuildPlan

namespace Gate

/-! ### Gates that compare two strings -/

/-- The gate that compares a text between single quotes with another one. -/
def comparison (left right : String) : String :=
  "'" ++ left ++ "' == '" ++ right ++ "'"

theorem toList_comparison (left right : String) :
    (comparison left right).toList = '\x27' :: (left.toList ++ ['\x27']) ++
      ([' ', '=', '=', ' '] ++ '\x27' :: (right.toList ++ ['\x27']) ++ []) := by
  simp [comparison]

/-- A comparison of two texts that are read as strings has three lexemes. -/
theorem lexemes_comparison {left right : String} {first second : List Char}
    (hleft : Lexeme.Quoted '\x27' (left.toList ++ ['\x27']) first)
    (hright : Lexeme.Quoted '\x27' (right.toList ++ ['\x27']) second) :
    ∃ found, lexemes (comparison left right) = .ok found ∧ found.map Spanned.lexeme =
      [.literal (.string (.ofList first)), .operator .eq,
        .literal (.string (.ofList second))] := by
  have hquote : Lexeme.IsQuote '\x27' := .inl rfl
  have hmark : Text.isBlank '\x27' = false := by decide
  have hequals : Text.isBlank '=' = false := by decide
  have hspace : Text.isBlank ' ' = true := by decide
  have hstring (offset : Nat) {body value : List Char} (hbody : Lexeme.Quoted '\x27' body value)
      (after : List Char) :
      scan offset ('\x27' :: body ++ after) =
        (scan (offset + byteLength ('\x27' :: body)) after).map
          fun others ↦ ⟨.literal (.string (.ofList value)), offset⟩ :: others :=
    scan_append_of_read hmark (Lexeme.read_quoted hquote hbody after) offset
  have hoperator (offset : Nat) (after : List Char) :
      scan offset (['=', '='] ++ after) = (scan (offset + byteLength ['=', '=']) after).map
        fun others ↦ ⟨.operator .eq, offset⟩ :: others :=
    scan_append_of_read hequals rfl offset
  rw [lexemes, toList_comparison, hstring 0 hleft, List.cons_append, List.cons_append,
    scan_cons_of_isBlank hspace]
  change ∃ found, Except.map _ (scan _ (['=', '='] ++
    ' ' :: ('\x27' :: (right.toList ++ ['\x27']) ++ []))) = .ok found ∧ _
  rw [hoperator, scan_cons_of_isBlank hspace, hstring _ hright, scan]
  exact ⟨_, rfl, rfl⟩

/-- A comparison of two literals is a disjunction of the grammar. -/
theorem derives_comparison (left right : Scalar) :
    Derives .disjunction [.literal left, .operator .eq, .literal right]
      (.binary .eq (.literal left) (.literal right)) 0 :=
  (Derives.literal left).equality (Derives.literal right)

/-- Two texts that are read as strings are compared as what the strings stand for. -/
theorem answers_comparison (store : Store) {left right : String} {first second : List Char}
    (hleft : Lexeme.Quoted '\x27' (left.toList ++ ['\x27']) first)
    (hright : Lexeme.Quoted '\x27' (right.toList ++ ['\x27']) second) :
    Answers store (comparison left right)
      (decide (String.ofList first = String.ofList second)) := by
  obtain ⟨found, hfound, hlexemes⟩ := lexemes_comparison hleft hright
  have hheight : 2 ≤ maxDepth := by decide
  refine ⟨found, .binary .eq (.literal (.string (.ofList first)))
    (.literal (.string (.ofList second))), 0, hfound, ?_, hheight, Nat.zero_le _, rfl⟩
  rw [hlexemes]
  exact derives_comparison _ _

end Gate

namespace Resolver

variable {resolver : Resolver} {key value compared : String}

/-! ### The value of a key between quotes -/

/-- The placeholder of a key with the default markers. -/
def placeholder (key : String) : String :=
  .ofList (Markers.default.written key.toList)

/-- A key that is neither cut at a colon nor ended by the closing marker or a line break. -/
def IsPlainKey (key : String) : Prop :=
  ∀ c ∈ key.toList, c ≠ Token.separator ∧ c ≠ '\x7d' ∧ c ≠ Markers.lineBreak

/-- A text that stands for itself between single quotes. -/
def StandsForItself (text : String) : Prop :=
  ∀ c ∈ text.toList, c ≠ '\x27' ∧ c ≠ '\\'

/-- A plain key is the body of a placeholder, whatever follows. -/
theorem IsPlainKey.isBody (h : IsPlainKey key) (rest : List Char) :
    Markers.IsBody Markers.default.closing key.toList rest where
  single_line hbreak := (h _ hbreak).2.2 rfl
  shortest front back hkey hback hclosing := by
    obtain ⟨c, back, rfl⟩ := List.exists_cons_of_ne_nil hback
    obtain rfl : '\x7d' = c := (List.cons_prefix_cons.1 hclosing).1
    have hmem : '\x7d' ∈ key.toList := by
      rw [hkey]
      exact List.mem_append_right _ List.mem_cons_self
    exact (h _ hmem).2.1 rfl

/-- The opening marker does not occur behind the placeholder of a comparison if it does not occur in
the text that is compared. -/
theorem not_opening_isInfix (h : ¬ Markers.default.opening <:+: compared.toList) :
    ¬ Markers.default.opening <:+: "' == '".toList ++ compared.toList ++ "'".toList := by
  have hmarker : Markers.default.opening = ['$', '\x7b'] := rfl
  have hlast (text : List Char) : ['$', '\x7b'] ≠ text ++ ['\x27'] := by
    intro htext
    simpa using congrArg List.getLast? htext
  rw [hmarker] at h ⊢
  simp [List.infix_cons_iff, List.infix_concat_iff, List.suffix_concat_iff, hlast, h]

/-- The only placeholder of a comparison is the one of the key. -/
theorem segments_comparison (hkey : IsPlainKey key)
    (hmarker : ¬ Markers.default.opening <:+: compared.toList) :
    Markers.default.segments (Gate.comparison (placeholder key) compared).toList =
      ⟨[(['\x27'], key.toList)], "' == '".toList ++ compared.toList ++ "'".toList⟩ := by
  have htext : (Gate.comparison (placeholder key) compared).toList = '\x27' ::
      (Markers.default.written key.toList ++
        ("' == '".toList ++ compared.toList ++ "'".toList)) := by
    simp [Gate.comparison, placeholder]
  have hquote (text : List Char) : ¬ Markers.default.Starts ('\x27' :: text) := fun hstarts ↦
    absurd (List.cons_prefix_cons.1 hstarts.opening_isPrefix).1 (by decide)
  rw [htext, Markers.segments_cons (hquote _), Markers.segments_written_append (hkey.isBody _),
    Markers.segments_of_not_isInfix (not_opening_isInfix hmarker)]
  rfl

/-- A comparison is read with the value in the place of the placeholder. -/
theorem evaluateGate_comparison (hmarkers : resolver.markers = .default) (hkey : IsPlainKey key)
    (hvalue : resolver.store.lookupText key = some value)
    (hmarker : ¬ Markers.default.opening <:+: compared.toList) (answer : Bool) :
    resolver.evaluateGate (Gate.comparison (placeholder key) compared) = .ok answer ↔
      Gate.Answers resolver.store (Gate.comparison value compared) answer := by
  have hseparator : Token.separator ∉ key.toList := fun hmem ↦ (hkey _ hmem).1 rfl
  have hresolve : resolver.resolve (resolver.tokenOf key.toList) = .resolved value := by
    rw [tokenOf, Token.ofBody_of_not_mem hseparator, resolve]
    dsimp only
    rw [String.ofList_toList, hvalue]
    rfl
  have hsubstitute : resolver.substitute (resolver.tokenOf key.toList) = value := by
    rw [substitute, hresolve]
  have hsegments := segments_comparison hkey hmarker
  rw [← hmarkers] at hsegments
  have hfilled : resolver.filledText (Gate.comparison (placeholder key) compared) =
      Gate.comparison value compared := by
    rw [filledText, hsegments, ← String.toList_inj, Gate.toList_comparison]
    simp [filled, hsubstitute]
  have htokens : ∀ token ∈ resolver.tokens (Gate.comparison (placeholder key) compared),
      ¬ resolver.Halts token := by
    rw [tokens_eq_map, hsegments]
    rintro token htoken ⟨-, what, hwhat⟩
    rw [List.mem_singleton.1 htoken, hresolve] at hwhat
    cases hwhat
  rw [evaluateGate_eq_ok_iff, hfilled, and_iff_right htokens]

/-- What becomes of a value between quotes that is compared with a text. The gate is read with the
value pasted into it. If the value and the closing quote behind it are read as one string, what the
string stands for is compared with the text. The value itself is compared exactly if it has no
quotes and backslashes, or else if the pasted text happens to be a gate that does not hold. -/
theorem pasted_value_answer (resolver : Resolver) {key value compared : String}
    (hmarkers : resolver.markers = .default) (hkey : IsPlainKey key)
    (hvalue : resolver.store.lookupText key = some value) (hcompared : StandsForItself compared)
    (hmarker : ¬ Markers.default.opening <:+: compared.toList) :
    (∀ answer, resolver.evaluateGate (Gate.comparison (placeholder key) compared) = .ok answer ↔
      Gate.Answers resolver.store (Gate.comparison value compared) answer) ∧
    (∀ text : String, Gate.Lexeme.Quoted '\x27' (value.toList ++ ['\x27']) text.toList →
      resolver.evaluateGate (Gate.comparison (placeholder key) compared) =
        .ok (decide (text = compared))) ∧
    (StandsForItself value →
      resolver.evaluateGate (Gate.comparison (placeholder key) compared) =
        .ok (decide (value = compared))) ∧
    (¬ StandsForItself value →
      (resolver.evaluateGate (Gate.comparison (placeholder key) compared) =
        .ok (decide (value = compared)) ↔
          Gate.Answers resolver.store (Gate.comparison value compared) false)) := by
  have hpasted := evaluateGate_comparison hmarkers hkey hvalue hmarker
  have hstring (text : String)
      (htext : Gate.Lexeme.Quoted '\x27' (value.toList ++ ['\x27']) text.toList) :
      resolver.evaluateGate (Gate.comparison (placeholder key) compared) =
        .ok (decide (text = compared)) := by
    have hanswers := Gate.answers_comparison resolver.store htext
      (Gate.Lexeme.quoted_append_quote hcompared)
    rw [String.ofList_toList, String.ofList_toList] at hanswers
    exact (hpasted _).2 hanswers
  refine ⟨hpasted, hstring, ?_, ?_⟩
  · intro hitself
    exact hstring value (Gate.Lexeme.quoted_append_quote hitself)
  · intro hother
    have hne : value ≠ compared := by
      rintro rfl
      exact hother hcompared
    rw [decide_eq_false hne]
    exact hpasted false

/-- A value without quotes and backslashes is compared as a value. A value with an escaped quote is
compared as the text that it stands for. -/
theorem pasted_values_compared :
    (ofBranch "main").evaluateGate "'$\x7bbranch\x7d' == 'main'" = .ok true ∧
    (ofBranch "it\\\x27s").evaluateGate "'$\x7bbranch\x7d' == 'its'" = .ok false := by
  have hkey : IsPlainKey "branch" := by
    simp [IsPlainKey, Token.separator, Markers.lineBreak]
  have hmain : StandsForItself "main" := by simp [StandsForItself]
  have hits : StandsForItself "its" := by simp [StandsForItself]
  have hplain : (ofBranch "main").store.lookupText "branch" = some "main" := by decide +kernel
  have hescaped : (ofBranch "it\\\x27s").store.lookupText "branch" = some "it\\\x27s" := by
    decide +kernel
  have hquoted : Gate.Lexeme.Quoted '\x27' ("it\\\x27s".toList ++ ['\x27']) "it's".toList :=
    .plain (by decide) (by decide) (.plain (by decide) (by decide)
      (.escape '\x27' (by decide) (.plain (by decide) (by decide) .close)))
  constructor
  · exact (pasted_value_answer (ofBranch "main") rfl hkey hplain hmain
      (by decide)).2.2.1 hmain
  · exact (pasted_value_answer (ofBranch "it\\\x27s") rfl hkey hescaped hits
      (by decide)).2.1 "it's" hquoted

/-- A value can make its gate hold although it is not the text that it is compared with. -/
theorem pasted_value_rewrites_gate :
    (ofBranch "main' == 'main' || '").store.lookupText "branch" = some "main' == 'main' || '" ∧
    "main' == 'main' || '" ≠ "main" ∧
    (ofBranch "main' == 'main' || '").evaluateGate "'$\x7bbranch\x7d' == 'main'" = .ok true := by
  refine ⟨by decide +kernel, by decide, by decide +kernel⟩

end Resolver

end BuildPlan
