import BuildPlan.Proofs.Gate.Comparison
import BuildPlan.Proofs.Gate.Leaf
import BuildPlan.Proofs.Resolver.Hygiene
import BuildPlan.Proofs.Resolver.Listing

/-!
# Values by name and by placeholder

A gate may refer to a leaf of the store in two ways: by its name, which stands for the value of the
leaf, and by a placeholder, which pastes the text of the leaf into the gate. Both are the same for
booleans and numerals, and so the gate that compares them holds. A leaf may be a number without
being a numeral, though: its text may have a plus sign, an exponent, or no digit in front of its
point. By name it is a number, but its text is no literal of a gate, and the gate cannot be read.
The main result is `named_and_pasted`.
-/

set_option autoImplicit false
set_option relaxedAutoImplicit false

namespace BuildPlan

namespace Gate

variable {key value : String}

/-! ### Gates that compare two operands -/

/-- The gate that compares two operands as they are written. -/
def equality (left right : String) : String :=
  left ++ " == " ++ right

theorem toList_equality (left right : String) :
    (equality left right).toList = left.toList ++ ' ' :: (['=', '='] ++ ' ' :: right.toList) := by
  simp [equality]

/-- The lexemes of a name that is compared with a text are the name, the operator and the lexemes of
the text. -/
theorem exists_lexemes_equality (hkey : Lexeme.IsName key.toList) (text : String) :
    ∃ behind offset, lexemes (equality key text) =
      (scan offset text.toList).map fun others ↦
        ⟨.identifier key, 0⟩ :: ⟨.operator .eq, behind⟩ :: others := by
  have hidentifier : (Lexeme.identifier key).IsPrintable := hkey
  have hoperator : (Lexeme.operator .eq).IsPrintable := trivial
  have hsymbol : ['=', '='] ∈ (Lexeme.operator .eq).spellings := List.mem_singleton_self _
  rw [lexemes, toList_equality, scan_spaced hidentifier (List.mem_singleton_self _),
    scan_spaced hoperator hsymbol]
  generalize 0 + byteLength (key.toList ++ [' ']) = behind
  generalize behind + byteLength (['=', '='] ++ [' ']) = offset
  refine ⟨behind, offset, ?_⟩
  cases scan offset text.toList <;> rfl

/-- A name is equal to its leaf if the text of the leaf is a literal. -/
theorem answers_equality {store : Store} (hkey : Lexeme.IsName key.toList)
    (hleaf : store.lookup key = some (.leaf value))
    (hvalue : ∀ text, Scalar.ofLeaf value ≠ .string text) (hliteral : IsLiteral value) :
    Answers store (equality key value) true := by
  obtain ⟨behind, offset, hlexemes⟩ := exists_lexemes_equality hkey value
  rw [scan_leaf hvalue hliteral] at hlexemes
  have hderives : Derives .disjunction
      [.identifier key, .operator .eq, .literal (.ofLeaf value)]
      (.binary .eq (.identifier key) (.literal (.ofLeaf value))) 0 :=
    (Derives.identifier key).equality (Derives.literal _)
  have hname : (Expr.identifier key).eval store = .ok (.ofLeaf value) := by
    rw [Expr.eval, evalIdentifier, hleaf]
  have hequal := Scalar.equal_self (Scalar.isPresent_ofLeaf value)
  have hheight : 2 ≤ maxDepth := by decide
  refine ⟨_, _, 0, hlexemes, hderives, hheight, Nat.zero_le _, ?_⟩
  rw [Expr.eval_equality hname rfl, hequal]

/-- The text of a number that is no literal cannot stand behind an operator. -/
theorem exists_compile_equality (hkey : Lexeme.IsName key.toList)
    (hvalue : ∀ text, Scalar.ofLeaf value ≠ .string text) (hliteral : ¬ IsLiteral value) :
    ∃ error, compile (equality key value) = .error (.malformed (equality key value) error) := by
  refine exists_malformed fun gate hgate ↦ ?_
  obtain ⟨found, nesting, hfound, hderives, -⟩ := compile_eq_ok_iff.1 hgate
  obtain ⟨behind, offset, hlexemes⟩ := exists_lexemes_equality hkey value
  obtain ⟨others, hothers, rfl⟩ := Except.map_eq_ok_iff.1 (hlexemes.symm.trans hfound)
  obtain ⟨number, hnumber, hfinite, hnumeral⟩ :=
    Scalar.exists_number_of_not_isLiteral hvalue hliteral
  obtain ⟨left, name, rest, hbeside⟩ := exists_beside_of_scan hnumber hfinite hnumeral hothers
  rw [List.map_cons, List.map_cons, hbeside] at hderives
  have hphrase : Derives .disjunction
      ([.identifier key, .operator .eq] ++ .literal left :: .identifier name :: rest) gate.expr
      nesting := hderives
  exact not_derives_beside hphrase

end Gate

namespace Resolver

variable {resolver : Resolver} {key value : String}

/-- A name is a plain key. -/
theorem isPlainKey_of_isName (h : Gate.Lexeme.IsName key.toList) : IsPlainKey key := by
  intro c hc
  have hrest := h.isIdentifierRest c hc
  refine ⟨?_, ?_, ?_⟩ <;>
    · rintro rfl
      exact absurd hrest (by decide)

/-- The only placeholder of the gate that compares a name with itself is the one of the name. -/
theorem segments_equality (hkey : Gate.Lexeme.IsName key.toList) :
    Markers.default.segments (Gate.equality key (placeholder key)).toList =
      Segments.lead (key.toList ++ " == ".toList) ⟨[([], key.toList)], []⟩ := by
  have hplain : ∀ c ∈ key.toList ++ " == ".toList, Gate.isSyntax c = true := by
    intro c hc
    rcases List.mem_append.1 hc with hc | hc
    · exact Gate.isSyntax_of_isPlain
        (Gate.isPlain_of_isIdentifierRest (hkey.isIdentifierRest c hc))
    · exact List.all_eq_true.1 (by decide : " == ".toList.all Gate.isSyntax = true) c hc
  have htext : (Gate.equality key (placeholder key)).toList =
      (key.toList ++ " == ".toList) ++ (Markers.default.written key.toList ++ []) := by
    simp [Gate.equality, placeholder]
  rw [htext, Markers.isForeign_default.segments_append hplain,
    Markers.segments_written_append ((isPlainKey_of_isName hkey).isBody []), Markers.segments_nil]
  rfl

/-- The placeholder of a name is replaced by the text of its leaf. -/
theorem interpolate_equality (hmarkers : resolver.markers = .default)
    (hkey : Gate.Lexeme.IsName key.toList)
    (hvalue : resolver.store.lookupText key = some value) :
    resolver.interpolate (Gate.equality key (placeholder key)) = .ok (Gate.equality key value) := by
  have hresolve := resolve_tokenOf ((isPlainKey_of_isName hkey).spells hmarkers) hvalue
  have hsegments := segments_equality hkey
  rw [← hmarkers] at hsegments
  refine interpolate_eq_ok_iff_filledText.2 ⟨?_, ?_⟩
  · rintro token htoken ⟨-, what, hwhat⟩
    rw [tokens_eq_map, hsegments] at htoken
    obtain ⟨part, hpart, rfl⟩ := List.mem_map.1 htoken
    have hbody : part.2 ∈ (Segments.lead (key.toList ++ " == ".toList)
      ⟨[([], key.toList)], []⟩).bodies := List.mem_map_of_mem hpart
    rw [Segments.bodies_lead] at hbody
    rw [List.mem_singleton.1 hbody, hresolve] at hwhat
    cases hwhat
  · have hfilled : (resolver.filledText (Gate.equality key (placeholder key))).toList =
        resolver.fill (Segments.lead (key.toList ++ " == ".toList) ⟨[([], key.toList)], []⟩) := by
      rw [filledText, hsegments, String.toList_ofList]
      rfl
    rw [← String.toList_inj, hfilled, fill_lead]
    simp [Gate.equality, fill, filled, substitute, hresolve]

/-- A leaf that is a boolean or a number, by its name and by its placeholder. The gate that compares
both holds exactly if the text of the leaf is a literal: `true`, `false` or a numeral. If it is not,
the gate with the text of the leaf pasted in cannot be read. -/
theorem named_and_pasted (resolver : Resolver) {key value : String}
    (hmarkers : resolver.markers = .default) (hkey : Gate.Lexeme.IsName key.toList)
    (hleaf : resolver.store.lookup key = some (.leaf value))
    (hvalue : ∀ text, Gate.Scalar.ofLeaf value ≠ .string text) :
    (resolver.evaluateGate (Gate.equality key (placeholder key)) = .ok true ↔
      Gate.IsLiteral value) ∧
    (¬ Gate.IsLiteral value → ∃ error,
      resolver.evaluateGate (Gate.equality key (placeholder key)) =
        .error (.malformed (Gate.equality key value) error)) ∧
    (Gate.lexemes value = .ok [⟨.literal (.ofLeaf value), 0⟩] ↔ Gate.IsLiteral value) := by
  have htext : resolver.store.lookupText key = some value := by
    rw [Store.lookupText, hleaf]
    rfl
  have hinterpolate := interpolate_equality hmarkers hkey htext
  have hholds (hliteral : Gate.IsLiteral value) :
      resolver.evaluateGate (Gate.equality key (placeholder key)) = .ok true := by
    obtain ⟨gate, hgate, hanswer⟩ := Gate.exists_evaluate_iff_answers.2
      (Gate.answers_equality hkey hleaf hvalue hliteral)
    simp only [evaluateGate, hinterpolate, hgate, hanswer]
  have hfails (hliteral : ¬ Gate.IsLiteral value) : ∃ error,
      resolver.evaluateGate (Gate.equality key (placeholder key)) =
        .error (.malformed (Gate.equality key value) error) := by
    obtain ⟨error, herror⟩ := Gate.exists_compile_equality hkey hvalue hliteral
    exact ⟨error, by simp only [evaluateGate, hinterpolate, herror]⟩
  refine ⟨⟨fun hok ↦ ?_, hholds⟩, hfails, ⟨fun hread ↦ ?_, fun hliteral ↦ ?_⟩⟩
  · by_contra hliteral
    obtain ⟨error, herror⟩ := hfails hliteral
    cases hok.symm.trans herror
  · rw [Gate.Scalar.isLiteral_iff_isPrintable hvalue]
    exact Gate.isPrintable_of_scan hread _ (List.mem_singleton_self _)
  · exact Gate.scan_leaf hvalue hliteral 0

/-- A resolver that knows one value. -/
def ofRetries (value : String) : Resolver :=
  ofStore (Store.empty.insert "retries" (.leaf value))

/-- A numeral is the same by its name and by its placeholder, and a number with an exponent is
not. -/
theorem retries_named_and_pasted :
    (ofRetries "-0.5").evaluateGate "retries == $\x7bretries\x7d" = .ok true ∧
    ∃ error, (ofRetries "1e3").evaluateGate "retries == $\x7bretries\x7d" =
      .error (.malformed "retries == 1e3" error) := by
  have hkey : Gate.Lexeme.IsName "retries".toList :=
    .intro rfl (List.all_eq_true.1 rfl) (by decide)
  have hdecimal : (ofRetries "-0.5").store.lookup "retries" = some (.leaf "-0.5") := by
    decide +kernel
  have hexponent : (ofRetries "1e3").store.lookup "retries" = some (.leaf "1e3") := by
    decide +kernel
  have hhalf (text : String) : Gate.Scalar.ofLeaf "-0.5" ≠ .string text := by
    have hnumber : Gate.Scalar.ofLeaf "-0.5" = .number (.ofRatio true 5 10) "-0.5" := by
      decide +kernel
    intro hstring
    cases hnumber.symm.trans hstring
  have hthousand (text : String) : Gate.Scalar.ofLeaf "1e3" ≠ .string text := by
    have hnumber : Gate.Scalar.ofLeaf "1e3" = .number (.ofNat 1000) "1e3" := by decide
    intro hstring
    cases hnumber.symm.trans hstring
  constructor
  · refine (named_and_pasted _ rfl hkey hdecimal hhalf).1.2 (.inr (.inr ?_))
    have hrest : ∀ other ∈ ['.', '5'], other.isDigit = true ∨ other = '.' :=
      List.forall_mem_cons.2 ⟨.inr rfl, List.forall_mem_singleton.2 (.inl rfl)⟩
    exact .intro (.inr rfl) rfl hrest (by decide)
  · refine (named_and_pasted _ rfl hkey hexponent hthousand).2.1 ?_
    rintro (htrue | hfalse | hnumeral)
    · exact absurd htrue (by decide)
    · exact absurd hfalse (by decide)
    · exact absurd (hnumeral.digit_or_mark 'e' (by decide)) (by decide)

/-- A leaf with an exponent is a number by its name, and its text is no literal. -/
theorem exponent_not_pasted :
    (ofRetries "1e3").store.lookup "retries" = some (.leaf "1e3") ∧
    Gate.Scalar.ofLeaf "1e3" = .number (.ofNat 1000) "1e3" ∧
    (ofRetries "1e3").evaluateGate "retries == $\x7bretries\x7d" =
      .error (.malformed "retries == 1e3" ⟨12, .unexpected (.identifier "e3")⟩) := by
  exact ⟨by decide +kernel, by decide, by decide +kernel⟩

end Resolver

end BuildPlan
