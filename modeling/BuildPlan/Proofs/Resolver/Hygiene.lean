import BuildPlan.Proofs.Gate.Reading
import BuildPlan.Proofs.Gate.Relabelling
import BuildPlan.Proofs.Placeholder.Joining
import BuildPlan.Proofs.Resolver.Halting
import BuildPlan.Proofs.Resolver.Interpolation

/-!
# Placeholders inside of strings

Two scans run over the text of a gate: one for placeholders before they are replaced, and one for
lexemes after that. They know nothing of each other, so in general a value may change the lexemes
around its placeholder. It cannot if the placeholder lies between the quotes of a string and the
value has no quotes and backslashes.

What both scans have to agree on while they go through a text is collected in `Aligned`: every
placeholder is between the quotes of one of the lexemes, and no value breaks out of a string. It
passes to both parts of a text that is cut between two lexemes, or inside of a string next to one
of its quotes (`Aligned.cut`). So the text with the placeholders replaced has the same lexemes, but
for the strings (`exists_scan_fill`), and is a gate exactly if it was one before
(`interpolation_hygienic`).
-/

set_option autoImplicit false
set_option relaxedAutoImplicit false

namespace BuildPlan

open Gate (byteLength byteLength_append)
open Segments (Stretch places)

/-- A stretch of a text lies between the quotes of a lexeme: a string, which is written without
backslashes. -/
def Gate.Spanned.Encloses (spanned : Gate.Spanned) (stretch : Stretch) : Prop :=
  ∃ text, spanned.lexeme = .literal (.string text) ∧ spanned.offset + 1 ≤ stretch.start ∧
    stretch.finish ≤ spanned.offset + 1 + byteLength text.toList

/-- What a lexeme encloses ends with its spelling. -/
theorem Gate.Spanned.Encloses.finish_le {lexeme : Gate.Lexeme} {offset : Nat}
    {spelling : List Char} {stretch : Stretch} (h : Encloses ⟨lexeme, offset⟩ stretch)
    (hspelled : lexeme.Spelled spelling) (hescape : '\\' ∉ spelling) :
    stretch.finish ≤ offset + byteLength spelling := by
  obtain ⟨text, htext, -, hfinish⟩ := h
  obtain rfl : lexeme = .literal (.string text) := htext
  rcases hspelled.isString_or_isPlain with
    ⟨quote, body, value, hquote, hbody, rfl, hvalue⟩ | ⟨-, hstring⟩
  · obtain ⟨rfl, -⟩ := hbody.eq_append_quote fun hmem ↦ hescape (List.mem_cons_of_mem _ hmem)
    obtain rfl : text = String.ofList value :=
      Gate.Scalar.string.inj (Gate.Lexeme.literal.inj hvalue)
    have hpos := quote.utf8Size_pos
    rw [String.toList_ofList] at hfinish
    rw [byteLength, byteLength_append]
    dsimp only at hfinish
    omega
  · exact absurd rfl (hstring text)

/-- What a lexeme encloses starts behind the offset of the text of the lexeme. -/
theorem Gate.Spanned.Encloses.le_start {offset : Nat} {text : List Char}
    {found : List Gate.Spanned} {spanned : Gate.Spanned} {stretch : Stretch}
    (h : spanned.Encloses stretch) (hscan : Gate.scan offset text = .ok found)
    (hspanned : spanned ∈ found) : offset ≤ stretch.start := by
  obtain ⟨-, -, hstart, -⟩ := h
  have hoffset := Gate.le_offset_of_scan hscan spanned hspanned
  omega

/-- The opening marker starts with a character that does not belong to the syntax of gates. -/
def Markers.IsForeign (markers : Markers) : Prop :=
  ∃ mark rest, markers.opening = mark :: rest ∧ Gate.isSyntax mark = false

theorem Markers.isForeign_default : Markers.default.IsForeign :=
  ⟨'$', ['\x7b'], rfl, by decide⟩

namespace Markers

variable {markers : Markers} {text : List Char} {c : Char}

/-- No placeholder starts at a character of the syntax. -/
theorem IsForeign.not_starts (h : markers.IsForeign) (hc : Gate.isSyntax c = true) :
    ¬ markers.Starts (c :: text) := by
  intro hstarts
  obtain ⟨mark, rest, hopening, hmark⟩ := h
  have hopens := hstarts.opening_isPrefix
  rw [hopening, List.cons_prefix_cons] at hopens
  rw [hopens.1, hc] at hmark
  cases hmark

/-- A text of characters of the syntax in front of another one is plain text. -/
theorem IsForeign.segments_append (h : markers.IsForeign) {front : List Char}
    (hfront : ∀ c ∈ front, Gate.isSyntax c = true) (text : List Char) :
    markers.segments (front ++ text) = (markers.segments text).lead front :=
  segments_lead fun c hc _ ↦ h.not_starts (hfront c hc)

/-- A text of characters of the syntax has no placeholders. -/
theorem IsForeign.segments_eq (h : markers.IsForeign)
    (htext : ∀ c ∈ text, Gate.isSyntax c = true) : markers.segments text = ⟨[], text⟩ := by
  obtain ⟨mark, rest, hopening, hmark⟩ := h
  refine segments_of_not_isInfix fun hopens ↦ ?_
  rw [hopening] at hopens
  rw [htext mark (hopens.subset List.mem_cons_self)] at hmark
  cases hmark

end Markers

namespace Resolver

/-! ### Segments with the placeholders replaced -/

section Fill

variable (resolver : Resolver)

/-- The token has no value, or one that may stand in a string: it has no quotes and backslashes. -/
def Quotable (token : Token) : Prop :=
  ∀ value, resolver.resolve token = .resolved value →
    ∀ c ∈ value.toList, ¬ Gate.Lexeme.IsQuote c ∧ c ≠ '\\'

variable {resolver}

theorem toList_filledText (text : List Char) :
    (resolver.filledText (.ofList text)).toList =
      resolver.fill (resolver.markers.segments text) := by
  rw [filledText, String.toList_ofList, String.toList_ofList]
  rfl

/-- A character of the syntax in front of a text is kept. -/
theorem fill_cons {c : Char} (hforeign : resolver.markers.IsForeign)
    (hc : Gate.isSyntax c = true) (text : List Char) :
    resolver.fill (resolver.markers.segments (c :: text)) =
      c :: resolver.fill (resolver.markers.segments text) := by
  rw [Markers.segments_cons (hforeign.not_starts hc), fill_push]

theorem fill_of_isSyntax {text : List Char} (hforeign : resolver.markers.IsForeign)
    (htext : ∀ c ∈ text, Gate.isSyntax c = true) :
    resolver.fill (resolver.markers.segments text) = text := by
  rw [hforeign.segments_eq htext]
  rfl

/-- Where lexemes can be read, the first character is no part of a placeholder. -/
theorem head?_fill {text : List Char} (hforeign : resolver.markers.IsForeign)
    (hclean : Gate.Clean .outside text) :
    (resolver.fill (resolver.markers.segments text)).head? = text.head? := by
  cases text with
  | nil => rw [fill_of_isSyntax hforeign fun _ hmem ↦ absurd hmem List.not_mem_nil]
  | cons c text =>
    rw [fill_cons hforeign (hclean.1 rfl)]
    rfl

/-- A lenient resolver replaces a token by its value or leaves it as it is written. -/
theorem resolve_eq_or_substitute_eq_raw (hstrict : resolver.strict = false) (token : Token) :
    resolver.resolve token = .resolved (resolver.substitute token) ∨
      resolver.substitute token = token.raw :=
  (unsettled_or_resolve_eq token).symm.imp_right (substitute_eq_raw hstrict)

/-- A lenient resolver adds nothing to a text but values. -/
theorem mem_fill {c : Char} {segments : Segments} (hstrict : resolver.strict = false)
    (h : c ∈ resolver.fill segments) :
    c ∈ segments.join resolver.markers ∨ ∃ body ∈ segments.bodies, ∃ value,
      resolver.resolve (resolver.tokenOf body) = .resolved value ∧ c ∈ value.toList := by
  rw [Segments.join, List.mem_append, List.mem_flatMap]
  rcases List.mem_append.1 h with hfilled | htail
  · obtain ⟨part, hpart, hmem⟩ := List.mem_flatMap.1 hfilled
    rcases List.mem_append.1 hmem with hliteral | hsubstitute
    · exact .inl (.inl ⟨part, hpart, List.mem_append_left _ hliteral⟩)
    · rcases resolve_eq_or_substitute_eq_raw hstrict (resolver.tokenOf part.2) with hvalue | hraw
      · exact .inr ⟨part.2, List.mem_map_of_mem hpart, _, hvalue, hsubstitute⟩
      · rw [hraw, tokenOf, Token.raw_ofBody, String.toList_ofList] at hsubstitute
        exact .inl (.inl ⟨part, hpart, List.mem_append_right _ hsubstitute⟩)
  · exact .inl (.inr htail)

end Fill

/-! ### Both scans in step -/

/-- The placeholders of a text that starts at an offset are aligned with its lexemes. -/
structure Aligned (resolver : Resolver) (offset : Nat) (text : List Char)
    (found : List Gate.Spanned) : Prop where
  /-- No character is escaped. -/
  no_escape : '\\' ∉ text
  /-- Every placeholder is between the quotes of a lexeme. -/
  enclosed : ∀ place ∈ places resolver.markers offset (resolver.markers.segments text),
    ∃ spanned ∈ found, spanned.Encloses place
  /-- No value breaks out of a string. -/
  quotable : ∀ body ∈ (resolver.markers.segments text).bodies,
    resolver.Quotable (resolver.tokenOf body)

variable {resolver : Resolver}

/-- A text whose placeholders are aligned with its lexemes may be cut where no placeholder can be:
those of some lexemes end before the cut, and those of the others start behind it. -/
theorem Aligned.cut {offset : Nat} {first second : List Char} (front back : List Gate.Spanned)
    (h : resolver.Aligned offset (first ++ second) (front ++ back))
    (hfront : ∀ spanned ∈ front, ∀ place, spanned.Encloses place →
      place.finish ≤ offset + byteLength first)
    (hback : ∀ spanned ∈ back, ∀ place, spanned.Encloses place →
      offset + byteLength first ≤ place.start) :
    resolver.fill (resolver.markers.segments (first ++ second)) =
        resolver.fill (resolver.markers.segments first) ++
          resolver.fill (resolver.markers.segments second) ∧
      resolver.Aligned offset first front ∧
        resolver.Aligned (offset + byteLength first) second back := by
  have hescape := h.no_escape
  rw [List.mem_append, not_or] at hescape
  have hsegments : resolver.markers.segments (first ++ second) =
      (resolver.markers.segments first).append (resolver.markers.segments second) := by
    refine Markers.segments_append offset fun place hplace ↦ ?_
    obtain ⟨spanned, hspanned, hencloses⟩ := h.enclosed place hplace
    exact (List.mem_append.1 hspanned).imp (hfront spanned · place hencloses)
      (hback spanned · place hencloses)
  have henclosed := h.enclosed
  have hquotable := h.quotable
  rw [hsegments, Segments.places_append, Segments.join_segments] at henclosed
  rw [hsegments, Segments.bodies_append] at hquotable
  refine ⟨by rw [hsegments, fill_append], ⟨hescape.1, ?_, ?_⟩, ⟨hescape.2, ?_, ?_⟩⟩
  · intro place hplace
    obtain ⟨spanned, hspanned, hencloses⟩ := henclosed place (List.mem_append_left _ hplace)
    rcases List.mem_append.1 hspanned with hmem | hmem
    · exact ⟨spanned, hmem, hencloses⟩
    · have hbounds := Segments.bounds_of_mem_places _ _ hplace
      rw [Segments.join_segments] at hbounds
      have hstart := hback spanned hmem place hencloses
      omega
  · exact fun body hbody ↦ hquotable body (List.mem_append_left _ hbody)
  · intro place hplace
    obtain ⟨spanned, hspanned, hencloses⟩ := henclosed place (List.mem_append_right _ hplace)
    rcases List.mem_append.1 hspanned with hmem | hmem
    · have hbounds := Segments.bounds_of_mem_places _ _ hplace
      have hfinish := hfront spanned hmem place hencloses
      omega
    · exact ⟨spanned, hmem, hencloses⟩
  · exact fun body hbody ↦ hquotable body (List.mem_append_right _ hbody)

/-- The placeholders of a string are in its content, and what replaces them stays between the
quotes. -/
theorem Aligned.fill_string {offset : Nat} {quote : Char} {value : List Char}
    (hforeign : resolver.markers.IsForeign) (hstrict : resolver.strict = false)
    (hquote : Gate.Lexeme.IsQuote quote) (hvalue : quote ∉ value)
    (h : resolver.Aligned offset ([quote] ++ (value ++ [quote]))
      [⟨.literal (.string (.ofList value)), offset⟩]) :
    resolver.fill (resolver.markers.segments ([quote] ++ (value ++ [quote]))) =
        [quote] ++ ((resolver.filledText (.ofList value)).toList ++ [quote]) ∧
      Gate.Lexeme.Quoted quote ((resolver.filledText (.ofList value)).toList ++ [quote])
        (resolver.filledText (.ofList value)).toList := by
  have hwidth : byteLength [quote] = 1 := by
    rcases hquote with rfl | rfl <;> rfl
  have hsyntax : ∀ c ∈ [quote], Gate.isSyntax c = true := by
    intro c hc
    rw [List.mem_singleton.1 hc]
    exact Gate.Lexeme.isSyntax_of_isQuote hquote
  have hbetween : ∀ place,
      Gate.Spanned.Encloses ⟨.literal (.string (.ofList value)), offset⟩ place →
        offset + byteLength [quote] ≤ place.start ∧
          place.finish ≤ offset + byteLength [quote] + byteLength value := by
    rintro place ⟨text, htext, hstart, hfinish⟩
    obtain rfl : String.ofList value = text :=
      Gate.Scalar.string.inj (Gate.Lexeme.literal.inj htext)
    rw [String.toList_ofList] at hfinish
    rw [hwidth]
    exact ⟨hstart, hfinish⟩
  obtain ⟨houter, -, hcontent⟩ := h.cut [] _ (List.forall_mem_nil _)
    (List.forall_mem_singleton.2 fun place hencloses ↦ (hbetween place hencloses).1)
  obtain ⟨hinner, hstring, -⟩ := hcontent.cut _ []
    (List.forall_mem_singleton.2 fun place hencloses ↦ (hbetween place hencloses).2)
    (List.forall_mem_nil _)
  have hkept := fill_of_isSyntax hforeign hsyntax
  refine ⟨by rw [houter, hinner, toList_filledText, hkept], ?_⟩
  refine Gate.Lexeme.quoted_append_quote fun c hc ↦ ?_
  rw [toList_filledText] at hc
  rcases mem_fill hstrict hc with hwritten | ⟨body, hbody, text, htext, hmem⟩
  · rw [Segments.join_segments] at hwritten
    constructor
    · rintro rfl
      exact hvalue hwritten
    · rintro rfl
      exact hstring.no_escape hwritten
  · have hclear := hstring.quotable body hbody text htext c hmem
    refine ⟨?_, hclear.2⟩
    rintro rfl
    exact hclear.1 hquote

/-! ### The lexemes of a text with its placeholders replaced -/

/-- A lexeme whose placeholders are aligned is read, but for its string, from what replaces its
spelling, in front of every text with the same first character. -/
theorem Aligned.read_fill {offset : Nat} {c : Char} {spelling after after' : List Char}
    {lexeme : Gate.Lexeme} (hforeign : resolver.markers.IsForeign)
    (hstrict : resolver.strict = false) (hreads : Gate.Lexeme.IsRead c spelling after lexeme)
    (hhead : after'.head? = after.head?)
    (h : resolver.Aligned offset (c :: spelling) [⟨lexeme, offset⟩]) :
    ∃ filled, resolver.fill (resolver.markers.segments (c :: spelling)) = c :: filled ∧
      Gate.Lexeme.read c (filled ++ after') =
        .ok (lexeme.relabel resolver.filledText, after') := by
  rcases hreads.spelled.isString_or_isPlain with
    ⟨quote, body, value, hquote, hbody, hspelling, rfl⟩ | ⟨hplain, hstring⟩
  · obtain ⟨rfl, rfl⟩ := List.cons.inj hspelling
    have hescape : '\\' ∉ spelling := fun hmem ↦ h.no_escape (List.mem_cons_of_mem _ hmem)
    obtain ⟨rfl, hvalue⟩ := hbody.eq_append_quote hescape
    obtain ⟨hfill, hquoted⟩ := h.fill_string hforeign hstrict hquote hvalue
    refine ⟨(resolver.filledText (.ofList value)).toList ++ [c], hfill, ?_⟩
    rw [Gate.Lexeme.read_quoted hquote hquoted, String.ofList_toList]
    rfl
  · have hsyntax : ∀ d ∈ c :: spelling, Gate.isSyntax d = true := fun d hd ↦
      Gate.isSyntax_of_isPlain (List.all_eq_true.1 hplain d hd)
    refine ⟨spelling, fill_of_isSyntax hforeign hsyntax, ?_⟩
    rw [Gate.Lexeme.relabel_eq_self hstring]
    exact hreads.read_eq after' hhead

/-- A text whose placeholders are aligned with its lexemes keeps the lexemes, but for the strings,
when the placeholders are replaced, wherever the new text starts. -/
theorem Aligned.exists_scan_fill {offset : Nat} {text : List Char} {found : List Gate.Spanned}
    (hforeign : resolver.markers.IsForeign) (hstrict : resolver.strict = false)
    (hscan : Gate.scan offset text = .ok found) (h : resolver.Aligned offset text found)
    (start : Nat) :
    ∃ others, Gate.scan start (resolver.fill (resolver.markers.segments text)) = .ok others ∧
      others.map Gate.Spanned.lexeme =
        (found.map Gate.Spanned.lexeme).map (Gate.Lexeme.relabel resolver.filledText) := by
  -- The induction follows the scan of the text as it is written. The offsets of the new text run
  -- apart from the old ones at the first value, so `start` is any number.
  fun_induction Gate.scan offset text generalizing found start with
  | case1 offset =>
    obtain rfl := Except.ok.inj hscan
    refine ⟨[], ?_, rfl⟩
    rw [Markers.segments_nil]
    exact Gate.scan.eq_def start []
  | case2 offset c rest hblank ih =>
    have hsyntax : Gate.isSyntax c = true :=
      Gate.isSyntax_of_isPlain (Gate.isPlain_of_isBlank hblank)
    have hwhole : resolver.Aligned offset ([c] ++ rest) found := h
    obtain ⟨-, -, hrest⟩ := hwhole.cut [] found (List.forall_mem_nil _)
      fun spanned hspanned place hencloses ↦ hencloses.le_start hscan hspanned
    rw [fill_cons hforeign hsyntax, Gate.scan_cons_of_isBlank hblank]
    exact ih hscan hrest _
  | case3 => cases hscan
  | case4 offset c rest hblank lexeme after hread width =>
    rename_i ih
    obtain ⟨found, hfound, rfl⟩ := Except.map_eq_ok_iff.1 hscan
    obtain ⟨spelling, rfl, hreads⟩ := Gate.Lexeme.exists_isRead_of_read hread
    have hwidth : width = byteLength (c :: spelling) := by
      rw [← Nat.add_sub_cancel (n := byteLength (c :: spelling)) (m := byteLength after),
        ← byteLength_append]
      rfl
    rw [hwidth] at hfound ih
    have hescape : '\\' ∉ c :: spelling := fun hmem ↦
      h.no_escape (List.mem_append_left after hmem)
    have hwhole : resolver.Aligned offset (c :: spelling ++ after) ([⟨lexeme, offset⟩] ++ found) :=
      h
    obtain ⟨hfill, hfirst, hrest⟩ := hwhole.cut [⟨lexeme, offset⟩] found
      (List.forall_mem_singleton.2 fun place hencloses ↦ hencloses.finish_le hreads.spelled hescape)
      fun spanned hspanned place hencloses ↦ hencloses.le_start hfound hspanned
    -- Reading a lexeme looks one character ahead, so what follows has to keep its first character.
    have hhead := head?_fill hforeign (Gate.clean_of_scan hfound)
    obtain ⟨filled, hfilled, hread'⟩ := hfirst.read_fill hforeign hstrict hreads hhead
    obtain ⟨others, hothers, hlexemes⟩ := ih hfound hrest (start + byteLength (c :: filled))
    refine ⟨⟨lexeme.relabel resolver.filledText, start⟩ :: others, ?_, ?_⟩
    · change Gate.scan start (resolver.fill (resolver.markers.segments (c :: spelling ++ after))) =
        _
      rw [hfill, hfilled, Gate.scan_append_of_read (by simpa using hblank) hread', hothers]
      rfl
    · rw [List.map_cons, hlexemes]
      rfl

/-- Placeholders inside of strings leave the rest of a gate alone. Let a lenient resolver have the
default markers, and let a text without backslashes have lexemes, such that each placeholder of the
text lies between the quotes of a string and no value has quotes or backslashes. Then the text with
the placeholders replaced has the same lexemes, but for the strings, whose placeholders are
replaced. So it is read as a gate exactly if the text is, and as the same tree but for the
strings. -/
theorem interpolation_hygienic (resolver : Resolver) {expression : String}
    {found : List Gate.Spanned} (hmarkers : resolver.markers = .default)
    (hstrict : resolver.strict = false)
    (hescape : '\\' ∉ expression.toList) (hfound : Gate.lexemes expression = .ok found)
    (henclosed : ∀ place ∈ places resolver.markers 0 (resolver.markers.segments expression.toList),
      ∃ spanned ∈ found, spanned.Encloses place)
    (hquotable : ∀ token ∈ resolver.tokens expression, resolver.Quotable token) :
    (∀ text, resolver.interpolate text = .ok (resolver.filledText text)) ∧
    (∃ others, Gate.lexemes (resolver.filledText expression) = .ok others ∧
      others.map Gate.Spanned.lexeme =
        (found.map Gate.Spanned.lexeme).map (Gate.Lexeme.relabel resolver.filledText)) ∧
    ∀ gate, Gate.compile (resolver.filledText expression) = .ok gate ↔
      ∃ original, Gate.compile expression = .ok original ∧
        gate = ⟨resolver.filledText expression, original.expr.relabel resolver.filledText⟩ := by
  have hforeign : resolver.markers.IsForeign := by
    rw [hmarkers]
    exact Markers.isForeign_default
  have haligned : resolver.Aligned 0 expression.toList found := by
    refine ⟨hescape, henclosed, fun body hbody ↦ hquotable _ ?_⟩
    obtain ⟨part, hpart, rfl⟩ := List.mem_map.1 hbody
    exact List.mem_map_of_mem hpart
  obtain ⟨others, hothers, hlexemes⟩ := haligned.exists_scan_fill hforeign hstrict hfound 0
  have hfilled : Gate.lexemes (resolver.filledText expression) = .ok others := by
    rw [Gate.lexemes, ← hothers, ← toList_filledText, String.ofList_toList]
  refine ⟨fun text ↦ ?_, ⟨others, hfilled, hlexemes⟩, fun gate ↦ ?_⟩
  · exact interpolate_eq_ok_iff_filledText.2 ⟨fun _ _ ↦ not_halts_of_lenient hstrict, rfl⟩
  · exact Gate.compile_relabel_iff hfound hfilled hlexemes

/-- A gate with a placeholder inside of a string is read with the value in the string. -/
theorem quoted_branch_compiled :
    Gate.compile ((ofBranch "main").filledText "ready && 'on $\x7bbranch\x7d' != \"dev\"") =
      .ok ⟨"ready && 'on main' != \"dev\"", .binary .and (.identifier "ready")
        (.binary .ne (.literal (.string "on main")) (.literal (.string "dev")))⟩ := by
  have hfound : Gate.lexemes "ready && 'on $\x7bbranch\x7d' != \"dev\"" =
      .ok [⟨.identifier "ready", 0⟩, ⟨.operator .and, 6⟩,
        ⟨.literal (.string "on $\x7bbranch\x7d"), 9⟩, ⟨.operator .ne, 24⟩,
        ⟨.literal (.string "dev"), 27⟩] := by
    decide +kernel
  have hplaces : places (ofBranch "main").markers 0 ((ofBranch "main").markers.segments
      "ready && 'on $\x7bbranch\x7d' != \"dev\"".toList) = [⟨13, 22⟩] := by
    decide +kernel
  have htokens : (ofBranch "main").tokens "ready && 'on $\x7bbranch\x7d' != \"dev\"" =
      [(ofBranch "main").tokenOf "branch".toList] := by
    decide +kernel
  have hresolve : (ofBranch "main").resolve ((ofBranch "main").tokenOf "branch".toList) =
      .resolved "main" := by
    decide +kernel
  refine ((interpolation_hygienic (ofBranch "main") rfl rfl (by simp) hfound ?_ ?_).2.2 _).2 ?_
  · rw [hplaces, List.forall_mem_singleton]
    have hwidth : byteLength "on $\x7bbranch\x7d".toList = 12 := by decide +kernel
    refine ⟨⟨.literal (.string "on $\x7bbranch\x7d"), 9⟩, by simp, _, rfl, by decide, ?_⟩
    exact Nat.le_of_eq (congrArg (9 + 1 + ·) hwidth.symm)
  · rw [htokens, List.forall_mem_singleton]
    intro value hvalue
    rw [hresolve] at hvalue
    obtain rfl := Resolution.resolved.inj hvalue
    simp [Gate.Lexeme.IsQuote]
  · have hcompiled : Gate.compile "ready && 'on $\x7bbranch\x7d' != \"dev\"" =
        .ok ⟨"ready && 'on $\x7bbranch\x7d' != \"dev\"", .binary .and (.identifier "ready")
          (.binary .ne (.literal (.string "on $\x7bbranch\x7d"))
            (.literal (.string "dev")))⟩ := by
      decide +kernel
    exact ⟨_, hcompiled, by decide +kernel⟩

end Resolver

end BuildPlan
