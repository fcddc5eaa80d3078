import BuildPlan.Resolver.Basic

/-!
# Bodies of tokens

A body is cut at its first two colons, so it has one of three forms (`Token.body_cases`): a path, a
context and a path, or these two and a fallback, which may have colons of its own. Each form is read
as the token of its parts, and the parts are told apart in the body because neither context nor path
has a colon (`Token.WellFormed`). So a body is what its token is written with (`Token.body`), and
every token that is well-formed is that of the body it is written with (`Token.ofBody_eq_iff`).

`Token.bodies_correspond` draws the consequences: bodies and well-formed tokens correspond one to
one, an empty fallback is not taken for a missing one, and the placeholders of a text can be written
again from the parts of their tokens.
-/

set_option autoImplicit false
set_option relaxedAutoImplicit false

namespace BuildPlan.Token

/-- The body that a token is written with. -/
def body (token : Token) : String :=
  match token.fallback with
  | none => token.key
  | some fallback => token.key ++ .singleton separator ++ fallback

/-- The parts of a token can be told apart in its body. -/
structure WellFormed (token : Token) : Prop where
  /-- The context ends at the first colon. -/
  context : ∀ context, token.context = some context → separator ∉ context.toList
  /-- The path ends at the next colon. -/
  path : separator ∉ token.path.toList
  /-- Only behind a context there is a fallback. -/
  fallback : token.context = none → token.fallback = none

/-! ### The forms of a body -/

/-- A body is a path, a context and a path, or a context, a path and a fallback. -/
theorem body_cases (body : List Char) :
    separator ∉ body ∨
    (∃ context path, body = context ++ separator :: path ∧
      separator ∉ context ∧ separator ∉ path) ∨
    ∃ context path fallback, body = context ++ separator :: (path ++ separator :: fallback) ∧
      separator ∉ context ∧ separator ∉ path := by
  by_cases hbody : separator ∈ body
  · obtain ⟨context, rest, rfl, hcontext⟩ := List.eq_append_cons_of_mem hbody
    by_cases hrest : separator ∈ rest
    · obtain ⟨path, fallback, rfl, hpath⟩ := List.eq_append_cons_of_mem hrest
      exact .inr (.inr ⟨context, path, fallback, rfl, hcontext, hpath⟩)
    · exact .inr (.inl ⟨context, rest, rfl, hcontext, hrest⟩)
  · exact .inl hbody

section Forms

variable {context path : List Char} (hcontext : separator ∉ context) (hpath : separator ∉ path)

/-- A body without a colon is a path, without context and fallback. -/
theorem ofBody_of_not_mem {body : List Char} (h : separator ∉ body) (raw : String) :
    ofBody raw body = { raw, context := none, path := .ofList body, fallback := none } := by
  rw [ofBody, Text.cutAt?_eq_none_iff.2 h]

include hcontext hpath

/-- A body with one colon is a context and a path. -/
theorem ofBody_context (raw : String) : ofBody raw (context ++ separator :: path) =
    { raw, context := some (.ofList context), path := .ofList path, fallback := none } := by
  have hcut := Text.cutAt?_eq_some_iff.2 ⟨Eq.refl (context ++ separator :: path), hcontext⟩
  simp only [ofBody, hcut, Text.cutAt?_eq_none_iff.2 hpath]

/-- What stands behind the second colon is the fallback. -/
theorem ofBody_fallback (raw : String) (fallback : List Char) :
    ofBody raw (context ++ separator :: (path ++ separator :: fallback)) =
      { raw
        context := some (.ofList context)
        path := .ofList path
        fallback := some (.ofList fallback) } := by
  have hrest := Text.cutAt?_eq_some_iff.2 ⟨Eq.refl (path ++ separator :: fallback), hpath⟩
  have hcut := Text.cutAt?_eq_some_iff.2
    ⟨Eq.refl (context ++ separator :: (path ++ separator :: fallback)), hcontext⟩
  simp only [ofBody, hcut, hrest]

end Forms

/-! ### Reading and writing a body -/

theorem raw_ofBody (raw : String) (body : List Char) : (ofBody raw body).raw = raw := by
  unfold ofBody
  split
  · rfl
  · split <;> rfl

theorem wellFormed_ofBody (raw : String) (body : List Char) : (ofBody raw body).WellFormed := by
  rcases body_cases body with hbody | ⟨context, path, rfl, hcontext, hpath⟩ |
    ⟨context, path, fallback, rfl, hcontext, hpath⟩
  · rw [ofBody_of_not_mem hbody]
    exact ⟨nofun, by rwa [String.toList_ofList], fun _ ↦ rfl⟩
  · rw [ofBody_context hcontext hpath]
    refine ⟨?_, by rwa [String.toList_ofList], nofun⟩
    rintro _ ⟨⟩
    rwa [String.toList_ofList]
  · rw [ofBody_fallback hcontext hpath]
    refine ⟨?_, by rwa [String.toList_ofList], nofun⟩
    rintro _ ⟨⟩
    rwa [String.toList_ofList]

/-- A body is what its token is written with. -/
theorem toList_body_ofBody (raw : String) (body : List Char) :
    (ofBody raw body).body.toList = body := by
  rcases body_cases body with hbody | ⟨context, path, rfl, hcontext, hpath⟩ |
    ⟨context, path, fallback, rfl, hcontext, hpath⟩
  · rw [ofBody_of_not_mem hbody]
    simp [Token.body, key]
  · rw [ofBody_context hcontext hpath]
    simp [Token.body, key]
  · rw [ofBody_fallback hcontext hpath]
    simp [Token.body, key]

/-- A token without a fallback is keyed by its whole body. -/
theorem key_ofBody {raw : String} {body : List Char} (h : (ofBody raw body).fallback = none) :
    (ofBody raw body).key = .ofList body := by
  have hbody : (ofBody raw body).body = (ofBody raw body).key := by rw [Token.body, h]
  rw [← hbody, ← String.toList_inj, toList_body_ofBody, String.toList_ofList]

/-- A well-formed token is that of the body it is written with. -/
theorem WellFormed.ofBody_body {token : Token} (h : token.WellFormed) :
    ofBody token.raw token.body.toList = token := by
  obtain ⟨raw, context, path, fallback⟩ := token
  cases context with
  | none =>
    obtain rfl : fallback = none := h.fallback rfl
    have hplain := ofBody_of_not_mem h.path raw
    rwa [String.ofList_toList] at hplain
  | some context =>
    have hcontext : separator ∉ context.toList := h.context context rfl
    cases fallback with
    | none => simpa [Token.body, key] using ofBody_context hcontext h.path raw
    | some fallback =>
      simpa [Token.body, key] using ofBody_fallback hcontext h.path raw fallback.toList

/-- The token of a body is the well-formed one that is written with the body. -/
theorem ofBody_eq_iff {raw : String} {body : List Char} {token : Token} :
    ofBody raw body = token ↔
      token.WellFormed ∧ token.raw = raw ∧ token.body.toList = body := by
  constructor
  · rintro rfl
    exact ⟨wellFormed_ofBody raw body, raw_ofBody raw body, toList_body_ofBody raw body⟩
  · rintro ⟨hformed, rfl, rfl⟩
    exact hformed.ofBody_body

/-- A token has the parts of another one exactly if both have the same body. -/
theorem ofBody_eq_with_raw_iff {raw other : String} {body next : List Char} :
    ofBody other next = { ofBody raw body with raw := other } ↔ next = body := by
  constructor
  · intro h
    rw [← toList_body_ofBody other next, h]
    exact toList_body_ofBody raw body
  · rintro rfl
    have hformed := wellFormed_ofBody raw next
    exact ofBody_eq_iff.2
      ⟨⟨hformed.context, hformed.path, hformed.fallback⟩, rfl, toList_body_ofBody raw next⟩

/-! ### Listed tokens -/

/-- A token of a text is read from the body between its markers. -/
theorem exists_body_of_mem_tokens {resolver : Resolver} {text : String} {token : Token}
    (h : token ∈ resolver.tokens text) :
    ∃ body, token = ofBody (.ofList (resolver.markers.written body)) body := by
  obtain ⟨part, -, rfl⟩ := List.mem_map.1 h
  exact ⟨part.2, rfl⟩

/-- A listed token is written as the opening marker, its body and the closing marker. -/
theorem raw_of_mem_tokens {resolver : Resolver} {text : String} {token : Token}
    (h : token ∈ resolver.tokens text) :
    token.raw = .ofList resolver.markers.opening ++ token.body ++
      .ofList resolver.markers.closing := by
  obtain ⟨body, rfl⟩ := exists_body_of_mem_tokens h
  rw [raw_ofBody, ← String.toList_inj, Markers.written]
  simp only [String.toList_append, String.toList_ofList, toList_body_ofBody]

/-- Bodies and well-formed tokens correspond one to one. The token of a body is the only
well-formed one that is written with the body, and the tokens of two bodies have the same parts
exactly if the bodies are the same. A colon behind the path is an empty fallback, which is not taken
for a missing one. Every token of a text is well-formed, and its placeholder is the opening marker,
the body that the token is written with, and the closing marker. -/
theorem bodies_correspond :
    (∀ (raw : String) (body : List Char) (token : Token), ofBody raw body = token ↔
      token.WellFormed ∧ token.raw = raw ∧ token.body.toList = body) ∧
    (∀ (raw other : String) (body next : List Char),
      ofBody other next = { ofBody raw body with raw := other } ↔ next = body) ∧
    (∀ raw context path : String, separator ∉ context.toList → separator ∉ path.toList →
      ofBody raw (context ++ ":" ++ path).toList =
          { raw, context := some context, path, fallback := none } ∧
        ofBody raw (context ++ ":" ++ path ++ ":").toList =
          { raw, context := some context, path, fallback := some "" }) ∧
    ∀ (resolver : Resolver) (text : String), ∀ token ∈ resolver.tokens text, token.WellFormed ∧
      token.raw = .ofList resolver.markers.opening ++ token.body ++
        .ofList resolver.markers.closing := by
  refine ⟨fun raw body token ↦ ofBody_eq_iff, fun raw other body next ↦ ofBody_eq_with_raw_iff,
    ?fallbacks, ?listed⟩
  case fallbacks =>
    intro raw context path hcontext hpath
    constructor
    · simpa [separator] using ofBody_context hcontext hpath raw
    · simpa [separator] using ofBody_fallback hcontext hpath raw []
  case listed =>
    intro resolver text token htoken
    refine ⟨?_, raw_of_mem_tokens htoken⟩
    obtain ⟨body, rfl⟩ := exists_body_of_mem_tokens htoken
    exact wellFormed_ofBody _ body

/-- A resolver without values and extensions whose markers have colons. -/
def colonMarked : Resolver where
  store := .empty
  registered := .empty
  builtin := .empty
  strict := false
  markers :=
    { opening := ['<', ':']
      closing := [':', '>']
      opening_ne_nil := List.cons_ne_nil _ _
      closing_ne_nil := List.cons_ne_nil _ _ }

/-- The colons of the markers and of the fallback are told apart from those between the parts. -/
theorem colons_told_apart :
    colonMarked.tokens "<:env:URL:http://host:>" =
      [{ raw := "<:env:URL:http://host:>", context := some "env", path := "URL"
         fallback := some "http://host" }] ∧
    "<:env:URL:http://host:>" = "<:" ++ "env:URL:http://host" ++ ":>" ∧
    ofBody "" "env:URL".toList ≠ ofBody "" "env:URL:".toList := by
  obtain ⟨-, -, hfallbacks, hlisted⟩ := bodies_correspond
  have htokens : colonMarked.tokens "<:env:URL:http://host:>" =
      [{ raw := "<:env:URL:http://host:>", context := some "env", path := "URL"
         fallback := some "http://host" }] := by decide +kernel
  obtain ⟨-, hraw⟩ := hlisted colonMarked "<:env:URL:http://host:>" _
    (htokens ▸ List.mem_cons_self)
  refine ⟨htokens, hraw, ?_⟩
  obtain ⟨hmissing, hempty⟩ := hfallbacks "" "env" "URL" (by decide) (by decide)
  intro hsame
  cases (hmissing.symm.trans hsame).trans hempty

end BuildPlan.Token
