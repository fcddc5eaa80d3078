import BuildPlan.Proofs.Extension.Builtin
import BuildPlan.Proofs.Resolver.Rendering

/-!
# Explicit fallbacks of tokens

A token with a fallback is compared with the same token without one (`Resolver.FallsBack`): it is
always resolved, to the text of the other token where that one is resolved, and to the fallback
everywhere else.

A token without an extension falls back (`Resolver.fallsBack_of_store`), and so does a token whose
extension settles its path (`Resolver.fallsBack_of_settles`). Together with what is known of the
extensions this gives the main result `Resolver.explicit_fallback`: of all tokens that go to a
built-in extension or to the store only those of a repository without version control do not fall
back, and those of variables that are set to the empty text.
-/

set_option autoImplicit false
set_option relaxedAutoImplicit false

namespace BuildPlan.Resolver

variable {settings : Settings} {store : Store} {registered : Registry}
  {surroundings : Surroundings} {resolver : Resolver} {token : Token} {context fallback : String}

/-- What a resolver is made of. -/
theorem parts_of_make (h : make settings store registered surroundings = .ok resolver) :
    resolver.store = store ∧ resolver.registered = registered ∧
      resolver.builtin = Extension.builtin surroundings ∧ resolver.strict = settings.strict := by
  unfold make at h
  split at h
  · obtain rfl := Except.ok.inj h
    exact ⟨rfl, rfl, rfl, rfl⟩
  · cases h

/-- A built-in extension is asked where none is registered. -/
theorem extension?_of_not_registered (h : resolver.registered.get? context = none) :
    resolver.extension? context = resolver.builtin.get? context := by
  rw [extension?, h]

theorem extension?_of_registered {extension : Extension}
    (h : resolver.registered.get? context = some extension) :
    resolver.extension? context = some extension := by
  rw [extension?, h]

/-- The extension of a context answers its tokens. -/
theorem resolve_of_extension {extension : Extension} (hcontext : token.context = some context)
    (hextension : resolver.extension? context = some extension) :
    resolver.resolve token = ofAnswer (extension token.raw token.path token.fallback) := by
  simp only [resolve, hcontext, hextension]

theorem resolve_bare_of_extension {extension : Extension} (hcontext : token.context = some context)
    (hextension : resolver.extension? context = some extension) (raw : String) :
    resolver.resolve { token with raw, fallback := none } =
      ofAnswer (extension raw token.path none) :=
  resolve_of_extension hcontext hextension

/-- A token of a context without an extension is looked up in the store. -/
theorem resolve_of_store (hcontext : token.context = some context)
    (hextension : resolver.extension? context = none) :
    resolver.resolve token =
      (lookupToken resolver.store context token).elim (ofOption token.fallback) .resolved := by
  simp only [resolve, hcontext, hextension]
  cases lookupToken resolver.store context token <;> rfl

/-- A token with a fallback, compared with one without it. -/
structure FallsBack (resolver : Resolver) (token bare : Token) (fallback : String) : Prop where
  /-- The token always has a text. -/
  resolves : ∃ text, resolver.resolve token = .resolved text
  /-- The text that is known without the fallback is kept. -/
  keeps : ∀ text, resolver.resolve bare = .resolved text → resolver.resolve token = .resolved text
  /-- The fallback stands in where nothing is known. -/
  replaces : resolver.Unsettled bare → resolver.resolve token = .resolved fallback

/-- A token falls back if its extension settles its path. -/
theorem fallsBack_of_settles {extension : Extension} (hcontext : token.context = some context)
    (hfallback : token.fallback = some fallback)
    (hextension : resolver.extension? context = some extension)
    (hsettles : extension.Settles token.path) (raw : String) :
    resolver.FallsBack token { token with raw, fallback := none } fallback := by
  have hbare : resolver.resolve { token with raw, fallback := none } =
      ofAnswer (extension raw token.path none) := resolve_bare_of_extension hcontext hextension raw
  have htoken : resolver.resolve token =
      .resolved (Extension.settled fallback (extension raw token.path none)) := by
    rw [resolve_of_extension hcontext hextension, hfallback, hsettles token.raw raw fallback]
    rfl
  refine ⟨⟨_, htoken⟩, fun text htext ↦ ?_, fun hunsettled ↦ ?_⟩
  · rw [hbare] at htext
    rw [htoken]
    cases hanswer : extension raw token.path none with
    | ok value =>
      rw [hanswer] at htext
      exact htext
    | error cause =>
      rw [hanswer] at htext
      cases htext
  · rw [htoken]
    cases hanswer : extension raw token.path none with
    | ok value => exact absurd (hbare.trans (congrArg ofAnswer hanswer)) (hunsettled value)
    | error cause => rfl

/-- A token falls back if its context has no extension. -/
theorem fallsBack_of_store (hcontext : token.context = some context)
    (hfallback : token.fallback = some fallback)
    (hextension : resolver.extension? context = none) (raw : String) :
    resolver.FallsBack token { token with raw, fallback := none } fallback := by
  have hlookup : lookupToken resolver.store context { token with raw, fallback := none } =
      lookupToken resolver.store context token := rfl
  have hbare : resolver.resolve { token with raw, fallback := none } =
      (lookupToken resolver.store context token).elim .unresolved .resolved :=
    hlookup ▸ resolve_of_store hcontext hextension
  have htoken : resolver.resolve token =
      (lookupToken resolver.store context token).elim (.resolved fallback) .resolved := by
    rw [resolve_of_store hcontext hextension, hfallback]
    rfl
  cases hfound : lookupToken resolver.store context token with
  | some text =>
    rw [hfound, Option.elim_some] at hbare htoken
    exact ⟨⟨text, htoken⟩, fun other hother ↦ htoken.trans (hbare.symm.trans hother),
      fun hunsettled ↦ absurd hbare (hunsettled text)⟩
  | none =>
    rw [hfound, Option.elim_none] at hbare htoken
    refine ⟨⟨fallback, htoken⟩, fun other hother ↦ ?_, fun _ ↦ htoken⟩
    cases hbare.symm.trans hother

/-- Explicit fallbacks always give a text and never hide one. Take a token with a fallback, whose
context has no registered extension, and the same token without the fallback. Where the context is
the repository and version control is not used, both fail, whatever the fallback. A variable that is
set to the empty text gives way to the fallback, also if that is empty. In every other case the
token is resolved, to the text that the token without fallback resolves to, or to the fallback if
that one is not resolved. Tokens of build arguments fall back without an exception. -/
theorem explicit_fallback (hmake : make settings store registered surroundings = .ok resolver)
    (hcontext : token.context = some context) (hfallback : token.fallback = some fallback)
    (raw : String) :
    (registered.get? context = none →
      (context = Extension.repositoryContext ∧ surroundings.repository = none →
        resolver.resolve token = .failed (.missingCollaborator Extension.versionControl) ∧
          resolver.resolve { token with raw, fallback := none } =
            .failed (.missingCollaborator Extension.versionControl)) ∧
      (context = Extension.environmentContext ∧ surroundings.environment token.path = some "" →
        resolver.resolve token = .resolved fallback ∧
          resolver.resolve { token with raw, fallback := none } = .resolved "") ∧
      (¬ (context = Extension.repositoryContext ∧ surroundings.repository = none) →
        ¬ (context = Extension.environmentContext ∧
          surroundings.environment token.path = some "") →
        resolver.FallsBack token { token with raw, fallback := none } fallback)) ∧
    ∀ values, registered.get? context = some (Extension.arguments values) →
      resolver.FallsBack token { token with raw, fallback := none } fallback := by
  obtain ⟨-, hregistered, hbuiltin, -⟩ := parts_of_make hmake
  constructor
  · intro hnone
    have hextension : resolver.extension? context =
        (Extension.builtin surroundings).get? context := by
      rw [extension?_of_not_registered (hregistered ▸ hnone), hbuiltin]
    refine ⟨?repository, ?emptied, ?others⟩
    case repository =>
      rintro ⟨rfl, hrepository⟩
      rw [Extension.get?_builtin, if_pos rfl, hrepository] at hextension
      rw [resolve_of_extension hcontext hextension,
        resolve_bare_of_extension hcontext hextension raw]
      exact ⟨rfl, rfl⟩
    case emptied =>
      rintro ⟨rfl, hempty⟩
      rw [Extension.get?_builtin, if_neg (by decide), if_neg (by decide), if_neg (by decide),
        if_pos rfl] at hextension
      rw [resolve_of_extension hcontext hextension,
        resolve_bare_of_extension hcontext hextension raw,
        Extension.environment_of_empty hempty, Extension.environment_of_empty hempty, hfallback]
      exact ⟨rfl, rfl⟩
    case others =>
      intro hrepository hvariable
      cases hfound : (Extension.builtin surroundings).get? context with
      | none => exact fallsBack_of_store hcontext hfallback (hextension.trans hfound) raw
      | some extension =>
        have hsettles : extension.Settles token.path :=
          Extension.settles_of_get?_builtin hfound
            (fun hgit hlacks ↦ hrepository ⟨hgit, hlacks⟩)
            (fun henv hempty ↦ hvariable ⟨henv, hempty⟩)
        exact fallsBack_of_settles hcontext hfallback (hextension.trans hfound) hsettles raw
  · intro values hvalues
    exact fallsBack_of_settles hcontext hfallback
      (extension?_of_registered (hregistered ▸ hvalues))
      (Extension.settles_arguments values token.path) raw

/-- A variable that is not set has no text without a fallback, and with one it comes to the fallback
even if that is empty. -/
theorem unset_variable_falls_back :
    (ofStore .empty).Unsettled ((ofStore .empty).tokenOf "env:TAG".toList) ∧
    (ofStore .empty).resolve ((ofStore .empty).tokenOf "env:TAG:".toList) = .resolved "" := by
  have hunset : (ofStore .empty).resolve ((ofStore .empty).tokenOf "env:TAG".toList) =
      .failed (.notSet "TAG") := by decide +kernel
  have hunsettled : (ofStore .empty).Unsettled ((ofStore .empty).tokenOf "env:TAG".toList) := by
    intro text htext
    cases hunset.symm.trans htext
  have hmake : make .default .empty .empty
      { environment := fun _ ↦ none
        now := { seconds := 0, leap := false }
        identity := .error (.notFound "user")
        repository := none } = .ok (ofStore .empty) := rfl
  have hcontext : ((ofStore .empty).tokenOf "env:TAG:".toList).context = some "env" := by
    decide +kernel
  have hfallback : ((ofStore .empty).tokenOf "env:TAG:".toList).fallback = some "" := by
    decide +kernel
  have hbare : { (ofStore .empty).tokenOf "env:TAG:".toList with
      raw := "$\x7benv:TAG\x7d", fallback := none } =
        (ofStore .empty).tokenOf "env:TAG".toList := by decide +kernel
  have hfalls := ((explicit_fallback hmake hcontext hfallback "$\x7benv:TAG\x7d").1 rfl).2.2
    (fun hgit ↦ absurd hgit.1 (by decide))
    (fun hempty ↦ absurd hempty.2 (Option.some_ne_none _).symm)
  exact ⟨hunsettled, hfalls.replaces (hbare ▸ hunsettled)⟩

end BuildPlan.Resolver
