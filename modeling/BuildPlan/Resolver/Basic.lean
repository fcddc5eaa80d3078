import BuildPlan.Extension.Builtin
import BuildPlan.Placeholder.Markers

/-!
# Resolving placeholders

A resolver knows a store of values, the extensions of some contexts, and the markers of its
placeholders. A token without a context is looked up in the store. A token with a context goes to
the extension of the context, one that was registered before a built-in one; if there is none, it
is looked up in the store, first under context and path as one key, then under the path in the
store that the context leads to, and its fallback comes last.

Rendering a text replaces each placeholder by what it resolves to. What cannot be resolved stays
as it is written. A strict resolver writes the cause behind a token whose extension failed, and
refuses a text in which an extension lacks a collaborator; nothing else makes rendering fail.
-/

set_option autoImplicit false
set_option relaxedAutoImplicit false

namespace BuildPlan

/-- What a token resolves to. -/
inductive Resolution where
  /-- A text. -/
  | resolved (text : String)
  /-- Nothing is known under the name. -/
  | unresolved
  /-- The extension of the context failed. -/
  | failed (error : ExtensionError)
  deriving DecidableEq

/-- How placeholders look and how strictly they are rendered. -/
structure Settings where
  /-- Whether a failure of an extension shows in the text. -/
  strict : Bool
  /-- The marker in front of a placeholder. -/
  opening : String
  /-- The marker at the end of a placeholder. -/
  closing : String
  deriving DecidableEq

/-- The settings where nothing is said about them. -/
def Settings.default : Settings where
  strict := false
  opening := .ofList Markers.default.opening
  closing := .ofList Markers.default.closing

instance : Inhabited Settings := ⟨.default⟩

/-- Everything that is needed to resolve placeholders. -/
structure Resolver where
  /-- The values. -/
  store : Store
  /-- The extensions that were registered. -/
  registered : Registry
  /-- The extensions that are always there. -/
  builtin : Registry
  /-- Whether a failure of an extension shows in the text. -/
  strict : Bool
  /-- What placeholders look like. -/
  markers : Markers

namespace Resolver

/-- A resolver with some settings; there is none if a marker is empty. -/
def make (settings : Settings) (store : Store) (registered : Registry)
    (surroundings : Surroundings) : Except ConfigError Resolver :=
  if h : settings.opening.toList ≠ [] ∧ settings.closing.toList ≠ [] then
    .ok
      { store
        registered
        builtin := Extension.builtin surroundings
        strict := settings.strict
        markers :=
          { opening := settings.opening.toList
            closing := settings.closing.toList
            opening_ne_nil := h.1
            closing_ne_nil := h.2 } }
  else .error (.invalidValue "markers" "open and close markers must not be empty")

/-- The extension of a context. -/
def extension? (resolver : Resolver) (context : String) : Option Extension :=
  match resolver.registered.get? context with
  | some extension => some extension
  | none => resolver.builtin.get? context

/-- What an answer of an extension means for its token. -/
def ofAnswer : Except ExtensionError String → Resolution
  | .ok text => .resolved text
  | .error error => .failed error

/-- The text under a token with a context, in the store alone. -/
def lookupToken (store : Store) (context : String) (token : Token) : Option String :=
  match store.lookupText token.key with
  | some text => some text
  | none => ((store.lookup context).bind Value.store?).bind (·.lookupText token.path)

/-- What an optional text means for a token. -/
def ofOption : Option String → Resolution
  | some text => .resolved text
  | none => .unresolved

/-- What a token resolves to. -/
def resolve (resolver : Resolver) (token : Token) : Resolution :=
  match token.context with
  | none => ofOption (resolver.store.lookupText token.path)
  | some context =>
    match resolver.extension? context with
    | some extension => ofAnswer (extension token.raw token.path token.fallback)
    | none =>
      match lookupToken resolver.store context token with
      | some text => .resolved text
      | none => ofOption token.fallback

/-- The text that a resolved token is replaced by. -/
def replacement (resolver : Resolver) (token : Token) : Resolution → Except ConfigError String
  | .resolved text => .ok text
  | .unresolved => .ok token.raw
  | .failed error =>
    if resolver.strict then
      match error with
      | .missingCollaborator what => .error (.missingCollaborator token.raw what)
      | _ => .ok (token.raw ++ "; error: " ++ error.message)
    else .ok token.raw

/-- The text that a token is replaced by. -/
def render (resolver : Resolver) (token : Token) : Except ConfigError String :=
  resolver.replacement token (resolver.resolve token)

/-- The tokens of a text, from left to right. -/
def tokens (resolver : Resolver) (text : String) : List Token :=
  resolver.markers.tokens text

/-- The text of some segments with the placeholders replaced. -/
def interpolateSegments (resolver : Resolver) (tail : List Char) :
    List (List Char × List Char) → Except ConfigError (List Char)
  | [] => .ok tail
  | (literal, body) :: rest => do
    let raw := String.ofList (resolver.markers.written body)
    let text ← resolver.render (.ofBody raw body)
    let others ← resolver.interpolateSegments tail rest
    return literal ++ text.toList ++ others

/-- A text with its placeholders replaced. -/
def interpolate (resolver : Resolver) (text : String) : Except ConfigError String :=
  let segments := resolver.markers.segments text.toList
  (resolver.interpolateSegments segments.tail segments.marked).map .ofList

/-- Some texts with their placeholders replaced, or the first failure. -/
def interpolateAll (resolver : Resolver) (texts : List String) :
    Except ConfigError (List String) :=
  texts.mapM resolver.interpolate

/-- The values of a dictionary with their placeholders replaced, or the first failure. -/
def interpolateValues (resolver : Resolver) (dictionary : Dictionary String) :
    Except ConfigError (Dictionary String) := do
  let entries ← dictionary.entries.mapM fun entry ↦ do
    return (entry.1, ← resolver.interpolate entry.2)
  return .ofList entries

end Resolver

end BuildPlan
