import BuildPlan.Text.Cut

/-!
# Placeholder tokens

The body of a placeholder names a value in one of three ways: `path`, `context:path` or
`context:path:fallback`. Only the first two colons separate; the fallback may hold more of them,
and an empty fallback differs from none.
-/

set_option autoImplicit false
set_option relaxedAutoImplicit false

namespace BuildPlan

/-- One placeholder of a text. -/
structure Token where
  /-- The placeholder as written, with its markers. -/
  raw : String
  /-- The text before the first colon. -/
  context : Option String
  /-- The text after the first colon and before the second one; all of a body without a colon. -/
  path : String
  /-- The text after the second colon. -/
  fallback : Option String
  deriving DecidableEq

namespace Token

/-- The character between the parts of a body. -/
def separator : Char := ':'

/-- The token of a placeholder with a body. -/
def ofBody (raw : String) (body : List Char) : Token :=
  match Text.cutAt? separator body with
  | none => { raw, context := none, path := .ofList body, fallback := none }
  | some (context, rest) =>
    match Text.cutAt? separator rest with
    | none => { raw, context := some (.ofList context), path := .ofList rest, fallback := none }
    | some (path, fallback) =>
      { raw
        context := some (.ofList context)
        path := .ofList path
        fallback := some (.ofList fallback) }

/-- The body up to the fallback, as a key of a store. -/
def key (token : Token) : String :=
  match token.context with
  | none => token.path
  | some context => context ++ .singleton separator ++ token.path

end Token

end BuildPlan
