import BuildPlan.Dictionary
import BuildPlan.Error

/-!
# Extensions

An extension resolves the tokens of one context. It is given the token as written, the path and
the fallback, and decides for itself what the fallback is good for. A registry holds at most one
extension for each context.
-/

set_option autoImplicit false
set_option relaxedAutoImplicit false

namespace BuildPlan

/-- How the tokens of a context are resolved: from the token as written, its path and its
fallback. -/
abbrev Extension := (raw path : String) → (fallback : Option String) → Except ExtensionError String

/-- The extensions by context. -/
abbrev Registry := Dictionary Extension

namespace Extension

/-- The fallback if there is one, else a failure. -/
def orFallback (fallback : Option String) (error : ExtensionError) :
    Except ExtensionError String :=
  match fallback with
  | some text => .ok text
  | none => .error error

end Extension

end BuildPlan
