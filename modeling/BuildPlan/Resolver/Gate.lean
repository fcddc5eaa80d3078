import BuildPlan.Gate.Basic
import BuildPlan.Resolver.Basic

/-!
# Gates with placeholders

The placeholders of a gate are replaced before it is read, so the texts they resolve to become a
part of the expression.
-/

set_option autoImplicit false
set_option relaxedAutoImplicit false

namespace BuildPlan.Resolver

/-- The answer of a gate over the store of a resolver, after its placeholders were replaced. -/
def evaluateGate (resolver : Resolver) (expression : String) : Except GateError Bool :=
  match resolver.interpolate expression with
  | .error cause => .error (.interpolation cause)
  | .ok interpolated =>
    match Gate.compile interpolated with
    | .error error => .error error
    | .ok gate => gate.evaluate resolver.store

end BuildPlan.Resolver
