import BuildPlan.Extension.Registry
import BuildPlan.Text.Unprintable

/-!
# Listing a registry

The text that shows which contexts a registry knows, for people who look for a mistake in a setup.
The names stand in double quotes, with escapes for quotes, backslashes and characters that do not
show.
-/

set_option autoImplicit false
set_option relaxedAutoImplicit false

namespace BuildPlan.Registry

/-- A character as it stands in a name between double quotes. -/
def escapeChar (c : Char) : List Char :=
  if c = '"' then ['\\', '"']
  else if c = '\\' then ['\\', '\\']
  else if c = '\n' then ['\\', 'n']
  else if c = '\r' then ['\\', 'r']
  else if c = '\t' then ['\\', 't']
  else if c = '\x00' then ['\\', '0']
  else if Text.isUnprintable c then
    ['\\', 'u', '\x7b'] ++ Nat.toDigits 16 c.toNat ++ ['\x7d']
  else [c]

/-- A name between double quotes. -/
def quoteName (name : String) : String :=
  .ofList ('"' :: (name.toList.flatMap escapeChar ++ ['"']))

/-- The text that shows the contexts of a registry. -/
def listing (registry : Registry) : String :=
  let names := ", ".intercalate (registry.names.map quoteName)
  "ExtensionRegistry \x7b contexts: [" ++ names ++ "] \x7d"

end BuildPlan.Registry
