/-!
# Digits

The digits of the bases up to sixteen, with letters of either case for the values from ten on.
-/

set_option autoImplicit false
set_option relaxedAutoImplicit false

namespace BuildPlan.Text

/-- The value of a digit in a base up to sixteen. -/
def digitValue? (base : Nat) (c : Char) : Option Nat :=
  let value :=
    if '0' ≤ c ∧ c ≤ '9' then some (c.toNat - '0'.toNat)
    else if 'a' ≤ c ∧ c ≤ 'f' then some (c.toNat - 'a'.toNat + 10)
    else if 'A' ≤ c ∧ c ≤ 'F' then some (c.toNat - 'A'.toNat + 10)
    else none
  value.filter (· < base)

/-- Whether a character is a digit of a base. -/
def isDigitOf (base : Nat) (c : Char) : Bool :=
  (digitValue? base c).isSome

/-- The number that digits of a base write. -/
def ofDigits (base : Nat) (digits : List Nat) : Nat :=
  digits.foldl (base * · + ·) 0

/-- The number that characters write in a base; those that are no digits are skipped. -/
def ofDigitChars (base : Nat) (text : List Char) : Nat :=
  ofDigits base (text.filterMap (digitValue? base))

end BuildPlan.Text
