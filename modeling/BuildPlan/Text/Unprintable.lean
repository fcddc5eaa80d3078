import BuildPlan.Text.Blank
import BuildPlan.Text.Extending
import BuildPlan.Text.Unassigned

/-!
# Characters that do not show

Characters that a reader cannot see, or cannot tell from their neighbours, on a line of text: those
of the Unicode categories for controls, format marks, separators and private use, those that join
the character in front of them, letters that fill a place with nothing, and code points without a
character. The space is not counted among them.
-/

set_option autoImplicit false
set_option relaxedAutoImplicit false

namespace BuildPlan.Text

/-- The code points of controls, format marks, separators other than the space, and private use. -/
def invisibleRanges : List (Nat × Nat) :=
  [(0x0000, 0x001F), (0x007F, 0x00A0), (0x00AD, 0x00AD), (0x0600, 0x0605), (0x061C, 0x061C),
    (0x06DD, 0x06DD), (0x070F, 0x070F), (0x0890, 0x0891), (0x08E2, 0x08E2), (0x1680, 0x1680),
    (0x180E, 0x180E), (0x2000, 0x200F), (0x2028, 0x202F), (0x205F, 0x2064), (0x2066, 0x206F),
    (0x3000, 0x3000), (0xE000, 0xF8FF), (0xFEFF, 0xFEFF), (0xFFF9, 0xFFFB), (0x110BD, 0x110BD),
    (0x110CD, 0x110CD), (0x13430, 0x1343F), (0x1BCA0, 0x1BCA3), (0x1D173, 0x1D17A),
    (0xE0001, 0xE0001), (0xE0020, 0xE007F), (0xF0000, 0xFFFFD), (0x100000, 0x10FFFD)]

/-- The code points of the Hangul fillers, which are the letters with the property
`Default_Ignorable_Code_Point`. -/
def fillerRanges : List (Nat × Nat) :=
  [(0x115F, 0x1160), (0x3164, 0x3164), (0xFFA0, 0xFFA0)]

/-- All tables of code points that do not show. -/
def unprintableTables : List (List (Nat × Nat)) :=
  [invisibleRanges, extendingRanges, fillerRanges, unassignedBasicRanges,
    unassignedSupplementaryRanges, unassignedHighRanges]

/-- Whether a character does not show on its own. -/
def isUnprintable (c : Char) : Bool :=
  unprintableTables.any fun ranges ↦ inRanges ranges c.toNat

end BuildPlan.Text
