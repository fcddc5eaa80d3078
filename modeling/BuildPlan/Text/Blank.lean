/-!
# Blank characters

The characters with the Unicode property `White_Space`. Gate expressions may have any of them
between lexemes, and answers of other programs are trimmed of them at both ends.
-/

set_option autoImplicit false
set_option relaxedAutoImplicit false

namespace BuildPlan.Text

/-- The inclusive code point ranges of the property `White_Space`. -/
def blankRanges : List (Nat × Nat) :=
  [(0x09, 0x0D), (0x20, 0x20), (0x85, 0x85), (0xA0, 0xA0), (0x1680, 0x1680), (0x2000, 0x200A),
    (0x2028, 0x2029), (0x202F, 0x202F), (0x205F, 0x205F), (0x3000, 0x3000)]

/-- Whether a code point lies in one of some inclusive ranges. -/
def inRanges (ranges : List (Nat × Nat)) (code : Nat) : Bool :=
  ranges.any fun range ↦ range.1 ≤ code && code ≤ range.2

/-- Whether a character has the property `White_Space`. -/
def isBlank (c : Char) : Bool :=
  inRanges blankRanges c.toNat

/-- A text without the blank characters at its ends. -/
def trim (text : String) : String :=
  let opened := text.toList.dropWhile isBlank
  .ofList (opened.reverse.dropWhile isBlank).reverse

end BuildPlan.Text
