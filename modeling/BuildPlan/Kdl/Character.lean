import BuildPlan.Text.Blank

/-!
# Character classes of documents

Which characters separate, which end a line, which a name may be made of, and which may not stand
in a document at all.
-/

set_option autoImplicit false
set_option relaxedAutoImplicit false

namespace BuildPlan.Kdl

/-- The code points of the characters that separate within a line. -/
def spaceRanges : List (Nat × Nat) :=
  [(0x09, 0x09), (0x20, 0x20), (0xA0, 0xA0), (0x1680, 0x1680), (0x2000, 0x200A),
    (0x202F, 0x202F), (0x205F, 0x205F), (0x3000, 0x3000)]

/-- The code points of the characters that end a line. -/
def newlineRanges : List (Nat × Nat) :=
  [(0x0A, 0x0D), (0x85, 0x85), (0x2028, 0x2029)]

/-- The code points of the characters that may not stand in a document: the control characters in
front of the space that neither separate nor end a line, marks that change the direction of
writing, and the byte order mark. The control characters from delete on are characters like any
other. -/
def forbiddenRanges : List (Nat × Nat) :=
  [(0x00, 0x08), (0x0E, 0x1F), (0x200E, 0x200F), (0x202A, 0x202E), (0x2066, 0x2069),
    (0xFEFF, 0xFEFF)]

/-- Whether a character separates within a line. -/
def isSpace (c : Char) : Bool := Text.inRanges spaceRanges c.toNat

/-- Whether a character ends a line. -/
def isNewline (c : Char) : Bool := Text.inRanges newlineRanges c.toNat

/-- Whether a character may not stand in a document. -/
def isForbidden (c : Char) : Bool := Text.inRanges forbiddenRanges c.toNat

/-- The characters that structure a document. -/
def structuralCharacters : List Char :=
  ['\\', '/', '(', ')', '\x7b', '\x7d', ';', '[', ']', '"', '#', '=']

/-- Whether a name without quotes may contain a character. -/
def isNameCharacter (c : Char) : Bool :=
  !isSpace c && !isNewline c && !isForbidden c && !structuralCharacters.contains c

/-- The character that may stand in front of a document. -/
def byteOrderMark : Char := '\ufeff'

/-- The text after one line end at its front; a carriage return and the line feed after it are one
line end. -/
def afterNewline? : List Char → Option (List Char)
  | '\r' :: '\n' :: rest => some rest
  | c :: rest => if isNewline c then some rest else none
  | [] => none

end BuildPlan.Kdl
