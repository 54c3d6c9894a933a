import UtilityClass.Text.Basic

/-!
# Blank characters

The white space of Unicode (the property `White_Space`), trimming, and blank
texts: those of which trimming leaves nothing.
-/

namespace UtilityClass

/-- The ranges of code points with the property `White_Space`. -/
def blankRanges : List (Nat × Nat) :=
  [(0x09, 0x0D), (0x20, 0x20), (0x85, 0x85), (0xA0, 0xA0), (0x1680, 0x1680),
    (0x2000, 0x200A), (0x2028, 0x2029), (0x202F, 0x202F), (0x205F, 0x205F),
    (0x3000, 0x3000)]

def isBlankCharacter (character : Char) : Bool :=
  blankRanges.any fun range =>
    range.1 ≤ character.toNat && character.toNat ≤ range.2

namespace Text

/-- The text without the white space at its two ends. -/
def trim (text : Text) : Text :=
  ((text.dropWhile isBlankCharacter).reverse.dropWhile isBlankCharacter).reverse

def isBlank (text : Text) : Bool :=
  text.trim.isEmpty

end Text

end UtilityClass
