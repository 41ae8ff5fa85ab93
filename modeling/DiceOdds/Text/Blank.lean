/-!
# White space around a line

The characters with the property `White_Space`, and the removal of such
characters from both ends of a text.
-/

namespace DiceOdds

def Text.isSpace (character : Char) : Bool :=
  [(0x9, 0xD), (0x20, 0x20), (0x85, 0x85), (0xA0, 0xA0), (0x1680, 0x1680),
    (0x2000, 0x200A), (0x2028, 0x2029), (0x202F, 0x202F), (0x205F, 0x205F),
    (0x3000, 0x3000)].any fun range =>
      range.1 ≤ character.toNat && character.toNat ≤ range.2

/-- The text without the white space at its beginning and its end. -/
def Text.trim (text : List Char) : List Char :=
  ((text.dropWhile Text.isSpace).reverse.dropWhile Text.isSpace).reverse

end DiceOdds
