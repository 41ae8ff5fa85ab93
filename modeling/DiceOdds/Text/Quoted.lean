import DiceOdds.Text.Category
import DiceOdds.Text.Extending

/-!
# Quoted text

Texts are shown in messages between double quotes.  A character that could not
be told apart on a screen, because it has no glyph or because it attaches to the
character before it, is written as an escape.
-/

namespace DiceOdds

def Text.inRanges (ranges : List (Nat × Nat)) (character : Char) : Bool :=
  ranges.any fun range =>
    range.1 ≤ character.toNat && character.toNat ≤ range.2

def Text.isVisible (character : Char) : Bool :=
  !(Text.inRanges Text.glyphlessRanges character ||
    Text.inRanges Text.extendingRanges character)

/-- Lower-case hexadecimal digits of a number, without leading zeros. -/
def Text.hexadecimal (number : Nat) : List Char :=
  Nat.toDigits 16 number

/-- The written form of one character between double quotes. -/
def Text.escape (character : Char) : List Char :=
  match character with
  | '\x00' => ['\\', '0']
  | '\t' => ['\\', 't']
  | '\n' => ['\\', 'n']
  | '\r' => ['\\', 'r']
  | '"' => ['\\', '"']
  | '\\' => ['\\', '\\']
  | _ =>
      if Text.isVisible character then
        [character]
      else
        "\\u\x7b".toList ++ Text.hexadecimal character.toNat ++ "\x7d".toList

def Text.quote (text : String) : String :=
  String.ofList ('"' :: text.toList.flatMap Text.escape ++ ['"'])

end DiceOdds
