import LetScript.Text.Ranges

/-
  Blank characters: the ones that may stand between lexemes and belong to none. They are the white
  space of Unicode together with the four separator controls U+001C to U+001F. Of them only the
  line feed starts a new line.
-/

namespace LetScript.Text

/-- The blank code points, in order. -/
def blankRanges : Ranges :=
  [(0x9, 0xD), (0x1C, 0x20), (0x85, 0x85), (0xA0, 0xA0), (0x1680, 0x1680), (0x2000, 0x200A),
   (0x2028, 0x2029), (0x202F, 0x202F), (0x205F, 0x205F), (0x3000, 0x3000)]

/-- Whether a character only separates lexemes. -/
def isBlank (c : Char) : Bool := blankRanges.contains c.toNat

/-- The number of line feeds in a text. -/
def newlines (cs : List Char) : Nat := cs.count '\n'

theorem newlines_append (cs ds : List Char) : newlines (cs ++ ds) = newlines cs + newlines ds :=
  List.count_append

end LetScript.Text
