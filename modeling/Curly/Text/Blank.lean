import Curly.Text.Ranges

/-!
# White space

The property White_Space: 25 code points, and with it the trimming of a text
on either side.
-/

namespace Curly.Text

def blankRanges : List (Nat × Nat) :=
  [(0x09, 0x0D), (0x20, 0x20), (0x85, 0x85), (0xA0, 0xA0), (0x1680, 0x1680), (0x2000, 0x200A),
   (0x2028, 0x2029), (0x202F, 0x202F), (0x205F, 0x205F), (0x3000, 0x3000)]

def isBlank (c : Char) : Bool :=
  inRanges blankRanges c.toNat

/-- The blanks a text begins with, and the text after them. -/
def splitBlanksLeft (text : List Char) : List Char × List Char :=
  (text.takeWhile isBlank, text.dropWhile isBlank)

/-- The text before the blanks it ends with, and those blanks. -/
def splitBlanksRight (text : List Char) : List Char × List Char :=
  ((text.reverse.dropWhile isBlank).reverse, (text.reverse.takeWhile isBlank).reverse)

theorem splitBlanksLeft_append (text : List Char) :
    (splitBlanksLeft text).1 ++ (splitBlanksLeft text).2 = text :=
  List.takeWhile_append_dropWhile

theorem splitBlanksRight_append (text : List Char) :
    (splitBlanksRight text).1 ++ (splitBlanksRight text).2 = text := by
  simp only [splitBlanksRight, ← List.reverse_append, List.takeWhile_append_dropWhile,
    List.reverse_reverse]

end Curly.Text
