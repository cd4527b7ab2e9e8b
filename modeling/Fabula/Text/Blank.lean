namespace Fabula.Text

/-!
# Blank characters and words

A blank is a character with the Unicode property White_Space.  Words are the
maximal runs of other characters, and collapsing a text keeps its words with
one space between neighbours.
-/

/-- A character with the Unicode property White_Space. -/
def isBlank (c : Char) : Bool :=
  let n := c.toNat
  (0x09 ≤ n && n ≤ 0x0d) || n == 0x20 || n == 0x85 || n == 0xa0 || n == 0x1680 ||
    (0x2000 ≤ n && n ≤ 0x200a) || n == 0x2028 || n == 0x2029 || n == 0x202f ||
    n == 0x205f || n == 0x3000

/-- The maximal runs of characters that are not blank, in order. -/
def words (text : List Char) : List (List Char) :=
  (text.splitOnP isBlank).filter (fun word => !word.isEmpty)

/-- The words of a text with one space between neighbours. -/
def collapse (text : List Char) : List Char :=
  [' '].intercalate (words text)

/-- A text without any character that is not blank. -/
def isBlankText (text : String) : Bool :=
  text.toList.all isBlank

end Fabula.Text
