/-!
# Blank characters

The characters that separate words on a line are those with the property
White_Space: the five controls from tab to carriage return, the blank and the
next-line control, and the wider blanks of the general punctuation block.
A trimmed line neither starts nor ends with one.
-/

namespace Rv32Soc.Text

/-- The character has the property White_Space. -/
def isBlank (c : Char) : Bool :=
  let n := c.toNat
  (0x09 ≤ n && n ≤ 0x0d) || n == 0x20 || n == 0x85 || n == 0xa0 || n == 0x1680
    || (0x2000 ≤ n && n ≤ 0x200a) || n == 0x2028 || n == 0x2029 || n == 0x202f
    || n == 0x205f || n == 0x3000

/-- The text without the blanks at its two ends. -/
def trim (text : List Char) : List Char :=
  ((text.dropWhile isBlank).reverse.dropWhile isBlank).reverse

/-- The lines of a text. A line ends at a line feed, which takes a carriage return
before it along; what follows the last line feed is a line only if it is not empty. -/
def lines (text : List Char) : List (List Char) :=
  go [] text
where
  /-- `seen` is the line read so far, backwards. -/
  go (seen : List Char) : List Char → List (List Char)
    | [] => if seen.isEmpty then [] else [seen.reverse]
    | '\n' :: rest => (dropReturn seen).reverse :: go [] rest
    | c :: rest => go (c :: seen) rest
  /-- Drop the carriage return that a backwards line starts with. -/
  dropReturn : List Char → List Char
    | '\r' :: rest => rest
    | line => line

end Rv32Soc.Text
