/-!
# Blanks

The characters that may surround a number on a command line: blank, tabulator, the line ends and
page breaks, and the wide, narrow and unbreakable blanks beyond ASCII.  On output there is one
blank only, and it makes indentations.
-/

namespace RecordSchema

/-- So many blanks; none for a count that is not positive.  No count is too large for a text. -/
def blanks (count : Int) : String := String.ofList (List.replicate count.toNat ' ')

namespace Blank

/-- A character that separates without being seen. -/
def isBlank (c : Char) : Bool :=
  let n := c.toNat
  n = 0x20 || decide (9 ≤ n) && decide (n ≤ 0xd) || n = 0x85 || n = 0xa0 || n = 0x1680 ||
    decide (0x2000 ≤ n) && decide (n ≤ 0x200a) || n = 0x2028 || n = 0x2029 || n = 0x202f ||
    n = 0x205f || n = 0x3000

/-- A text without the blanks at its ends. -/
def trim (cs : List Char) : List Char :=
  ((cs.dropWhile isBlank).reverse.dropWhile isBlank).reverse

end Blank

end RecordSchema
