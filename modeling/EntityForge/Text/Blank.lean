/-!
# White space

The white space of Unicode, and texts freed of it at their ends.
-/

namespace EntityForge.Text

/-- Whether a character is white space. Unicode has twenty-five of these. -/
def isBlank (c : Char) : Bool :=
  let n := c.toNat
  (0x9 ≤ n && n ≤ 0xD) || n == 0x20 || n == 0x85 || n == 0xA0 || n == 0x1680 ||
    (0x2000 ≤ n && n ≤ 0x200A) || n == 0x2028 || n == 0x2029 || n == 0x202F || n == 0x205F ||
    n == 0x3000

/-- A text without the leading characters that pass a test. -/
def dropStart (p : Char → Bool) (s : List Char) : List Char :=
  s.dropWhile p

/-- A text without the trailing characters that pass a test. -/
def dropEnd (p : Char → Bool) (s : List Char) : List Char :=
  (s.reverse.dropWhile p).reverse

/-- A text without the white space at its ends. -/
def trim (s : List Char) : List Char :=
  dropEnd isBlank (dropStart isBlank s)

end EntityForge.Text
