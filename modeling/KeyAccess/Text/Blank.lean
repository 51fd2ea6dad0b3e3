-- White space: the 25 code points with the property White_Space. A text of nothing else is
-- blank, and trimming takes them off both ends.

namespace KeyAccess.Text

/-- The code points with the property White_Space. -/
def isBlank (c : Char) : Bool :=
  let n := c.toNat
  (9 ≤ n && n ≤ 13) || n == 0x20 || n == 0x85 || n == 0xA0 || n == 0x1680 ||
    (0x2000 ≤ n && n ≤ 0x200A) || n == 0x2028 || n == 0x2029 || n == 0x202F || n == 0x205F ||
    n == 0x3000

/-- The characters between the white space at the two ends. -/
def trimChars (cs : List Char) : List Char :=
  ((cs.dropWhile isBlank).reverse.dropWhile isBlank).reverse

/-- Whether a text holds nothing but white space. -/
def allBlank (s : String) : Bool := s.toList.all isBlank

end KeyAccess.Text
