import Memberwise.Text.CodeTable

/-!
# Memberwise.Text.Blank — white space

The property White_Space, and texts without the white space at their ends.
-/

namespace Memberwise.Text

/-- The code points with the property White_Space. -/
def blank : CodeTable :=
  [(0x9, 0xD, 1), (0x20, 0x20, 1), (0x85, 0x85, 1), (0xA0, 0xA0, 1), (0x1680, 0x1680, 1),
   (0x2000, 0x200A, 1), (0x2028, 0x2029, 1), (0x202F, 0x202F, 1), (0x205F, 0x205F, 1),
   (0x3000, 0x3000, 1)]

/-- Whether a character is white space. -/
def isBlank (c : Char) : Bool := blank.has c.toNat

/-- The characters between the white space at both ends. -/
def trimBlank (cs : List Char) : List Char :=
  ((cs.dropWhile isBlank).reverse.dropWhile isBlank).reverse

end Memberwise.Text
