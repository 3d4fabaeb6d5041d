/-!
# Memberwise.Text.CodeTable — sets of characters as ranges

A property of characters is a list of ranges in ascending order. A range has a step, so that the
alphabets in which capital and small letters alternate take one entry. The tables themselves are
in the modules named for their property.
-/

namespace Memberwise.Text

/-- A set of code points: disjoint ranges `(first, last, step)`, in ascending order. -/
abbrev CodeTable := List (Nat × Nat × Nat)

/-- Whether `n` is in the set. The ranges ascend, so the first one that does not end before `n`
decides. -/
def CodeTable.has : CodeTable → Nat → Bool
  | [], _ => false
  | (first, last, step) :: rest, n =>
    if n ≤ last then decide (first ≤ n) && (n - first) % step == 0 else CodeTable.has rest n

/-- A map on code points: ranges `(first, last, step, image)`, in ascending order, where `image`
is the image of `first` and the rest of the range moves by the same distance. -/
abbrev CodeMap := List (Nat × Nat × Nat × Nat)

/-- The image of `n`, if the map moves it. -/
def CodeMap.image? : CodeMap → Nat → Option Nat
  | [], _ => none
  | (first, last, step, image) :: rest, n =>
    if n ≤ last then
      if first ≤ n ∧ (n - first) % step = 0 then some (image + (n - first)) else none
    else CodeMap.image? rest n

end Memberwise.Text
