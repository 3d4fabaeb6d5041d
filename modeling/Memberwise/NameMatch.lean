import Memberwise.Text.CaseMap

/-!
# Memberwise.NameMatch — names without regard to case

A requested member name matches a declared one when they differ in case only. Names in ASCII take
a shorter way; the others are compared by the small form of each character.
-/

namespace Memberwise

open Text

/-- Whether every character of a text is ASCII. -/
def isAsciiText (s : String) : Bool := s.toList.all fun c => decide (c.toNat < 128)

/-- Whether `requested` names the member `declared`. -/
def namesMatch (requested declared : String) : Bool :=
  if isAsciiText requested && isAsciiText declared then
    requested.toList.map Char.toLower == declared.toList.map Char.toLower
  else
    lowerEach requested == lowerEach declared

end Memberwise
