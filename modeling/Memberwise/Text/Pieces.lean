/-!
# Memberwise.Text.Pieces — cutting and replacing

Plain operations on lists of characters: cutting at every `::`, at every character of a kind, and
replacing every occurrence of a word.
-/

namespace Memberwise.Text

/-- Adds a character to the first piece. -/
def consPiece (c : Char) : List (List Char) → List (List Char)
  | [] => [[c]]
  | piece :: pieces => (c :: piece) :: pieces

/-- The pieces between the double colons, found from left to right. -/
def splitColons : List Char → List (List Char)
  | ':' :: ':' :: cs => [] :: splitColons cs
  | c :: cs => consPiece c (splitColons cs)
  | [] => [[]]

/-- The pieces between the characters that satisfy `p`. -/
def splitAt (p : Char → Bool) : List Char → List (List Char)
  | [] => [[]]
  | c :: cs => if p c then [] :: splitAt p cs else consPiece c (splitAt p cs)

/-- Replaces every occurrence of `word` from left to right; `skip` counts the characters of the
current occurrence that are still to be passed. -/
def replaceFrom (word new : List Char) : Nat → List Char → List Char
  | _, [] => []
  | skip + 1, _ :: cs => replaceFrom word new skip cs
  | 0, c :: cs =>
    if word.isPrefixOf (c :: cs) then new ++ replaceFrom word new (word.length - 1) cs
    else c :: replaceFrom word new 0 cs

/-- Replaces every occurrence of `word`, which is not empty, by `new`. -/
def replaceAll (word new : String) (cs : List Char) : List Char :=
  replaceFrom word.toList new.toList 0 cs

/-- What follows `start`, if the text starts with it. -/
def dropStart? (start s : String) : Option String :=
  (start.toList.isPrefixOf? s.toList).map String.ofList

end Memberwise.Text
