import Memberwise.Text.CaseMap
import Memberwise.Text.Pieces

/-!
# Memberwise.Naming — naming conventions of generated items

Generated files, tables and variants take their names from the annotated type and its members, in
one of three conventions: `snake_case`, `SCREAMING_SNAKE_CASE` and `PascalCase`.
-/

namespace Memberwise.Naming

open Text

/-! ## Snake case -/

/-- Whether a word starts at a capital letter: after a small letter or a digit, and at the last
capital of a run of capitals, if a small letter follows. -/
def startsWord (previous next : Option Char) : Bool :=
  match previous with
  | none => false
  | some p =>
    if isLowercase p || p.isDigit then true
    else if isUppercase p then next.any isLowercase
    else false

/-- The snake-case form of the rest of a name. `previous` is the character before it, and
`separated` says whether the text written so far ends in an underscore. -/
def snakeFrom (previous : Option Char) (separated : Bool) : List Char → List Char
  | [] => []
  | c :: cs =>
    if isUppercase c then
      let small := lowerChar c
      (if startsWord previous cs.head? && !separated then ['_'] else []) ++ small ++
        snakeFrom (some c) (small.getLast? == some '_') cs
    else if c == '-' || c == ' ' then
      '_' :: snakeFrom (some c) true cs
    else
      c :: snakeFrom (some c) (c == '_') cs

/-- Converts a name to `snake_case`. A run of capitals stays one word. -/
def toSnakeCase (s : String) : String := String.ofList (snakeFrom none false s.toList)

/-- Converts a name to `SCREAMING_SNAKE_CASE`. -/
def toUpperSnakeCase (s : String) : String := upperText (toSnakeCase s)

/-! ## Pascal case -/

/-- A word with its first character in capital form. -/
def capitalize : List Char → List Char
  | [] => []
  | c :: cs => upperChar c ++ cs

/-- Converts a name to `PascalCase`: the words between hyphens and underscores, capitalized and
joined. -/
def toPascalCase (s : String) : String :=
  String.ofList ((splitAt (fun c => c == '-' || c == '_') s.toList).flatMap capitalize)

/-- The variant name of a member. A name that would be empty, start with a digit or be the keyword
`Self` is led by `Member`. -/
def toVariantName (member : String) : String :=
  let pascal := toPascalCase member
  match pascal.toList with
  | c :: _ => if !c.isDigit && pascal != "Self" then pascal else "Member" ++ pascal
  | [] => "Member" ++ pascal

end Memberwise.Naming
