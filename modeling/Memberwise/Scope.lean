import Memberwise.Text.Blank
import Memberwise.Text.Numeric
import Memberwise.Text.Pieces

/-!
# Memberwise.Scope — module paths

A scope is the path of a module, written `crate::models::inner`. It always starts at the crate
root, so only the modules below the root are kept.
-/

namespace Memberwise

open Text

/-- The path of a module: the modules below the crate root, outermost first. -/
structure Scope where
  inner : List String
deriving DecidableEq, Repr

namespace Scope

/-- The crate root. -/
def root : Scope := ⟨[]⟩

/-- The segments of the written path. -/
def segments (s : Scope) : List String := "crate" :: s.inner

/-- The written path. -/
def path (s : Scope) : String := "::".intercalate s.segments

/-- The scope of a module nested in `s`. -/
def child (s : Scope) (name : String) : Scope := ⟨s.inner ++ [name]⟩

/-- The enclosing module, if `s` is not the crate root. -/
def parent (s : Scope) : Option Scope :=
  if s.inner.isEmpty then none else some ⟨s.inner.dropLast⟩

/-- The path of an item declared in `s`. -/
def join (s : Scope) (name : String) : String := s.path ++ "::" ++ name

/-- Whether a segment of a module path is a plain name: a letter or underscore, then letters,
numbers and underscores, and not an underscore alone. -/
def isPlainName (cs : List Char) : Bool :=
  match cs with
  | [] => false
  | c :: rest =>
    (isAlphabetic c || c == '_') && cs != ['_'] && rest.all fun d => isAlphanumeric d || d == '_'

/-- Reads a path that starts with `crate` and goes on with plain names. White space around a
segment is dropped. -/
def parse (text : String) : Option Scope :=
  match (splitColons text.toList).map trimBlank with
  | first :: rest =>
    if first = "crate".toList && rest.all isPlainName then some ⟨rest.map String.ofList⟩ else none
  | [] => none

end Scope

end Memberwise
