/-!
# Memberwise.Token — token trees and their text

Source text is read as trees of tokens: identifiers, lifetimes, punctuation characters, literals
and delimited groups. A punctuation character is *joint* when it continues into the next one, as
the first colon of `::` does.

Printed tokens are separated by one space, except after a joint character. Round and square
brackets have no inner padding; braces have.
-/

namespace Memberwise

/-- An identifier. A raw one is written with a leading `r#`. -/
structure Ident where
  name : String
  raw : Bool
deriving DecidableEq, Repr

namespace Ident

/-- An identifier written without `r#`. -/
def plain (name : String) : Ident := ⟨name, false⟩

/-- The identifier as it is written. -/
def text (i : Ident) : String := if i.raw then "r#" ++ i.name else i.name

/-- Whether the identifier is the bare word `word`. -/
def isWord (i : Ident) (word : String) : Bool := !i.raw && i.name == word

/-- The bare words that cannot name anything: keywords, words reserved for later, and the
underscore. -/
def reserved : List String :=
  ["_", "abstract", "as", "async", "await", "become", "box", "break", "const", "continue",
   "crate", "do", "dyn", "else", "enum", "extern", "false", "final", "fn", "for", "if", "impl",
   "in", "let", "loop", "macro", "match", "mod", "move", "mut", "override", "priv", "pub", "ref",
   "return", "Self", "self", "static", "struct", "super", "trait", "true", "try", "type",
   "typeof", "unsafe", "unsized", "use", "virtual", "where", "while", "yield"]

/-- Whether the identifier can name something. -/
def isName (i : Ident) : Bool := i.raw || !reserved.contains i.name

end Ident

/-- The brackets around a group. -/
inductive Delimiter where
  | parenthesis
  | bracket
  | brace
deriving DecidableEq, Repr

/-- A token or a delimited group of tokens. -/
inductive TokenTree where
  | ident (i : Ident)
  | lifetime (i : Ident)
  | punct (c : Char) (joint : Bool)
  | literal (text : String)
  | group (d : Delimiter) (body : List TokenTree)

namespace TokenTree

/-- Whether the token continues into the next one. -/
def isJoint : TokenTree → Bool
  | punct _ joint => joint
  | _ => false

mutual

/-- The number of tokens in a tree, its groups counted too. -/
def size : TokenTree → Nat
  | group _ body => 1 + sizeAll body
  | _ => 1

/-- The number of tokens in a list of trees. -/
def sizeAll : List TokenTree → Nat
  | [] => 0
  | t :: ts => t.size + sizeAll ts

end

mutual

/-- The printed form of a tree. -/
def text : TokenTree → String
  | ident i => i.text
  | lifetime i => "'" ++ i.text
  | punct c _ => String.singleton c
  | literal text => text
  | group .parenthesis body => "(" ++ textAll body ++ ")"
  | group .bracket body => "[" ++ textAll body ++ "]"
  | group .brace body =>
    if body.isEmpty then "\x7b \x7d" else "\x7b " ++ textAll body ++ " \x7d"

/-- The printed form of a list of trees. -/
def textAll : List TokenTree → String
  | [] => ""
  | [t] => t.text
  | t :: ts => t.text ++ (if t.isJoint then "" else " ") ++ textAll ts

end

/-- The characters of an operator: all but the last are joint. -/
def operatorOf : List Char → List TokenTree
  | [] => []
  | [c] => [punct c false]
  | c :: cs => punct c true :: operatorOf cs

/-- An operator as tokens. -/
def operator (op : String) : List TokenTree := operatorOf op.toList

end TokenTree

end Memberwise
