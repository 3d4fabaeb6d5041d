import Memberwise.Config
import Memberwise.Semantics

/-!
# Memberwise.Scan — the declarations that are selected

A struct is selected if one of its attributes, or a path in one of its `derive` lists, is a
qualifying annotation. Attributes are compared by their canonical path. A `cfg_attr` counts as the
attributes in it, whatever its condition is.
-/

namespace Memberwise

open Source

/-- A struct that was selected, with the module that declares it. -/
structure Candidate where
  item : StructItem
  scope : Scope

/-- The canonical path of the attribute that lists derived traits. -/
def derivePath : String := "::core::prelude::v1::derive"

/-- The canonical path of the attribute that holds others under a condition. -/
def conditionalPath : String := "::core::prelude::v1::cfg_attr"

/-- The paths in a `derive` list; a list that cannot be read is empty. -/
def derivedPaths : Meta → List SourcePath
  | .list _ tokens => (pathList? tokens).getD []
  | _ => []

/-- The attributes in a `cfg_attr`, without its condition; a list that cannot be read is empty. -/
def conditionalMetas : Meta → List Meta
  | .list _ tokens => ((metaList? tokens).getD []).drop 1
  | _ => []

/-- The number of tokens in an attribute, which bounds how deep others are nested in it. -/
def Source.Meta.size : Meta → Nat
  | .list _ tokens => TokenTree.sizeAll tokens
  | _ => 0

section

variable (m : Semantics) (c : Config) (scope : Scope)

/-- Looks an attribute up. -/
def lookAttribute (p : SourcePath) : Traced (Option String) := Traced.looked (m.attribute? p scope)

/-- Whether a derived path is a qualifying annotation. -/
def deriveQualifies (p : SourcePath) : Traced Bool := do
  match ← lookAttribute m scope p with
  | some path => return c.qualifies path
  | none =>
    Traced.report (.deriveIgnored p.written)
    return false

/-- Whether an attribute, or one nested in it at most `depth` deep, is a qualifying annotation. -/
def metaQualifies : Nat → Meta → Traced Bool
  | 0, _ => pure false
  | depth + 1, attr => do
    match ← lookAttribute m scope attr.name with
    | none =>
      Traced.report (.attributeIgnored attr.name.written)
      return false
    | some path =>
      if path = derivePath then (derivedPaths attr).anyM (deriveQualifies m c scope)
      else if path = conditionalPath then (conditionalMetas attr).anyM (metaQualifies depth)
      else return c.qualifies path

/-- Whether one of the attributes selects a struct. Doc comments are passed over. -/
def isQualifying (attributes : List Meta) : Traced Bool :=
  (attributes.filter fun attr => !attr.name.isWord "doc").anyM fun attr =>
    metaQualifies m c scope (attr.size + 1) attr

/-- The struct, if it is selected and has no parameters. -/
def scanStruct (s : StructItem) : Traced (List Candidate) := do
  if ← isQualifying m c scope s.attributes then
    if s.generics.isEmpty then
      Traced.report (.declarationFound s.name.text scope)
      return [⟨s, scope⟩]
    else
      Traced.report (.genericSkipped s.name.text scope)
      return []
  else return []

end

mutual

/-- The structs that are selected in an item. -/
def scanItem (m : Semantics) (c : Config) (scope : Scope) : Item → Traced (List Candidate)
  | .struct s => scanStruct m c scope s
  | .module i (some items) => scan m c (scope.child i.name) items
  | _ => pure []

/-- The structs that are selected in the items of a module, in the order of the source. -/
def scan (m : Semantics) (c : Config) (scope : Scope) : List Item → Traced (List Candidate)
  | [] => pure []
  | item :: items => do
    let first ← scanItem m c scope item
    let rest ← scan m c scope items
    return first ++ rest

end

end Memberwise
