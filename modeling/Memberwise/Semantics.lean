import Memberwise.FieldOptions
import Memberwise.Nullability
import Memberwise.Symbols.Resolve
import Memberwise.Trace

/-!
# Memberwise.Semantics — what names and types mean

Scanning and describing ask for the meaning of attributes, declarations and types only through
this record. The symbol table of a file gives one; a fixed answer gives another.
-/

namespace Memberwise

open Source

/-- What names and types mean. -/
structure Semantics where
  /-- The canonical path of an attribute written in a scope. -/
  attribute? : SourcePath → Scope → Option String
  /-- The canonical path of a type declared in a scope. -/
  declaredName? : Ident → Scope → Option String
  /-- The canonical form of a type written in a scope. -/
  type? : SourceType → Scope → Option ResolvedType
  /-- What the declaration of a field says about its absence. -/
  mark : Field → Traced AbsenceMark

/-- The options of a field. Options that cannot be read are reported and count as none. -/
def readOptions (f : Field) : Traced FieldOptions :=
  match FieldOptions.read? f.attributes with
  | some options => pure options
  | none => do
    Traced.report (.optionsIgnored ((f.name.map Ident.text).getD ""))
    return .unmarked

/-- What a mark on a field says about its absence. -/
def markOf (o : FieldOptions) : AbsenceMark :=
  if o.nullable then .marked else .unmarked

namespace Semantics

/-- The meaning that a symbol table gives. Marks are looked at if `marks`. -/
def ofTable (t : SymbolTable) (marks : Bool) : Semantics where
  attribute? := t.attribute?
  declaredName? := t.declaredName?
  type? ty scope := t.resolve scope ty
  mark f := if marks then markOf <$> readOptions f else pure .oblivious

/-- The meaning that gives one answer for every attribute and none for types. -/
def fixed (answer : Option String) : Semantics where
  attribute? _ _ := answer
  declaredName? _ _ := none
  type? _ _ := none
  mark _ := pure .oblivious

end Semantics

end Memberwise
