import Memberwise.ResolvedType

/-!
# Memberwise.Nullability — whether a member can be absent

The class of a member decides whether its absent values are left out before grouping.
-/

namespace Memberwise

/-- Whether the values of a member can be absent, and how. -/
inductive Nullability where
  /-- The type refers to data elsewhere or is `dyn Any`, or the member is marked nullable. -/
  | alwaysNullable
  /-- An `Option` of a type that is stored inline. -/
  | optionalValue
  /-- Always present. -/
  | nonNullable
deriving DecidableEq, Repr

namespace Nullability

/-- The classes. -/
def all : List Nullability := [alwaysNullable, optionalValue, nonNullable]

/-- The name of a class. -/
def name : Nullability → String
  | alwaysNullable => "always-nullable"
  | optionalValue => "optional-value"
  | nonNullable => "non-nullable"

/-- The class with a given name. -/
def ofName? (text : String) : Option Nullability := all.find? fun n => n.name == text

/-- Whether absent values have to be left out before grouping. -/
def needsFilter (n : Nullability) : Bool := n != nonNullable

end Nullability

/-- What the declaration of a member says about its absence. -/
inductive AbsenceMark where
  /-- The member is marked nullable. -/
  | marked
  | unmarked
  /-- Marks are not looked at. -/
  | oblivious
deriving DecidableEq, Repr

/-- Whether a type is nullable by itself. -/
def ResolvedType.isNullable (t : ResolvedType) : Bool := t.isTop || t.isReferenceLike

/-- The class of a member. A type that refers to data elsewhere is nullable, also inside `Option`;
an `Option` of anything else is an optional value; of all other types, those that are marked are
nullable. -/
def classify (t : ResolvedType) (mark : AbsenceMark) : Nullability :=
  if t.isNullable then .alwaysNullable
  else
    match t.optionInner with
    | some inner => if inner.isNullable then .alwaysNullable else .optionalValue
    | none => if mark = .marked then .alwaysNullable else .nonNullable

end Memberwise
