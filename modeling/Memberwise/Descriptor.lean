import Memberwise.Scan

/-!
# Memberwise.Descriptor — declarations and their members

A descriptor holds what generated code needs to know of a struct: its names and, for each field
that is not skipped, name, type and class.
-/

namespace Memberwise

open Source

/-- A member of a declaration. -/
structure Member where
  /-- The name of the field without `r#`. -/
  name : String
  /-- The name of the field as it is written. -/
  fieldIdent : String
  /-- The canonical type, or the written type if it could not be resolved. -/
  type : String
  resolved : Bool
  nullability : Nullability
deriving DecidableEq, Repr

/-- A declaration and its members in order. -/
structure Descriptor where
  simpleName : String
  fullName : String
  members : List Member
deriving DecidableEq, Repr

section

variable (m : Semantics) (c : Config)

/-- Describes a field, unless it is skipped or has no name. -/
def describeField (d : Candidate) (f : Field) : Traced (Option Member) := do
  match f.name with
  | none => return none
  | some i =>
    if (← readOptions f).skip then
      Traced.report (.memberSkipped i.name)
      return none
    else
      let mark ← m.mark f
      match m.type? f.type d.scope with
      | some t =>
        return some ⟨i.name, i.text, t.text, true, classify t mark⟩
      | none =>
        let written := f.type.written
        Traced.report
          (.typeUnresolved d.item.name.text i.name written c.unresolvedNullability)
        return some ⟨i.name, i.text, written, false, c.unresolvedNullability⟩

/-- Describes fields in order. -/
def describeFields (d : Candidate) : List Field → Traced (List Member)
  | [] => pure []
  | f :: fs => do
    let first ← describeField m c d f
    let rest ← describeFields d fs
    return first.toList ++ rest

/-- The fields that can be members: those with names. -/
def Source.Fields.namedList : Fields → List Field
  | .named fields => fields
  | _ => []

/-- Describes a selected struct. -/
def describe (d : Candidate) : Traced Descriptor := do
  let simpleName := d.item.name.name
  let fullName := (m.declaredName? d.item.name d.scope).getD simpleName
  let members ← describeFields m c d d.item.fields.namedList
  Traced.report (.declarationResolved fullName members.length)
  return ⟨simpleName, fullName, members⟩

/-- Describes selected structs in order. -/
def describeAll : List Candidate → Traced (List Descriptor)
  | [] => pure []
  | d :: ds => do
    let first ← describe m c d
    let rest ← describeAll ds
    return first :: rest

end

end Memberwise
