import Memberwise.Absence
import Memberwise.Artifact
import Memberwise.Grouping
import Memberwise.NameMatch
import Memberwise.PropertyTable
import Memberwise.TypeIdentity

/-!
# Memberwise.Dispatch — what generated code does

Generated code looks up the type of a member by its exact name, and groups records by the member
that a name selects without regard to case. Here this is said for records of any kind, given how
their members are read.
-/

namespace Memberwise

/-- A member of records of type `ρ`, with its values in `κ`. -/
structure Property (ρ κ : Type) where
  member : Member
  type : TypeIdentity
  value : ρ → κ

/-- Records in groups, and which member they are grouped by. -/
structure Grouping (κ ρ : Type) [BEq κ] [Hashable κ] where
  variant : String
  groups : Std.HashMap κ (List ρ)

section

variable {ρ κ : Type}

/-- The table of the types of members. -/
def propertyTable (ps : List (Property ρ κ)) : PropertyTable TypeIdentity :=
  PropertyTable.ofList (ps.map fun p => (p.member.name, p.type))

/-- The type of the member with exactly this name. -/
def propertyType? (ps : List (Property ρ κ)) (name : String) : Option TypeIdentity :=
  (propertyTable ps).get? name

/-- The branches of members. -/
def propertyBranches (ps : List (Property ρ κ)) : List Branch :=
  (branches (ps.map Property.member)).value

/-- The records whose member is there, as far as absent values have to be left out. -/
def Property.present [MaybeAbsent κ] (p : Property ρ κ) (source : List ρ) : List ρ :=
  if p.member.nullability.needsFilter then source.filter fun r => !isAbsent (p.value r) else source

variable [BEq κ] [Hashable κ] [MaybeAbsent κ]

/-- Records by the value of a member. -/
def Property.groups (p : Property ρ κ) (source : List ρ) : Groups κ ρ :=
  groupBy p.value (p.present source)

/-- Records by the value of the first member that a name selects. There is no grouping if there are
no records, if the name is empty, or if it selects no member. -/
def groupByProperty (ps : List (Property ρ κ)) (source : List ρ) (name : String) :
    Option (Grouping κ ρ) :=
  if source.isEmpty || name.isEmpty then none
  else do
    let branch ← (propertyBranches ps).find? fun b => namesMatch name b.member.name
    let p ← ps.find? fun p => p.member == branch.member
    return ⟨branch.variant, (p.groups source).toMap⟩

end

end Memberwise
