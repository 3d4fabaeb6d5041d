/-!
# Memberwise.Absence — values that may be absent

Grouping by a nullable member leaves out the elements whose value is absent. Optional values,
pointers and links without a target can be absent; texts, collections, and references that own or
borrow their target never are, whatever they hold. A type of a program's own says for itself when a
value is absent.
-/

namespace Memberwise

/-- Types whose values may be absent. -/
class MaybeAbsent (α : Type) where
  isAbsent : α → Bool

export MaybeAbsent (isAbsent)

variable {α : Type}

/-- An optional value is absent if it holds nothing; what it holds does not matter. -/
instance : MaybeAbsent (Option α) where
  isAbsent := Option.isNone

/-- A pointer, which may lead nowhere. -/
inductive Pointer (α : Type) where
  | null
  | to (target : α)

instance : MaybeAbsent (Pointer α) where
  isAbsent
    | .null => true
    | .to _ => false

/-- A link that does not keep its target. -/
structure WeakLink (α : Type) where
  /-- The target and how many still own it; none if there has never been a target. -/
  target : Option (α × Nat)

/-- The number of those who own the target. -/
def WeakLink.owners (link : WeakLink α) : Nat := (link.target.map Prod.snd).getD 0

/-- A link is absent if nobody owns its target any more. -/
instance : MaybeAbsent (WeakLink α) where
  isAbsent link := link.owners == 0

/-- A reference that owns or borrows its target. -/
structure Reference (α : Type) where
  target : α

instance : MaybeAbsent (Reference α) where
  isAbsent _ := false

/-- A value of which nothing is known. -/
structure AnyValue (α : Type) where
  value : α

instance : MaybeAbsent (AnyValue α) where
  isAbsent _ := false

instance : MaybeAbsent String where
  isAbsent _ := false

/-- A collection, also one that is empty, is there. -/
instance : MaybeAbsent (List α) where
  isAbsent _ := false

end Memberwise
