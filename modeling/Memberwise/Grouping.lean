import Std.Data.HashMap

/-!
# Memberwise.Grouping — elements by key

Grouping puts every element of a sequence into the group of its key. Groups stand in the order in
which their keys are first seen, and elements keep their order inside a group. While grouping, a
map gives the slot of each key that has been seen, so that each element takes one look-up.
-/

namespace Memberwise

variable {κ ε : Type}

/-- Elements by key, in the order in which the keys are first seen. -/
structure Groups (κ ε : Type) where
  toArray : Array (κ × Array ε)
deriving DecidableEq, Repr

namespace Groups

/-- Keys with their elements. -/
def toList (g : Groups κ ε) : List (κ × List ε) :=
  g.toArray.toList.map fun (k, es) => (k, es.toList)

/-- The number of keys. -/
def size (g : Groups κ ε) : Nat := g.toArray.size

/-- Whether there are no groups. -/
def isEmpty (g : Groups κ ε) : Bool := g.toArray.isEmpty

/-- The keys in the order in which they are first seen. -/
def keys (g : Groups κ ε) : List κ := g.toList.map Prod.fst

/-- The number of elements in all groups. -/
def elementCount (g : Groups κ ε) : Nat := (g.toList.flatMap Prod.snd).length

/-- The elements with a key, if there are any. -/
def get? [BEq κ] (g : Groups κ ε) (key : κ) : Option (List ε) :=
  (g.toList.find? fun (k, _) => k == key).map Prod.snd

/-- The groups as a map from keys to elements. -/
def toMap [BEq κ] [Hashable κ] (g : Groups κ ε) : Std.HashMap κ (List ε) :=
  Std.HashMap.ofList g.toList

end Groups

/-! ## Building groups -/

/-- Groups in progress, with the slot of each key. -/
structure GroupsBuilder (κ ε : Type) [BEq κ] [Hashable κ] where
  slots : Std.HashMap κ Nat
  groups : Array (κ × Array ε)

namespace GroupsBuilder

variable [BEq κ] [Hashable κ]

/-- No groups. -/
def empty : GroupsBuilder κ ε := ⟨∅, #[]⟩

/-- Adds an element to the group of a key; a key that is new gets a group at the end. -/
def add (b : GroupsBuilder κ ε) (key : κ) (e : ε) : GroupsBuilder κ ε :=
  match b.slots[key]? with
  | some slot => { b with groups := b.groups.modify slot fun (k, es) => (k, es.push e) }
  | none => ⟨b.slots.insert key b.groups.size, b.groups.push (key, #[e])⟩

/-- Adds elements in order, each to the group of its key. -/
def addAll (b : GroupsBuilder κ ε) (key : ε → κ) (source : List ε) : GroupsBuilder κ ε :=
  source.foldl (fun b e => b.add (key e) e) b

end GroupsBuilder

/-- The elements of a sequence by key. -/
def groupBy [BEq κ] [Hashable κ] (key : ε → κ) (source : List ε) : Groups κ ε :=
  ⟨(GroupsBuilder.empty.addAll key source).groups⟩

end Memberwise
