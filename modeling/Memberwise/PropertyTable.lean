import Std.Data.HashMap

/-!
# Memberwise.PropertyTable — members and their types

A table from the names of members to their types. Names are looked up exactly. Entries keep the
order in which they are given; of entries with one name, only the first is kept. An index gives the
position of each name.
-/

namespace Memberwise

/-- A table from names to types. -/
structure PropertyTable (τ : Type) where
  entries : Array (String × τ)
  /-- The position of each name. -/
  index : Std.HashMap String Nat

namespace PropertyTable

variable {τ : Type}

/-- The table without entries. -/
def empty : PropertyTable τ := ⟨#[], ∅⟩

/-- Adds an entry at the end, unless there is one with its name. -/
def add (t : PropertyTable τ) (name : String) (type : τ) : PropertyTable τ :=
  if t.index.contains name then t
  else ⟨t.entries.push (name, type), t.index.insert name t.entries.size⟩

/-- The table with given entries. -/
def ofList (entries : List (String × τ)) : PropertyTable τ :=
  entries.foldl (fun t (name, type) => t.add name type) empty

/-- The entries in order. -/
def toList (t : PropertyTable τ) : List (String × τ) := t.entries.toList

/-- The names in order. -/
def names (t : PropertyTable τ) : List String := t.toList.map Prod.fst

/-- The number of entries. -/
def size (t : PropertyTable τ) : Nat := t.entries.size

/-- Whether there are no entries. -/
def isEmpty (t : PropertyTable τ) : Bool := t.entries.isEmpty

/-- The type of a member, if the table has one with exactly this name. -/
def get? (t : PropertyTable τ) (name : String) : Option τ := do
  let position ← t.index[name]?
  let entry ← t.entries[position]?
  return entry.2

/-- Whether the table has a member with exactly this name. -/
def contains (t : PropertyTable τ) (name : String) : Bool := t.index.contains name

end PropertyTable

end Memberwise
