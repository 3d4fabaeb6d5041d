import Memberwise.Source.Parse
import Memberwise.Token.StringValue

/-!
# Memberwise.FieldOptions — the options of a field

A field can be marked with `#[property_map(...)]`. The options are `nullable` and `skip`, each a
bare word or a name with a truth value. Options of several attributes are taken together, and no
option may be given twice.
-/

namespace Memberwise

open Source

/-- The options of a field. -/
structure FieldOptions where
  nullable : Bool
  skip : Bool
deriving DecidableEq, Repr

namespace FieldOptions

/-- The options of a field that is not marked. -/
def unmarked : FieldOptions := ⟨false, false⟩

/-- The name of the attribute that holds the options. -/
def attributeName : String := "property_map"

/-- Reads a truth value: a bare word or a string. -/
def truth? : List TokenTree → Option Bool
  | [.ident i] =>
    if i.isWord "true" then some true else if i.isWord "false" then some false else none
  | [.literal text] =>
    match Token.stringValue? text with
    | some "true" => some true
    | some "false" => some false
    | _ => none
  | _ => none

/-- The value that an item gives to its option. -/
def itemValue? : Meta → Option Bool
  | .path _ => some true
  | .nameValue _ value => truth? value
  | .list .. => none

/-- The name of the option that an item sets. -/
def itemName (m : Meta) : String := "::".intercalate (m.name.segments.map fun s => s.name.text)

/-- The items of one attribute with options. -/
def itemsOf? : Meta → Option (List Meta)
  | .path _ => some []
  | .list _ tokens => metaList? tokens
  | .nameValue .. => none

/-- The items of all attributes with options, if each of them is well formed. -/
def items? (attributes : List Meta) : Option (List Meta) := do
  let marks := attributes.filter fun m => m.name.isWord attributeName
  return (← marks.mapM itemsOf?).flatten

/-- The value of an option that at most one of the items sets. -/
def valueOf? (option : String) (items : List Meta) : Option Bool :=
  match items.filter fun m => itemName m == option with
  | [] => some false
  | [item] => itemValue? item
  | _ => none

/-- Reads the options of a field from its attributes; none if they are malformed. -/
def read? (attributes : List Meta) : Option FieldOptions := do
  let items ← items? attributes
  guard (items.all fun m => ["nullable", "skip"].contains (itemName m))
  return ⟨← valueOf? "nullable" items, ← valueOf? "skip" items⟩

end FieldOptions

/-! ## Checks of a whole declaration -/

/-- Why a declaration cannot be derived. -/
inductive DeriveFault where
  /-- The declaration is no struct, or options are malformed or stand in a wrong place. -/
  | options
  /-- Fields that are both skipped and nullable, by name. -/
  | conflict (fields : List (Option Ident))

/-- What is said of a field that is both skipped and nullable. -/
def conflictMessage (field : Option Ident) : String :=
  let name := (field.map Ident.text).getD "<unnamed>"
  "field `" ++ name ++ "` cannot be both `skip` and `nullable`"

/-- The fields of a struct in order. -/
def Source.Fields.list : Fields → List Field
  | .named fields => fields
  | .unnamed fields => fields
  | .unit => []

/-- The options of each field; none if those of some field are malformed, or if the struct itself
has options. -/
def structOptions? (s : StructItem) : Option (List (Option Ident × FieldOptions)) := do
  let own ← FieldOptions.items? s.attributes
  guard own.isEmpty
  s.fields.list.mapM fun f => do return (f.name, ← FieldOptions.read? f.attributes)

/-- Checks the options of a declaration. -/
def checkDerive : Derivable → Except DeriveFault Unit
  | .other => .error .options
  | .struct s =>
    match structOptions? s with
    | none => .error .options
    | some fields =>
      match fields.filter fun (_, o) => o.skip && o.nullable with
      | [] => .ok ()
      | both => .error (.conflict (both.map Prod.fst))

end Memberwise
