import Memberwise.Dispatch
import Memberwise.Generator

/-!
# Memberwise.Roster — people and their teams

Two kinds of records with generated groupings: people, and people of former times. The records are
given twice: as types with the members that generated code reads, and as the declarations that the
generator describes.
-/

namespace Memberwise.Roster

/-- A team. -/
inductive Team where
  | red
  | blue
deriving DecidableEq, Hashable, Repr

namespace Team

/-- The teams. -/
def all : List Team := [red, blue]

/-- The name of a team. -/
def name : Team → String
  | red => "Red"
  | blue => "Blue"

/-- The team with a given name. -/
def ofName? (text : String) : Option Team := all.find? fun t => t.name == text

end Team

/-- The number of a badge; zero while there is none. -/
structure Badge where
  number : UInt32
deriving DecidableEq, Hashable, Repr

instance : MaybeAbsent Badge where
  isAbsent b := b.number == 0

/-- A person. People are not grouped by their rating. -/
structure Person where
  id : Int32
  name : String
  tag : Option String
  age : Option UInt8
  team : Team
  badge : Badge
  rating : Float := 0.0
deriving Repr

/-- A person of former times. -/
structure Alumnus where
  id : Int32
  lastTeam : Team
deriving DecidableEq, Repr

/-- The value of a member of a record. -/
inductive FieldValue where
  | int (n : Int32)
  | text (s : String)
  | optionalText (s : Option String)
  | optionalByte (n : Option UInt8)
  | team (t : Team)
  | badge (b : Badge)
deriving DecidableEq, Hashable, Repr

/-- Optional values and badges can be absent. -/
instance : MaybeAbsent FieldValue where
  isAbsent
    | .optionalText s => isAbsent s
    | .optionalByte n => isAbsent n
    | .badge b => isAbsent b
    | _ => false

/-! ## Members -/

/-- The type of teams. -/
def teamType : TypeIdentity := ⟨"crate::model::Team", "roster::model::Team"⟩

/-- The type of badges. -/
def badgeType : TypeIdentity := ⟨"crate::model::Badge", "roster::model::Badge"⟩

/-- A member whose type is resolved. -/
def property {ρ : Type} (name : String) (type : TypeIdentity) (nullability : Nullability)
    (value : ρ → FieldValue) : Property ρ FieldValue :=
  ⟨⟨name, name, type.type, true, nullability⟩, type, value⟩

/-- The members of a person. Names refer to text elsewhere, so that they count as nullable although
they are always there. -/
def Person.properties : List (Property Person FieldValue) :=
  [property "id" (.primitive "i32") .nonNullable fun p => .int p.id,
   property "name" .string .alwaysNullable fun p => .text p.name,
   property "tag" (.option .string) .alwaysNullable fun p => .optionalText p.tag,
   property "age" (.option (.primitive "u8")) .optionalValue fun p => .optionalByte p.age,
   property "team" teamType .nonNullable fun p => .team p.team,
   property "badge" badgeType .alwaysNullable fun p => .badge p.badge]

/-- The members of a person of former times. -/
def Alumnus.properties : List (Property Alumnus FieldValue) :=
  [property "id" (.primitive "i32") .nonNullable fun a => .int a.id,
   property "last_team" teamType .nonNullable fun a => .team a.lastTeam]

/-- What is known of people. -/
def Person.descriptor : Descriptor :=
  ⟨"Person", "crate::model::Person", Person.properties.map Property.member⟩

/-- What is known of people of former times. -/
def Alumnus.descriptor : Descriptor :=
  ⟨"Alumnus", "crate::model::archive::Alumnus", Alumnus.properties.map Property.member⟩

/-! ## Declarations -/

open Source

/-- A path of bare words. -/
def wordPath (absolute : Bool) (words : List String) : SourcePath :=
  .mk absolute (words.map fun w => .mk (.plain w) .none)

/-- A type that is a bare word. -/
def wordType (word : String) : SourceType := .path (wordPath false [word])

/-- `Option<word>` -/
def optionalWord (word : String) : SourceType :=
  .path (.mk false [.mk (.plain "Option") (.angle false [.type (wordType word)] false)])

/-- `#[derive(...)]` with bare words and what follows them. -/
def derivedTraits (words : List String) (last : List TokenTree) : Meta :=
  let listed := words.flatMap fun w => [TokenTree.ident (.plain w), .punct ',' false]
  .list (wordPath false ["derive"]) (listed ++ last)

/-- `#[property_map(word)]` -/
def marked (word : String) : Meta :=
  .list (wordPath false ["property_map"]) [.ident (.plain word)]

/-- A field with a name. -/
def field (attributes : List Meta) (name : String) (type : SourceType) : Field :=
  ⟨attributes, some (.plain name), type⟩

/-- The declaration of people. -/
def Person.item : StructItem where
  attributes := [derivedTraits ["Debug", "Clone", "PartialEq"] [.ident (.plain "PropertyMap")]]
  name := .plain "Person"
  generics := []
  fields := .named
    [field [] "id" (wordType "i32"),
     field [] "name" (wordType "String"),
     field [] "tag" (optionalWord "String"),
     field [] "age" (optionalWord "u8"),
     field [] "team" (wordType "Team"),
     field [marked "nullable"] "badge" (wordType "Badge"),
     field [marked "skip"] "rating" (wordType "f64")]

/-- The declaration of people of former times. -/
def Alumnus.item : StructItem where
  attributes :=
    [derivedTraits ["Debug", "Clone", "PartialEq"]
      [.punct ':' true, .punct ':' false, .ident (.plain "propgroup"),
       .punct ':' true, .punct ':' false, .ident (.plain "PropertyMap")]]
  name := .plain "Alumnus"
  generics := []
  fields := .named
    [field [] "id" (wordType "i32"),
     field [] "last_team" (.path (wordPath false ["super", "Team"]))]

/-- The items of the module with the records. -/
def items : List Item :=
  [.use false (.path (.plain "propgroup")
     (.group [.name (.plain "MaybeAbsent"), .name (.plain "PropertyMap")])),
   .declared (.plain "Team"),
   .struct
     { attributes := [derivedTraits ["Debug", "Clone", "Copy", "PartialEq", "Eq"] [.ident (.plain "Hash")]]
       name := .plain "Badge"
       generics := []
       fields := .unnamed [⟨[], none, wordType "u32"⟩] },
   .other,
   .struct Person.item,
   .other,
   .module (.plain "archive") (some [.struct Alumnus.item, .other])]

/-- The settings of the generator for the module. -/
def config : Config := { Config.default with modulePath := "crate::model" }

end Memberwise.Roster
