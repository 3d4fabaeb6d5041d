import Memberwise.Descriptor
import Memberwise.Naming
import Memberwise.Text.CaseMap
import Memberwise.Text.Quoted

/-!
# Memberwise.Artifact — generated code

The artifact of a declaration is a file with three parts: a table of the types of its members, a
type with one variant for each member to group by, and functions that look a type up and group
values by the name of a member. Grouping tries one branch after another.
-/

namespace Memberwise

open Naming

/-- A generated file. -/
structure Artifact where
  name : String
  contents : String
deriving DecidableEq, Repr

/-- The name of the artifact of a declaration. -/
def artifactName (c : Config) (simpleName : String) : String :=
  toSnakeCase simpleName ++ c.artifactSuffix

/-! ## Branches -/

/-- A member with the variant of its groups. -/
structure Branch where
  member : Member
  variant : String
deriving DecidableEq, Repr

/-- What two members have in common if the later one needs no branch. -/
def Member.branchKey (m : Member) : String × String := (Text.lowerText m.name, m.type)

/-- The first of `base`, `base2`, `base3`, … that is not used. -/
def freshVariant (used : List String) (base : String) : String :=
  let numbered := (List.range (used.length + 1)).map fun k => base ++ toString (k + 2)
  ((base :: numbered).find? fun v => !used.contains v).getD base

/-- The branches of members after those in `done`, whose keys are `seen`. -/
def branchesAfter (seen : List (String × String)) (used : List String) :
    List Member → Traced (List Branch)
  | [] => pure []
  | m :: ms =>
    if seen.contains m.branchKey then do
      Traced.report (.branchCollapsed m.name)
      branchesAfter seen used ms
    else do
      let variant := freshVariant used (toVariantName m.name)
      let rest ← branchesAfter (m.branchKey :: seen) (variant :: used) ms
      return ⟨m, variant⟩ :: rest

/-- The branches of members, in order. A member gets none if an earlier one has the same type and,
but for case, the same name. -/
def branches (members : List Member) : Traced (List Branch) := branchesAfter [] [] members

/-! ## Text -/

/-- The first line of every artifact. -/
def artifactHeader : String := "// @generated by propgroup-codegen. Do not edit."

section

variable (c : Config) (d : Descriptor)

/-- The name of the table of types. -/
def tableName : String := toUpperSnakeCase d.simpleName ++ "_PROPERTY_TYPES"

/-- The name of the type of groups. -/
def groupingName : String := d.simpleName ++ "Grouping"

/-- The row of a member in the table of types. -/
def tableRow (m : Member) : String :=
  "            (" ++ Text.quote m.name ++ ", " ++ c.runtimeCrate ++ "::TypeIdentity::of::<" ++
    m.type ++ ">()),"

/-- The table of types. -/
def tableLines : List String :=
  let rt := c.runtimeCrate
  ["/// Declared members of [`" ++ d.simpleName ++ "`](" ++ d.fullName ++ ") and their types.",
   "pub static " ++ tableName d ++ ": " ++ rt ++ "::once_cell::sync::Lazy<" ++ rt ++
     "::PropertyTable> =",
   "    " ++ rt ++ "::once_cell::sync::Lazy::new(|| \x7b",
   "        " ++ rt ++ "::PropertyTable::new(::std::vec!["] ++
  d.members.map (tableRow c) ++
  ["        ])",
   "    \x7d);",
   ""]

/-- The variant of a branch. -/
def variantLines (b : Branch) : List String :=
  ["    /// Grouped by `" ++ b.member.name ++ "`",
   "    " ++ b.variant ++ "(::std::collections::HashMap<" ++ b.member.type ++
     ", ::std::vec::Vec<" ++ d.fullName ++ ">>),"]

/-- The type of groups. -/
def groupingLines (bs : List Branch) : List String :=
  ["/// Result of [`" ++ d.simpleName ++ "::group_by_property`](" ++ d.fullName ++
     "::group_by_property), one variant per member.",
   "pub enum " ++ groupingName d ++ " \x7b"] ++
  bs.flatMap (variantLines d) ++
  ["\x7d",
   ""]

/-- The function that looks a type up. -/
def accessorLines : List String :=
  ["    /// Type of the member named exactly `property_name`.",
   "    pub fn property_type(property_name: &str) -> ::core::option::Option<" ++ c.runtimeCrate ++
     "::TypeIdentity> \x7b",
   "        " ++ tableName d ++ ".get(property_name)",
   "    \x7d",
   ""]

/-- The branch of a member. -/
def branchLines (b : Branch) : List String :=
  let m := b.member
  ["        if " ++ c.runtimeCrate ++ "::names_match(property_name, " ++ Text.quote m.name ++
     ") \x7b"] ++
  (if m.nullability.needsFilter then
    ["            let source = source.into_iter().filter(|item| !" ++ c.runtimeCrate ++
       "::MaybeAbsent::is_absent(&item." ++ m.fieldIdent ++ "));"]
  else []) ++
  ["            let groups = " ++ c.runtimeCrate ++ "::group_by::<" ++ d.fullName ++ ", " ++
     m.type ++ ", _, _>(source, |item: &" ++ d.fullName ++ "| item." ++ m.fieldIdent ++
     ".clone());",
   "            return ::core::option::Option::Some(" ++ groupingName d ++ "::" ++ b.variant ++
     "(groups.into_map()));",
   "        \x7d"]

/-- The function that groups values. -/
def dispatchLines (bs : List Branch) : List String :=
  ["    /// Group `source` by the member named `property_name`, ignoring case.",
   "    ///",
   "    /// Elements whose member value is absent are left out. Returns `None` for",
   "    /// empty input, an empty name, or a name that matches no member.",
   "    #[allow(clippy::clone_on_copy)]",
   "    pub fn group_by_property<I>(source: I, property_name: &str) -> ::core::option::Option<" ++
     groupingName d ++ ">",
   "    where",
   "        I: ::core::iter::IntoIterator<Item = " ++ d.fullName ++ ">,",
   "    \x7b",
   "        let source: ::std::vec::Vec<" ++ d.fullName ++
     "> = ::core::iter::IntoIterator::into_iter(source).collect();",
   "        if source.is_empty() || property_name.is_empty() \x7b",
   "            return ::core::option::Option::None;",
   "        \x7d"] ++
  bs.flatMap (branchLines c d) ++
  ["        ::core::option::Option::None",
   "    \x7d"]

/-- The lines of the artifact of a declaration. -/
def artifactLines (bs : List Branch) : List String :=
  [artifactHeader,
   "// Source type: " ++ d.fullName,
   ""] ++
  tableLines c d ++
  groupingLines d bs ++
  ["impl " ++ d.fullName ++ " \x7b"] ++
  accessorLines c d ++
  dispatchLines c d bs ++
  ["\x7d"]

end

/-- Lines as text, each with its line break. -/
def joinLines (lines : List String) : String :=
  lines.foldl (fun text line => text ++ line ++ "\n") ""

/-- The artifact of a declaration, unless it has no name or no members. -/
def emit (c : Config) (d : Descriptor) : Traced (Option Artifact) :=
  if d.simpleName.isEmpty || d.members.isEmpty then pure none
  else do
    let bs ← branches d.members
    return some ⟨artifactName c d.simpleName, joinLines (artifactLines c d bs)⟩

end Memberwise
