import Memberwise.Nullability
import Memberwise.Scope
import Memberwise.Source.Parse

/-!
# Memberwise.Config — settings of the generator

Every setting has a default. Settings are checked in a fixed order, and the first that cannot be
used is the fault.
-/

namespace Memberwise

/-- The settings of the generator. -/
structure Config where
  /-- The module that the scanned file is compiled as. -/
  modulePath : String
  /-- The path through which generated code reaches the runtime library. -/
  runtimeCrate : String
  /-- What follows the name of a type in the name of its artifact. -/
  artifactSuffix : String
  /-- The canonical paths of the attributes that select a declaration. -/
  qualifyingAnnotations : List String
  /-- The class of members whose type cannot be resolved. -/
  unresolvedNullability : Nullability
  /-- Whether the mark `nullable` is looked at. -/
  nullableAnnotations : Bool
deriving DecidableEq, Repr

/-- The settings that are used where none are given. -/
def Config.default : Config where
  modulePath := "crate"
  runtimeCrate := "::propgroup"
  artifactSuffix := "_extensions.rs"
  qualifyingAnnotations := ["::propgroup::PropertyMap", "::propgroup_macros::PropertyMap"]
  unresolvedNullability := .nonNullable
  nullableAnnotations := true

/-- A setting that cannot be used. -/
inductive ConfigFault where
  | modulePath (path : String)
  | runtimeCrate (path : String)
  | artifactSuffix (suffix : String)
  | noAnnotations
  | qualifying (path : String)
  /-- The module path names no scope. -/
  | root (path : String)
deriving DecidableEq, Repr

/-- What is said of a setting that cannot be used. -/
def ConfigFault.message : ConfigFault → String
  | modulePath path => "module_path `" ++ path ++ "` must be a path starting with `crate`"
  | runtimeCrate path =>
    "runtime_crate `" ++ path ++ "` must be an absolute path such as `::propgroup`"
  | artifactSuffix suffix =>
    "artifact_suffix `" ++ suffix ++ "` must be a file name suffix ending in `.rs`"
  | noAnnotations => "qualifying_annotations cannot be empty"
  | qualifying path =>
    "qualifying annotation `" ++ path ++ "` must be canonical (`::krate::Name` or `crate::Name`)"
  | root path => "invalid module_path `" ++ path ++ "`"

/-- Whether every segment of a path is an identifier or `crate`. -/
def hasIdentSegments (path : String) : Bool :=
  !path.isEmpty && (Text.splitColons path.toList).all fun cs =>
    (Source.parseIdent (String.ofList cs)).isSome || cs == "crate".toList

/-- Whether a path starts with `::` or `crate` and goes on with identifiers. -/
def isAbsolutePath (path : String) : Bool :=
  match Text.dropStart? "::" path with
  | some rest => hasIdentSegments rest
  | none => (path == "crate" || (Text.dropStart? "crate::" path).isSome) && hasIdentSegments path

/-- Whether a text can end the name of an artifact. -/
def isArtifactSuffix (suffix : String) : Bool :=
  ".rs".toList.isSuffixOf suffix.toList && !suffix.toList.any fun c => c == '/' || c == '\\'

namespace Config

/-- The scope of the scanned file. -/
def rootScope (c : Config) : Except ConfigFault Scope :=
  match Scope.parse c.modulePath with
  | some scope => .ok scope
  | none => .error (.root c.modulePath)

/-- Checks that every setting can be used. -/
def validate (c : Config) : Except ConfigFault Unit := do
  if (Scope.parse c.modulePath).isNone then throw (.modulePath c.modulePath)
  unless isAbsolutePath c.runtimeCrate do throw (.runtimeCrate c.runtimeCrate)
  unless isArtifactSuffix c.artifactSuffix do throw (.artifactSuffix c.artifactSuffix)
  if c.qualifyingAnnotations.isEmpty then throw .noAnnotations
  match c.qualifyingAnnotations.find? fun path => !isAbsolutePath path with
  | some path => throw (.qualifying path)
  | none => pure ()

/-- Whether a canonical path selects declarations. -/
def qualifies (c : Config) (path : String) : Bool := c.qualifyingAnnotations.contains path

/-- Adds an attribute that selects declarations, unless it does already. -/
def addQualifying (c : Config) (path : String) : Config :=
  if c.qualifies path then c
  else { c with qualifyingAnnotations := c.qualifyingAnnotations ++ [path] }

end Config

end Memberwise
