import Memberwise.Generator
import Memberwise.Toml.Document

/-!
# Memberwise.ConfigFile — settings from text

Settings are the entries of a TOML file. An entry that is no setting or has a value of a wrong kind
makes the file malformed; settings that are left out have their defaults.
-/

namespace Memberwise

open Toml

/-- The class of members that a value names: a string, or a table whose only key is the name and
has nothing in it. -/
def nullabilityOf? : Value → Option Nullability
  | .string name => Nullability.ofName? name
  | .table [(name, inner)] => if inner.isHollow then Nullability.ofName? name else none
  | _ => none

/-- Changes one setting. -/
def Config.set? (c : Config) (key : String) (v : Value) : Option Config :=
  match key with
  | "module_path" => do return { c with modulePath := ← v.string? }
  | "runtime_crate" => do return { c with runtimeCrate := ← v.string? }
  | "artifact_suffix" => do return { c with artifactSuffix := ← v.string? }
  | "qualifying_annotations" => do return { c with qualifyingAnnotations := ← v.strings? }
  | "unresolved_nullability" => do return { c with unresolvedNullability := ← nullabilityOf? v }
  | "nullable_annotations" => do return { c with nullableAnnotations := ← v.bool? }
  | _ => none

/-- The settings that entries give. -/
def Config.ofEntries? (entries : List (String × Value)) : Option Config :=
  entries.foldlM (fun c (key, v) => c.set? key v) Config.default

/-- Reads settings and checks that they can be used. -/
def Config.ofToml (text : String) : Except Fault Config :=
  match (Toml.parse text).bind Config.ofEntries? with
  | none => .error .configParse
  | some c => do
    c.validate.mapError Fault.config
    return c

end Memberwise
