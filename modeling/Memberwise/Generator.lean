import Memberwise.Artifact

/-!
# Memberwise.Generator — from source text to artifacts

Describing a source checks the settings, reads the source, selects its declarations and then
describes each. Generating makes one artifact for each description; of artifacts with one name,
only the first is kept.
-/

namespace Memberwise

open Source

/-- Why there is no result. -/
inductive Fault where
  /-- A file cannot be read. -/
  | read (path : String)
  /-- A file or directory cannot be written. -/
  | write (path : String)
  /-- A source is not a valid file. -/
  | parse (origin : String)
  /-- Settings are not well formed. -/
  | configParse
  /-- A setting cannot be used. -/
  | config (fault : ConfigFault)
deriving DecidableEq, Repr

/-- What is said of a fault, without what the system or a reader says about it. -/
def Fault.message : Fault → String
  | read path => "failed to read " ++ path
  | write path => "failed to write " ++ path
  | parse origin => "failed to parse " ++ origin
  | configParse => "configuration parse error"
  | config fault => "invalid configuration: " ++ fault.message

/-- A result that can be missing, with what happened on the way to it or to the fault. -/
abbrev Outcome := ExceptT Fault Traced

/-- A result on the way to which nothing happened. -/
def Outcome.ofExcept {α : Type} (x : Except Fault α) : Outcome α := ExceptT.mk (pure x)

/-- The items and the scope of a source, if the settings and the source are in order. -/
def prepare (c : Config) (source origin : String) : Except Fault (Scope × List Item) := do
  c.validate.mapError Fault.config
  let root ← c.rootScope.mapError Fault.config
  match parseFile source with
  | some items => return (root, items)
  | none => throw (.parse origin)

/-- Describes the selected declarations among the items of a module. -/
def describeItems (c : Config) (root : Scope) (items : List Item) : Traced (List Descriptor) := do
  let m := Semantics.ofTable (SymbolTable.ofItems root items) c.nullableAnnotations
  let candidates ← scan m c root items
  describeAll m c candidates

/-- Describes the selected declarations of a source; `origin` names it. -/
def describeSource (c : Config) (source origin : String) : Outcome (List Descriptor) := do
  let (root, items) ← Outcome.ofExcept (prepare c source origin)
  let descriptors ← describeItems c root items
  Traced.report (.sourceScanned origin descriptors.length)
  return descriptors

/-- The artifacts of descriptors, after those whose names are `used`. -/
def artifactsAfter (c : Config) (used : List String) : List Descriptor → Traced (List Artifact)
  | [] => pure []
  | d :: ds => do
    match ← emit c d with
    | none =>
      Traced.report (.nothingGenerated d.fullName)
      artifactsAfter c used ds
    | some artifact =>
      if used.contains artifact.name then
        Traced.report (.artifactRepeated d.fullName artifact.name)
        artifactsAfter c used ds
      else
        let rest ← artifactsAfter c (artifact.name :: used) ds
        return artifact :: rest

/-- The artifacts of a source; `origin` names it. -/
def generateSource (c : Config) (source origin : String) : Outcome (List Artifact) := do
  let descriptors ← describeSource c source origin
  artifactsAfter c [] descriptors

/-! ## Descriptions under a fixed meaning -/

/-- What scanning and describing a source gives under a fixed meaning of attributes. -/
structure FixedScan where
  /-- The number of attributes that were looked up while scanning. -/
  lookups : Nat
  /-- The scopes of the declarations that were selected. -/
  scopes : List Scope
  descriptors : List Descriptor

/-- Scans and describes items with one answer for every attribute. -/
def scanFixed (c : Config) (root : Scope) (items : List Item) (answer : Option String) :
    Traced FixedScan :=
  let m := Semantics.fixed answer
  let scanned := scan m c root items
  do
    let candidates ← scanned
    let descriptors ← describeAll m c candidates
    return ⟨scanned.lookups, candidates.map Candidate.scope, descriptors⟩

end Memberwise
