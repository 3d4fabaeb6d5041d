import Memberwise.Nullability
import Memberwise.Scope
import Memberwise.Text.Quoted

/-!
# Memberwise.Trace — what happens on the way to a result

Scanning, resolving and generating report events beside their result. A traced value is the value
with the events before it, in order, and the number of attributes that were looked up.
-/

namespace Memberwise

/-- How much an event matters. -/
inductive Level where
  | debug
  | info
  | warn
deriving DecidableEq, Repr

/-- The name of a level. -/
def Level.name : Level → String
  | debug => "DEBUG"
  | info => "INFO"
  | warn => "WARN"

/-- Something that happened on the way to a result. -/
inductive Event where
  /-- A struct was left out because it has parameters. -/
  | genericSkipped (name : String) (scope : Scope)
  /-- A struct was selected. -/
  | declarationFound (name : String) (scope : Scope)
  /-- An attribute names nothing known. -/
  | attributeIgnored (path : String)
  /-- A derived path names nothing known. -/
  | deriveIgnored (path : String)
  /-- The options of a field cannot be read. -/
  | optionsIgnored (field : String)
  /-- A field was left out by its options. -/
  | memberSkipped (member : String)
  /-- The type of a member is shown as it is written. -/
  | typeUnresolved (declaration member written : String) (nullability : Nullability)
  /-- A declaration was described. -/
  | declarationResolved (declaration : String) (members : Nat)
  /-- A member gets no branch because an earlier one is the same. -/
  | branchCollapsed (member : String)
  /-- A source was described. -/
  | sourceScanned (origin : String) (declarations : Nat)
  /-- A declaration has no members. -/
  | nothingGenerated (declaration : String)
  /-- An artifact was left out because an earlier one has its name. -/
  | artifactRepeated (declaration artifact : String)
  /-- A file already holds its artifact. -/
  | artifactKept (path : String)
  /-- A file was written. -/
  | artifactWritten (path : String)
deriving DecidableEq, Repr

/-- A value that is reported with an event. -/
inductive EventValue where
  | text (s : String)
  /-- A text that is shown in quotes. -/
  | quoted (s : String)
  | number (n : Nat)

namespace Event

/-- How much the event matters. -/
def level : Event → Level
  | genericSkipped .. | optionsIgnored _ | typeUnresolved .. | artifactRepeated .. => .warn
  | artifactWritten _ => .info
  | _ => .debug

/-- What is said of the event. -/
def message : Event → String
  | genericSkipped .. =>
    "skipping generic declaration: generated code cannot name its parameters"
  | declarationFound .. => "found qualifying declaration"
  | attributeIgnored _ => "unresolved attribute ignored"
  | deriveIgnored _ => "unresolved derive ignored"
  | optionsIgnored _ => "ignoring malformed property_map options"
  | memberSkipped _ => "member skipped by property_map(skip)"
  | typeUnresolved .. => "member type could not be resolved; using written type"
  | declarationResolved .. => "resolved declaration"
  | branchCollapsed _ => "duplicate branch collapsed"
  | sourceScanned .. => "scanned source"
  | nothingGenerated _ => "no eligible members; nothing generated"
  | artifactRepeated .. => "artifact name already generated in this run; skipping"
  | artifactKept _ => "artifact up to date"
  | artifactWritten _ => "wrote artifact"

/-- The values that are reported with the event, in order. -/
def fields : Event → List (String × EventValue)
  | genericSkipped name scope => [("name", .text name), ("scope", .text scope.path)]
  | declarationFound name scope => [("name", .text name), ("scope", .text scope.path)]
  | attributeIgnored path => [("attribute", .text path)]
  | deriveIgnored path => [("derive", .text path)]
  | optionsIgnored field => [("field", .text field)]
  | memberSkipped member => [("member", .text member)]
  | typeUnresolved declaration member written nullability =>
    [("declaration", .text declaration), ("member", .text member), ("written", .text written),
     ("nullability", .text nullability.name)]
  | declarationResolved declaration members =>
    [("declaration", .text declaration), ("members", .number members)]
  | branchCollapsed member => [("member", .text member)]
  | sourceScanned origin declarations =>
    [("origin", .quoted origin), ("declarations", .number declarations)]
  | nothingGenerated declaration => [("declaration", .text declaration)]
  | artifactRepeated declaration artifact =>
    [("declaration", .text declaration), ("artifact", .text artifact)]
  | artifactKept path => [("path", .text path)]
  | artifactWritten path => [("path", .text path)]

end Event

/-! ## Traced values -/

/-- A value with what happened on the way to it. -/
structure Traced (α : Type) where
  value : α
  events : List Event
  lookups : Nat

namespace Traced

variable {α β : Type}

/-- A value on the way to which nothing happened. -/
protected def pure (a : α) : Traced α := ⟨a, [], 0⟩

/-- What happens on the way to a value comes before what happens after it. -/
protected def bind (x : Traced α) (f : α → Traced β) : Traced β :=
  let y := f x.value
  ⟨y.value, x.events ++ y.events, x.lookups + y.lookups⟩

instance : Monad Traced where
  pure := Traced.pure
  bind := Traced.bind

@[simp] theorem value_pure (a : α) : (pure a : Traced α).value = a := rfl

@[simp] theorem value_bind (x : Traced α) (f : α → Traced β) :
    (x >>= f).value = (f x.value).value := rfl

theorem ext_iff_parts {x y : Traced α} :
    x = y ↔ x.value = y.value ∧ x.events = y.events ∧ x.lookups = y.lookups := by
  cases x
  cases y
  simp

/-- What follows a value matters only at that value. -/
theorem bind_congr {x : Traced α} {f g : α → Traced β} (h : f x.value = g x.value) :
    x >>= f = x >>= g := by
  show Traced.bind x f = Traced.bind x g
  simp only [Traced.bind, h]

instance : LawfulMonad Traced := LawfulMonad.mk' Traced
  (fun x => ext_iff_parts.mpr ⟨rfl, List.append_nil _, rfl⟩)
  (fun a f => ext_iff_parts.mpr ⟨rfl, List.nil_append _, Nat.zero_add _⟩)
  (fun x f g => ext_iff_parts.mpr ⟨rfl, List.append_assoc .., Nat.add_assoc ..⟩)

/-- Reports an event. -/
def report (e : Event) : Traced Unit := ⟨(), [e], 0⟩

/-- Counts a look-up of an attribute. -/
def looked (a : α) : Traced α := ⟨a, [], 1⟩

end Traced

end Memberwise
