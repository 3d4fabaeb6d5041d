import Memberwise.Source.Tree

/-!
# Memberwise.Proofs.TypeInduction — induction over written types

Types are made of paths, arguments and bounds, and these of types again. What is shown of all of
them by induction is shown by one case for each form, in which it may be assumed of the parts
(`TypeCases`); the elements of a list are parts, each by itself.
-/

namespace Memberwise.Source

/-- The cases of an induction over a type, and over the arguments of a segment, the arguments in
angle brackets and the bounds in it. -/
structure TypeCases (T : SourceType → Prop) (A : PathArguments → Prop)
    (G : GenericArgument → Prop) (B : TypeBound → Prop) : Prop where
  /-- A path of which the arguments of every segment have the property. -/
  path : ∀ absolute segments, (∀ s ∈ segments, A s.arguments) → T (.path (.mk absolute segments))
  reference : ∀ lifetime mutable target, T target → T (.reference lifetime mutable target)
  pointer : ∀ mutable target, T target → T (.pointer mutable target)
  traitObject : ∀ marked bounds trailing, (∀ b ∈ bounds, B b) →
    T (.traitObject marked bounds trailing)
  tuple : ∀ elems trailing, (∀ t ∈ elems, T t) → T (.tuple elems trailing)
  array : ∀ elem length, T elem → T (.array elem length)
  slice : ∀ elem, T elem → T (.slice elem)
  paren : ∀ inner, T inner → T (.paren inner)
  function : ∀ tokens, T (.function tokens)
  never : T .never
  other : ∀ tokens, T (.other tokens)
  /-- A segment without arguments. -/
  noArguments : A .none
  angle : ∀ turbofish args trailing, (∀ a ∈ args, G a) → A (.angle turbofish args trailing)
  call : ∀ inputs trailing output, (∀ t ∈ inputs, T t) → (∀ t ∈ output, T t) →
    A (.call inputs trailing output)
  typeArgument : ∀ t, T t → G (.type t)
  lifetimeArgument : ∀ i, G (.lifetime i)
  constArgument : ∀ tokens, G (.const tokens)
  binding : ∀ i own t, A own → T t → G (.binding i own t)
  otherArgument : ∀ tokens, G (.other tokens)
  lifetimeBound : ∀ i, B (.lifetime i)
  trait : ∀ parenthesized maybe binder absolute segments, (∀ s ∈ segments, A s.arguments) →
    B (.trait parenthesized maybe binder (.mk absolute segments))
  otherBound : ∀ tokens, B (.other tokens)

namespace TypeCases

variable {T : SourceType → Prop} {A : PathArguments → Prop} {G : GenericArgument → Prop}
  {B : TypeBound → Prop}

mutual

/-- Induction over a type. -/
theorem type (cases : TypeCases T A G B) : (t : SourceType) → T t
  | .path (.mk absolute segments) => cases.path absolute segments (cases.segments segments)
  | .reference lifetime mutable target => cases.reference lifetime mutable _ (cases.type target)
  | .pointer mutable target => cases.pointer mutable _ (cases.type target)
  | .traitObject marked bounds trailing => cases.traitObject marked _ trailing (cases.bounds bounds)
  | .tuple elems trailing => cases.tuple _ trailing (cases.types elems)
  | .array elem length => cases.array _ length (cases.type elem)
  | .slice elem => cases.slice _ (cases.type elem)
  | .paren inner => cases.paren _ (cases.type inner)
  | .function tokens => cases.function tokens
  | .never => cases.never
  | .other tokens => cases.other tokens

theorem types (cases : TypeCases T A G B) : (ts : List SourceType) → ∀ t ∈ ts, T t
  | [] => List.forall_mem_nil _
  | t :: ts => List.forall_mem_cons.mpr ⟨cases.type t, cases.types ts⟩

theorem segments (cases : TypeCases T A G B) : (segments : List PathSegment) →
    ∀ s ∈ segments, A s.arguments
  | [] => List.forall_mem_nil _
  | .mk _ arguments :: rest =>
    List.forall_mem_cons.mpr ⟨cases.arguments arguments, cases.segments rest⟩

/-- Induction over the arguments of a segment. -/
theorem arguments (cases : TypeCases T A G B) : (a : PathArguments) → A a
  | .none => cases.noArguments
  | .angle turbofish args trailing => cases.angle turbofish _ trailing (cases.args args)
  | .call inputs trailing none => cases.call _ trailing none (cases.types inputs) nofun
  | .call inputs trailing (some output) =>
    cases.call _ trailing _ (cases.types inputs) fun _ h => Option.some.inj h ▸ cases.type output

theorem args (cases : TypeCases T A G B) : (args : List GenericArgument) → ∀ a ∈ args, G a
  | [] => List.forall_mem_nil _
  | a :: args => List.forall_mem_cons.mpr ⟨cases.argument a, cases.args args⟩

/-- Induction over an argument in angle brackets. -/
theorem argument (cases : TypeCases T A G B) : (a : GenericArgument) → G a
  | .type t => cases.typeArgument t (cases.type t)
  | .lifetime i => cases.lifetimeArgument i
  | .const tokens => cases.constArgument tokens
  | .binding i own t => cases.binding i own t (cases.arguments own) (cases.type t)
  | .other tokens => cases.otherArgument tokens

theorem bounds (cases : TypeCases T A G B) : (bounds : List TypeBound) → ∀ b ∈ bounds, B b
  | [] => List.forall_mem_nil _
  | b :: bounds => List.forall_mem_cons.mpr ⟨cases.bound b, cases.bounds bounds⟩

/-- Induction over a bound. -/
theorem bound (cases : TypeCases T A G B) : (b : TypeBound) → B b
  | .lifetime i => cases.lifetimeBound i
  | .trait parenthesized maybe binder (.mk absolute segments) =>
    cases.trait parenthesized maybe binder absolute segments (cases.segments segments)
  | .other tokens => cases.otherBound tokens

end

end TypeCases

end Memberwise.Source
