import Memberwise.Proofs.Resolution

/-!
# Memberwise.Proofs.Congruence — a type counts only by what it is resolved to

A type with a hole is a list of frames, one for each form of type around the hole (`Frame`). A hole
can be wherever a type is resolved as a part of another one: it may be a component, an argument or
an associated type of a named type or of a trait, and an input or the output of a trait.

For each frame, resolving the filled frame starts with resolving what is in the hole, and goes on
with the result alone (`Frame.through_fill`). This is kept by putting frames around frames. So types
that are resolved alike can be put for each other anywhere, and a part that is not resolved leaves
the whole unresolved, even if it is an argument that an alias has no use for
(`resolved_alike_in_context`).
-/

namespace Memberwise

open Source

namespace Source

/-! ## Types with a hole -/

/-- A path without the arguments of its last segment. -/
structure PathStem where
  absolute : Bool
  outer : List PathSegment
  last : Ident

/-- The path with arguments for its last segment. -/
def PathStem.withArguments (s : PathStem) (arguments : PathArguments) : SourcePath :=
  .mk s.absolute (s.outer ++ [.mk s.last arguments])

/-- An argument in angle brackets with a hole for its type. -/
inductive ArgumentHole where
  | type
  | binding (name : Ident) (own : PathArguments)

/-- The argument with a type in the hole. -/
def ArgumentHole.fill : ArgumentHole → SourceType → GenericArgument
  | type, ty => .type ty
  | binding name own, ty => .binding name own ty

/-- Arguments in angle brackets, one of which has a hole. -/
structure AngleHole where
  turbofish : Bool
  before : List GenericArgument
  hole : ArgumentHole
  after : List GenericArgument
  trailing : Bool

/-- The arguments with a type in the hole. -/
def AngleHole.fill (h : AngleHole) (ty : SourceType) : PathArguments :=
  .angle h.turbofish (h.before ++ h.hole.fill ty :: h.after) h.trailing

/-- The arguments of a trait with a hole. -/
inductive TraitHole where
  | angle (h : AngleHole)
  | input (before after : List SourceType) (trailing : Bool) (result : Option SourceType)
  | output (inputs : List SourceType) (trailing : Bool)

/-- The arguments with a type in the hole. -/
def TraitHole.fill : TraitHole → SourceType → PathArguments
  | angle h, ty => h.fill ty
  | input before after trailing result, ty => .call (before ++ ty :: after) trailing result
  | output inputs trailing, ty => .call inputs trailing (some ty)

/-- A trait with a hole in its arguments. -/
structure BoundHole where
  parenthesized : Bool
  maybe : Bool
  binder : List TokenTree
  stem : PathStem
  hole : TraitHole

/-- The trait with a type in the hole. -/
def BoundHole.fill (h : BoundHole) (ty : SourceType) : TypeBound :=
  .trait h.parenthesized h.maybe h.binder (h.stem.withArguments (h.hole.fill ty))

/-- A form of type with a hole in the place of one part. -/
inductive Frame where
  | paren
  | reference (lifetime : Option Ident) (mutable : Bool)
  | pointer (mutable : Bool)
  | slice
  | array (length : List TokenTree)
  | tuple (before after : List SourceType) (trailing : Bool)
  | argument (stem : PathStem) (hole : AngleHole)
  | bound (marked : Bool) (before : List TypeBound) (hole : BoundHole) (after : List TypeBound)
      (trailing : Bool)

/-- The form with a type in the hole. -/
def Frame.fill : Frame → SourceType → SourceType
  | paren, ty => .paren ty
  | reference lifetime mutable, ty => .reference lifetime mutable ty
  | pointer mutable, ty => .pointer mutable ty
  | slice, ty => .slice ty
  | array length, ty => .array ty length
  | tuple before after trailing, ty => .tuple (before ++ ty :: after) trailing
  | argument stem hole, ty => .path (stem.withArguments (hole.fill ty))
  | bound marked before hole after trailing, ty =>
    .traitObject marked (before ++ hole.fill ty :: after) trailing

/-- A type in the hole of the last of a list of frames, each of which is in the hole of the one
before. -/
def plug (frames : List Frame) (ty : SourceType) : SourceType := frames.foldr Frame.fill ty

end Source

/-! ## Paths without their arguments -/

namespace Source.PathStem

variable (s : PathStem)

/-- The names of a path do not depend on its arguments. -/
theorem namePath_withArguments (arguments arguments' : PathArguments) :
    (s.withArguments arguments).namePath = (s.withArguments arguments').namePath := by
  simp [withArguments, SourcePath.namePath, SourcePath.names, SourcePath.absolute,
    SourcePath.segments, PathSegment.name]

/-- A path with arguments is no bare name. -/
theorem bareName?_withArguments {arguments : PathArguments} (h : arguments ≠ .none) :
    bareName? (s.withArguments arguments) = none := by
  unfold bareName?
  split
  · next i heq =>
    simp only [withArguments, SourcePath.mk.injEq] at heq
    rcases List.append_eq_singleton_iff.mp heq.2 with ⟨-, hlast⟩ | ⟨-, hlast⟩
    · cases hlast
      exact absurd rfl h
    · cases hlast
  · rfl

variable (c : TypeContext)

theorem resolveLast_withArguments (arguments : PathArguments) :
    resolveLast c (s.withArguments arguments) = resolveArguments c arguments :=
  resolveLastOf_of_getLast? c List.getLast?_concat

theorem suffixOf_withArguments (arguments : PathArguments) :
    suffixOf c (s.withArguments arguments) = traitSuffix c arguments :=
  suffixOfLast_of_getLast? c List.getLast?_concat

end Source.PathStem

/-! ## Resolving through a hole -/

/-- Resolving something with a type in it starts with resolving the type, and what comes after
depends on the result alone. -/
def Through {α : Type} (c : TypeContext) (resolve : SourceType → Option α) : Prop :=
  ∃ next : ResolvedType → Option α, ∀ ty, resolve ty = (resolveType c ty).bind next

namespace Through

variable {c : TypeContext} {α β : Type} {resolve : SourceType → Option α}

theorem self (c : TypeContext) : Through c (resolveType c) := ⟨some, fun _ => by simp⟩

/-- A type with a hole around another one. -/
theorem comp (h : Through c resolve) {fill : SourceType → SourceType}
    (hfill : Through c fun ty => resolveType c (fill ty)) :
    Through c fun ty => resolve (fill ty) := by
  rcases h with ⟨next, h⟩
  rcases hfill with ⟨inner, hinner⟩
  refine ⟨fun t => (inner t).bind next, fun ty => ?_⟩
  calc resolve (fill ty) = (resolveType c (fill ty)).bind next := h (fill ty)
    _ = ((resolveType c ty).bind inner).bind next := by rw [← hinner]
    _ = (resolveType c ty).bind fun t => (inner t).bind next := Option.bind_assoc ..

theorem bind (h : Through c resolve) (f : α → Option β) :
    Through c fun ty => (resolve ty).bind f := by
  rcases h with ⟨next, h⟩
  refine ⟨fun t => (next t).bind f, fun ty => ?_⟩
  simp only [h, Option.bind_assoc]

theorem map (h : Through c resolve) (f : α → β) : Through c fun ty => (resolve ty).map f := by
  simpa only [Option.map_eq_bind] using h.bind (some ∘ f)

/-- What else has to be resolved before makes no difference. -/
theorem after (h : Through c resolve) (first : Option β) {γ : Type} (f : β → α → Option γ) :
    Through c fun ty => first.bind fun b => (resolve ty).bind (f b) := by
  rcases h with ⟨next, h⟩
  refine ⟨fun t => first.bind fun b => (next t).bind (f b), fun ty => ?_⟩
  simp only [h, Option.bind_assoc]
  exact Option.bind_comm first (resolveType c ty)

/-- One part of a list is resolved through a hole in it. -/
theorem mapM {f : β → Option α} {fill : SourceType → β} (h : Through c fun ty => f (fill ty))
    (before after : List β) : Through c fun ty => (before ++ fill ty :: after).mapM f := by
  have hparts := (h.bind fun a => (after.mapM f).bind fun as => some (a :: as)).after
    (before.mapM f) fun bs as => some (bs ++ as)
  refine cast (congrArg (Through c) (funext fun ty => ?_)) hparts
  rw [List.mapM_append, List.mapM_cons]
  rfl

end Through

section

variable (c : TypeContext)

theorem Source.ArgumentHole.through_fill (h : ArgumentHole) :
    Through c fun ty => resolveArg c (h.fill ty) := by
  cases h with
  | type => exact (Through.self c).map GenericArg.type
  | binding name own => exact (Through.self c).map (GenericArg.binding name.text)

theorem Source.AngleHole.through_args (h : AngleHole) :
    Through c fun ty => resolveArgs c (h.before ++ h.hole.fill ty :: h.after) := by
  simp only [resolveArgs_eq_mapM]
  exact (h.hole.through_fill c).mapM h.before h.after

theorem through_types (before after : List SourceType) :
    Through c fun ty => resolveTypes c (before ++ ty :: after) := by
  have hself : Through c fun ty => resolveType c (id ty) := Through.self c
  simp only [resolveTypes_eq_mapM]
  exact hself.mapM before after

theorem Source.TraitHole.through_suffix (h : TraitHole) :
    Through c fun ty => traitSuffix c (h.fill ty) := by
  cases h with
  | angle h =>
    simp only [fill, AngleHole.fill, traitSuffix]
    exact (h.through_args c).bind _
  -- The hole is one of the inputs or the output.
  | input before after trailing result =>
    cases result with
    | none =>
      simp only [fill, traitSuffix]
      exact (through_types c before after).bind _
    | some output =>
      simp only [fill, traitSuffix]
      exact (through_types c before after).bind _
  | output inputs trailing =>
    simp only [fill, traitSuffix]
    exact (Through.self c).after _ _

theorem Source.BoundHole.through_fill (h : BoundHole) :
    Through c fun ty => resolveBound c (h.fill ty) := by
  simp only [fill, resolveBound, h.stem.suffixOf_withArguments,
    h.stem.namePath_withArguments _ .none]
  exact (h.hole.through_suffix c).after _ _

/-- A frame is resolved through its hole. -/
theorem Source.Frame.through_fill (f : Frame) : Through c fun ty => resolveType c (f.fill ty) := by
  cases f with
  | paren =>
    simp only [fill, resolveType]
    exact Through.self c
  | reference lifetime mutable =>
    simp only [fill, resolveType]
    exact (Through.self c).bind _
  | pointer mutable =>
    simp only [fill, resolveType]
    exact (Through.self c).bind _
  | slice =>
    simp only [fill, resolveType]
    exact (Through.self c).bind _
  | array length =>
    simp only [fill, resolveType]
    exact (Through.self c).bind _
  | tuple before after trailing =>
    simp only [fill, resolveType]
    exact (through_types c before after).bind _
  | argument stem hole =>
    -- a path with arguments stands for no parameter, and its names are known before
    have hparam : ∀ ty, c.param? (stem.withArguments (hole.fill ty)) = none := fun ty => by
      rw [TypeContext.param?, stem.bareName?_withArguments (by simp [AngleHole.fill])]
      rfl
    simp only [fill, resolveType, hparam, stem.resolveLast_withArguments,
      stem.namePath_withArguments _ .none]
    simp only [AngleHole.fill, resolveArguments]
    exact (hole.through_args c).after _ _
  | bound marked before hole after trailing =>
    simp only [fill, resolveType, resolveBounds_eq_mapM]
    exact ((hole.through_fill c).mapM before after).bind _

/-- Frames in frames are resolved through the hole inside. -/
theorem through_plug (frames : List Frame) :
    Through c fun ty => resolveType c (plug frames ty) := by
  induction frames with
  | nil => exact Through.self c
  | cons f frames ih => exact (f.through_fill c).comp ih

end

/-- What a type in frames is resolved to depends on what the type is resolved to, with any number of
steps, and it is resolved only if the type is. -/
theorem SymbolTable.exists_resolveIn_plug (t : SymbolTable) (steps : Nat) (scope : Scope)
    (params : List (String × ResolvedType)) (frames : List Frame) :
    ∃ next : ResolvedType → Option ResolvedType, ∀ ty,
      t.resolveIn steps scope params (plug frames ty) =
        (t.resolveIn steps scope params ty).bind next := by
  cases steps with
  | zero => exact ⟨fun _ => none, fun _ => rfl⟩
  | succ steps =>
    simp only [resolveIn]
    exact through_plug _ frames

/-- Types that are resolved alike can be put for each other in any type, and a type is unresolved if
a part of it is. A part is whatever stands in a hole: behind `&` or `*`, in parentheses, brackets or
a tuple, as an argument or associated type of the last segment of a path, be it an alias or not, and
as an argument, input or output of a trait. -/
theorem resolved_alike_in_context (t : SymbolTable) (steps : Nat) (scope : Scope)
    (params : List (String × ResolvedType)) (frames : List Frame) :
    (∀ x y, t.resolveIn steps scope params x = t.resolveIn steps scope params y →
      t.resolveIn steps scope params (plug frames x) =
        t.resolveIn steps scope params (plug frames y)) ∧
    ∀ x, t.resolveIn steps scope params x = none →
      t.resolveIn steps scope params (plug frames x) = none := by
  obtain ⟨next, hplug⟩ := t.exists_resolveIn_plug steps scope params frames
  constructor
  · intro x y h
    rw [hplug, hplug, h]
  · intro x h
    rw [hplug, h, Option.bind_none]

/-- The type that a single name stands for. -/
def Source.SourceType.ofName (i : Ident) : SourceType := .path (.mk false [.mk i .none])

/-- The names of a file with `type Name = String;` and `type Pair<T> = (T, T);`. -/
def pairTable : SymbolTable :=
  .ofItems .root
    [.typeAlias (.plain "Name") [] (.ofName (.plain "String")),
     .typeAlias (.plain "Pair") [.type (.plain "T")]
       (.tuple [.ofName (.plain "T"), .ofName (.plain "T")] false)]

/-- The type `&'a Box<dyn Fn(Pair<_>) -> u8 + Send>` with a hole for `_`. -/
def callbackFrames : List Frame :=
  let first : AngleHole := ⟨false, [], .type, [], false⟩
  [.reference (some (.plain "a")) false,
   .argument ⟨false, [], .plain "Box"⟩ first,
   .bound true []
     ⟨false, false, [], ⟨false, [], .plain "Fn"⟩,
       .input [] [] false (some (.ofName (.plain "u8")))⟩
     [.trait false false [] (.mk false [.mk (.plain "Send") .none])] false,
   .argument ⟨false, [], .plain "Pair"⟩ first]

theorem resolved_alike_in_context_callback :
    let name := SourceType.ofName (.plain "Name")
    let string := SourceType.path (.mk true
      [.mk (.plain "alloc") .none, .mk (.plain "string") .none, .mk (.plain "String") .none])
    let lost := SourceType.ofName (.plain "Lost")
    (pairTable.resolve .root name = pairTable.resolve .root string ∧
      pairTable.resolve .root (plug callbackFrames name) =
        pairTable.resolve .root (plug callbackFrames string) ∧
      (pairTable.resolve .root (plug callbackFrames string)).map ResolvedType.text =
        some ("&'a ::std::boxed::Box<dyn ::core::ops::Fn((::std::string::String, " ++
          "::std::string::String)) -> u8 + ::core::marker::Send>")) ∧
      pairTable.resolve .root lost = none ∧
      pairTable.resolve .root (plug callbackFrames lost) = none := by
  intro name string lost
  -- An imported name and the absolute path behind it resolve alike.
  have hname : pairTable.resolve .root name = some (.path "::std::string::String" [] .reference) :=
    rfl
  have hstring : pairTable.resolve .root string =
      some (.path "::std::string::String" [] .reference) := rfl
  have hsame : pairTable.resolve .root name = pairTable.resolve .root string :=
    hname.trans hstring.symm
  have hlost : pairTable.resolve .root lost = none := rfl
  obtain ⟨halike, hunresolved⟩ :=
    resolved_alike_in_context pairTable maxSteps .root [] callbackFrames
  exact ⟨⟨hsame, halike name string hsame, by decide +kernel⟩, hlost, hunresolved lost hlost⟩

end Memberwise
