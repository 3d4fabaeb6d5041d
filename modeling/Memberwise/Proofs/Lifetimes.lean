import Memberwise.Proofs.Stability
import Memberwise.Proofs.Substitution

/-!
# Memberwise.Proofs.Lifetimes — the lifetimes of a canonical form

A lifetime is bound in a type by the `for<...>` of a trait that it stands in, or it is free. What is
kept as it is written, such as a function pointer, has binders of its own; which lifetimes are free
in such tokens is left open here.

Resolution keeps the lifetimes of the parts that are resolved, in their order. It leaves out the
binders of traits, so all of them are free afterwards (`carried_resolvedCases`). Hence a canonical
form has no free lifetime of its own exactly if each lifetime that loses its binder is free
elsewhere in the written type (`free_lifetimes_iff`).
-/

namespace Memberwise

open Source

/-! ## Lifetimes of written types -/

/-- A lifetime that stands in a type. -/
structure LifetimeUse where
  name : String
  /-- Whether it stands in a part that is resolved. -/
  kept : Bool
  /-- Whether a trait around it has a binder for its name. -/
  bound : Bool
deriving DecidableEq, Repr

namespace LifetimeUse

/-- A lifetime with no trait around it. -/
def plain (name : String) : LifetimeUse := ⟨name, true, false⟩

/-- The lifetime, in a part that is not resolved. -/
def lost (u : LifetimeUse) : LifetimeUse := { u with kept := false }

/-- The lifetime, in a trait with a binder for the names. -/
def under (names : List String) (u : LifetimeUse) : LifetimeUse :=
  { u with bound := u.bound || names.contains u.name }

end LifetimeUse

/-- The name of a lifetime parameter. -/
def Source.GenericParam.lifetime? : GenericParam → Option String
  | .lifetime i => some i.name
  | _ => none

/-- The lifetimes that are declared by a binder `for<...>` in front of the tokens. -/
def declaredLifetimes (tokens : List TokenTree) : List String :=
  let read : Reader (List GenericParam) := do
    word "for"
    generics (rulesFor tokens)
  match read ⟨tokens, []⟩ with
  | some (params, _) => params.filterMap GenericParam.lifetime?
  | none => []

namespace Source

section

variable (free : List TokenTree → List String)

/-- The lifetimes in a binder, which are not resolved. -/
def usesInBinder : List TokenTree → List LifetimeUse
  | [] => []
  | t :: ts => (free (t :: ts)).map fun name => (LifetimeUse.plain name).lost

mutual

/-- The lifetimes in a type, in order. In tokens that are kept as they are written, those count that
are free in them. -/
def SourceType.lifetimeUses : SourceType → List LifetimeUse
  | .paren inner => inner.lifetimeUses
  | .path p => p.lifetimeUses
  | .reference lifetime _ target =>
    (lifetime.map fun i => .plain i.name).toList ++ target.lifetimeUses
  | .pointer _ target => target.lifetimeUses
  | .traitObject _ bounds _ => usesInBounds bounds
  | .tuple elems _ => usesInTypes elems
  | .array elem length => elem.lifetimeUses ++ (free length).map .plain
  | .slice elem => elem.lifetimeUses
  | .function tokens => (free tokens).map .plain
  | .never => []
  | .other tokens => (free tokens).map .plain

/-- The lifetimes in a list of types. -/
def usesInTypes : List SourceType → List LifetimeUse
  | [] => []
  | t :: ts => t.lifetimeUses ++ usesInTypes ts

/-- The lifetimes in a path. -/
def SourcePath.lifetimeUses : SourcePath → List LifetimeUse
  | .mk _ segments => usesInSegments segments

/-- The lifetimes in segments, of which only the last one has arguments that are resolved. -/
def usesInSegments : List PathSegment → List LifetimeUse
  | [] => []
  | [.mk _ arguments] => arguments.lifetimeUses
  | .mk _ arguments :: next :: rest =>
    arguments.lifetimeUses.map .lost ++ usesInSegments (next :: rest)

/-- The lifetimes in the arguments of a segment. -/
def PathArguments.lifetimeUses : PathArguments → List LifetimeUse
  | .none => []
  | .angle _ args _ => usesInArgs args
  | .call inputs _ none => usesInTypes inputs
  | .call inputs _ (some output) => usesInTypes inputs ++ output.lifetimeUses

/-- The lifetimes in arguments in angle brackets. -/
def usesInArgs : List GenericArgument → List LifetimeUse
  | [] => []
  | a :: as => a.lifetimeUses ++ usesInArgs as

/-- The lifetimes in an argument in angle brackets. -/
def GenericArgument.lifetimeUses : GenericArgument → List LifetimeUse
  | .type t => t.lifetimeUses
  | .lifetime i => [.plain i.name]
  | .const tokens => (free tokens).map .plain
  | .binding _ own t => own.lifetimeUses.map .lost ++ t.lifetimeUses
  | .other tokens => (free tokens).map .plain

/-- The lifetimes in bounds. -/
def usesInBounds : List TypeBound → List LifetimeUse
  | [] => []
  | b :: bs => b.lifetimeUses ++ usesInBounds bs

/-- The lifetimes in a bound. The binder of a trait is around the whole trait, and around what it
says of its own lifetimes. -/
def TypeBound.lifetimeUses : TypeBound → List LifetimeUse
  | .lifetime i => [.plain i.name]
  | .trait _ _ binder p =>
    (usesInBinder free binder ++ p.lifetimeUses).map (.under (declaredLifetimes binder))
  | .other tokens => (free tokens).map .plain

end

/-- The lifetimes in a type that no trait around them binds. -/
def SourceType.freeLifetimes (ty : SourceType) : List String :=
  ((ty.lifetimeUses free).filter fun u => !u.bound).map (·.name)

end

end Source

/-! ## What is kept of them -/

/-- The lifetimes that are in a resolved part, without the binders around them. -/
def carried (uses : List LifetimeUse) : List LifetimeUse :=
  (uses.filter (·.kept)).map fun u => { u with bound := false }

section

variable (uses : List LifetimeUse)

@[simp] theorem carried_append (more : List LifetimeUse) :
    carried (uses ++ more) = carried uses ++ carried more := by
  simp [carried]

@[simp] theorem carried_plain (names : List String) :
    carried (names.map .plain) = names.map .plain := by
  simp [carried, List.filter_map, Function.comp_def, LifetimeUse.plain]

@[simp] theorem carried_lost : carried (uses.map .lost) = [] := by
  simp [carried, List.filter_map, Function.comp_def, LifetimeUse.lost]

@[simp] theorem carried_under (names : List String) :
    carried (uses.map (.under names)) = carried uses := by
  simp [carried, List.filter_map, Function.comp_def, LifetimeUse.under]

end

section

variable (free : List TokenTree → List String)

/-- Where only the last segment has arguments, the lifetimes are those in its arguments. -/
theorem usesInSegments_of_plainButLast {segments : List PathSegment} {s : PathSegment}
    (hplain : PlainButLast segments) (hs : segments.getLast? = some s) :
    usesInSegments free segments = s.arguments.lifetimeUses free := by
  -- Only the last segment has arguments, so only that one can use a lifetime.
  induction segments with
  | nil => cases hs
  | cons first rest ih =>
    cases first with
    | mk i arguments =>
      cases rest with
      | nil =>
        cases hs
        rw [usesInSegments]
        rfl
      | cons next rest =>
        obtain ⟨-, hnone, hrest⟩ := hplain
        obtain rfl : arguments = .none := hnone
        rw [List.getLast?_cons_cons] at hs
        rw [usesInSegments, PathArguments.lifetimeUses, ih hrest hs]
        rfl

/-- What is written before the last segment is lost, with its lifetimes. -/
theorem carried_usesInSegments {segments : List PathSegment} {s : PathSegment}
    (hs : segments.getLast? = some s) :
    carried (usesInSegments free segments) = carried (s.arguments.lifetimeUses free) := by
  induction segments with
  | nil => cases hs
  | cons first rest ih =>
    cases first with
    | mk i arguments =>
      cases rest with
      | nil =>
        cases hs
        rw [usesInSegments]
        rfl
      | cons next rest =>
        rw [List.getLast?_cons_cons] at hs
        rw [usesInSegments, carried_append, carried_lost, List.nil_append, ih hs]

@[simp] theorem carried_usesInBinder (binder : List TokenTree) :
    carried (usesInBinder free binder) = [] := by
  cases binder with
  | nil => rfl
  | cons t ts =>
    have hlost := carried_lost ((free (t :: ts)).map .plain)
    rwa [List.map_map] at hlost

theorem lifetimeUses_writtenPath (text : String) (arguments : PathArguments) :
    (writtenPath text arguments).lifetimeUses free = arguments.lifetimeUses free := by
  obtain ⟨i, hi⟩ := exists_getLast?_segmentsOf (NamePath.segments_ofText_ne_nil text)
  rw [writtenPath, SourcePath.lifetimeUses,
    usesInSegments_of_plainButLast free (plainButLast_segmentsOf arguments _) hi]
  rfl

/-- A trait without a binder has the lifetimes of its path. -/
theorem lifetimeUses_trait_nil (parenthesized maybe : Bool) (p : SourcePath) :
    (TypeBound.trait parenthesized maybe [] p).lifetimeUses free = p.lifetimeUses free := by
  have hnone : declaredLifetimes [] = [] := rfl
  have hunder : LifetimeUse.under [] = id := by
    funext u
    simp [LifetimeUse.under]
  rw [TypeBound.lifetimeUses, usesInBinder, List.nil_append, hnone, hunder, List.map_id]

theorem lifetimeUses_bracketed (ws : List GenericArgument) :
    (bracketed ws).lifetimeUses free = usesInArgs free ws := by
  cases ws with
  | nil => rw [bracketed, PathArguments.lifetimeUses, usesInArgs]
  | cons w ws => rw [bracketed, PathArguments.lifetimeUses]

end

/-! ## Resolution carries lifetimes -/

namespace SymbolTable

/-- The path names no alias. -/
def NamesNoAlias (t : SymbolTable) (steps : Nat) (scope : Scope) (p : SourcePath) : Prop :=
  ∀ path ∈ t.canonical steps scope false p.namePath, t.alias? path = none

instance (t : SymbolTable) (steps : Nat) (scope : Scope) :
    DecidablePred (t.NamesNoAlias steps scope) := fun p =>
  inferInstanceAs (Decidable (∀ path ∈ t.canonical steps scope false p.namePath,
    t.alias? path = none))

theorem rooted_of_typeContext {t : SymbolTable} {steps : Nat} {scope : Scope}
    {params : List (String × ResolvedType)} {p : NamePath} {path : String}
    (h : (t.typeContext steps scope params).canonical p = some path) : Rooted path :=
  Rooted.canonical (show t.canonical (steps + 1) scope false p = some path from h)

end SymbolTable

section

variable {table : SymbolTable} {steps : Nat} {scope : Scope}
  {free : List TokenTree → List String}

section

variable (table : SymbolTable) (free : List TokenTree → List String) (uses : List LifetimeUse)

/-- A type that is spelled out, without aliases, by a type with the lifetimes that are carried over
from others. -/
def Carried (t : ResolvedType) : Prop :=
  ∃ w, literal w = some t ∧ w.Canonical (.unaliased table) ∧ w.lifetimeUses free = carried uses

/-- The same of an argument. -/
def CarriedArg (a : GenericArg) : Prop :=
  ∃ w, resolveArg literalContext w = some a ∧ w.Canonical (.unaliased table) ∧
    w.lifetimeUses free = carried uses

/-- The same of the arguments of a type. -/
def CarriedArgs (args : List GenericArg) : Prop :=
  ∃ ws, resolveArgs literalContext ws = some args ∧ ArgsCanonical (.unaliased table) ws ∧
    usesInArgs free ws = carried uses

/-- The same of the arguments of a trait. -/
def CarriedSuffix (suffix : String) : Prop :=
  ∃ w, traitSuffix literalContext w = some suffix ∧ w.Canonical (.unaliased table) true ∧
    w.lifetimeUses free = carried uses

/-- The same of a bound. -/
def CarriedBound (b : String) : Prop :=
  ∃ w, resolveBound literalContext w = some b ∧ w.Canonical (.unaliased table) ∧
    w.lifetimeUses free = carried uses

end

/-- A named type that is no alias is spelled out with its arguments. -/
theorem Carried.path {path : String} {uses : List LifetimeUse} {args : List GenericArg}
    {ws : List GenericArgument} (hrooted : Rooted path) (halias : table.alias? path = none)
    (hws : resolveArgs literalContext ws = some args)
    (hcanonical : ArgsCanonical (.unaliased table) ws)
    (huses : usesInArgs free ws = carried uses) :
    Carried table free uses (.path path args (kindOf path)) := by
  rw [← resolveArguments_bracketed] at hws
  refine ⟨_, literal_writtenPath path hws,
    canonical_writtenPath hrooted halias (canonical_bracketed hcanonical), ?_⟩
  rw [SourceType.lifetimeUses, lifetimeUses_writtenPath, lifetimeUses_bracketed, huses]

/-- Types that are spelled out one by one are spelled out together, with all their lifetimes. -/
theorem carried_types {elems : List SourceType} {ts : List ResolvedType}
    (h : List.Forall₂ (fun ty t => Carried table free (ty.lifetimeUses free) t) elems ts) :
    ∃ ws, resolveTypes literalContext ws = some ts ∧ TypesCanonical (.unaliased table) ws ∧
      usesInTypes free ws = carried (usesInTypes free elems) := by
  induction h with
  | nil => exact ⟨[], rfl, trivial, by rw [usesInTypes]; rfl⟩
  | cons ht _ ih =>
    obtain ⟨w, hw, hcanonical, huses⟩ := ht
    obtain ⟨ws, hws, hmore, hrest⟩ := ih
    rw [literal] at hw
    exact ⟨w :: ws, by simp [resolveTypes, hw, hws], ⟨hcanonical, hmore⟩,
      by rw [usesInTypes, usesInTypes, carried_append, huses, hrest]⟩

theorem carried_args {as : List GenericArgument} {bs : List GenericArg}
    (h : List.Forall₂ (fun a b => CarriedArg table free (a.lifetimeUses free) b) as bs) :
    CarriedArgs table free (usesInArgs free as) bs := by
  induction h with
  | nil => exact ⟨[], rfl, trivial, by rw [usesInArgs]; rfl⟩
  | cons ha _ ih =>
    obtain ⟨w, hw, hcanonical, huses⟩ := ha
    obtain ⟨ws, hws, hmore, hrest⟩ := ih
    exact ⟨w :: ws, by simp [resolveArgs_cons, hw, hws], ⟨hcanonical, hmore⟩,
      by rw [usesInArgs, usesInArgs, carried_append, huses, hrest]⟩

theorem carried_bounds {bounds : List TypeBound} {bs : List String}
    (h : List.Forall₂ (fun b text => CarriedBound table free (b.lifetimeUses free) text) bounds
      bs) :
    ∃ ws, resolveBounds literalContext ws = some bs ∧ BoundsCanonical (.unaliased table) ws ∧
      usesInBounds free ws = carried (usesInBounds free bounds) := by
  induction h with
  | nil => exact ⟨[], rfl, trivial, by rw [usesInBounds]; rfl⟩
  | cons hb _ ih =>
    obtain ⟨w, hw, hcanonical, huses⟩ := hb
    obtain ⟨ws, hws, hall, hrest⟩ := ih
    exact ⟨w :: ws, by simp [resolveBounds_cons, hw, hws], ⟨hcanonical, hall⟩,
      by rw [usesInBounds, usesInBounds, carried_append, huses, hrest]⟩

/-- Where no path names an alias, each form of type is spelled out with the lifetimes that it
carries over. -/
theorem carried_resolvedCases :
    ResolvedCases (table.typeContext steps scope [])
      (fun ty t => (∀ p ∈ ty.paths, table.NamesNoAlias (steps + 1) scope p) →
        Carried table free (ty.lifetimeUses free) t)
      (fun a args => (∀ p ∈ a.paths, table.NamesNoAlias (steps + 1) scope p) →
        CarriedArgs table free (a.lifetimeUses free) args)
      (fun a suffix => (∀ p ∈ a.paths, table.NamesNoAlias (steps + 1) scope p) →
        CarriedSuffix table free (a.lifetimeUses free) suffix)
      (fun a b => (∀ p ∈ a.paths, table.NamesNoAlias (steps + 1) scope p) →
        CarriedArg table free (a.lifetimeUses free) b)
      (fun b text => (∀ p ∈ b.paths, table.NamesNoAlias (steps + 1) scope p) →
        CarriedBound table free (b.lifetimeUses free) text) where
  paren ih hnone := by
    rw [SourceType.paths] at hnone
    rw [SourceType.lifetimeUses]
    exact ih hnone
  param {p _} hparam := by
    rw [param?_of_nil _ rfl p] at hparam
    cases hparam
  path {_ _ s path args _} _ hpath hs ih hnamed hnone := by
    rw [SourceType.paths, SourcePath.paths, List.forall_mem_cons, forall_mem_segmentPaths] at hnone
    -- no alias is mentioned, so the name stands for itself and keeps its arguments
    have halias : table.alias? path = none := hnone.1 path hpath
    obtain ⟨ws, hws, hcanonical, huses⟩ := ih (hnone.2 s (List.mem_of_getLast? hs))
    rw [TypeContext.named, show (table.typeContext steps scope []).alias? path = none from halias]
      at hnamed
    cases hnamed
    rw [SourceType.lifetimeUses, SourcePath.lifetimeUses]
    rw [← carried_usesInSegments free hs] at huses
    exact Carried.path (SymbolTable.rooted_of_typeContext hpath) halias hws hcanonical huses
  reference {lifetime mutable _ _} ih hnone := by
    rw [SourceType.paths] at hnone
    obtain ⟨w, hw, hcanonical, huses⟩ := ih hnone
    rw [literal] at hw
    refine ⟨.reference lifetime mutable w, by simp [literal, resolveType, hw], ⟨fun _ _ => trivial,
      hcanonical⟩, ?_⟩
    rw [SourceType.lifetimeUses, SourceType.lifetimeUses, huses, carried_append]
    cases lifetime <;> rfl
  pointer {mutable _ _} ih hnone := by
    rw [SourceType.paths] at hnone
    obtain ⟨w, hw, hcanonical, huses⟩ := ih hnone
    rw [literal] at hw
    exact ⟨.pointer mutable w, by simp [literal, resolveType, hw], hcanonical,
      by rwa [SourceType.lifetimeUses, SourceType.lifetimeUses]⟩
  traitObject ih hnone := by
    rw [SourceType.paths, forall_mem_boundPaths] at hnone
    obtain ⟨ws, hws, hcanonical, huses⟩ := carried_bounds (forall₂_mp_mem ih hnone)
    exact ⟨.traitObject true ws false, by simp [literal, resolveType, hws],
      ⟨rfl, rfl, trivial, hcanonical⟩, by rwa [SourceType.lifetimeUses, SourceType.lifetimeUses]⟩
  tuple ih hnone := by
    rw [SourceType.paths, forall_mem_typePaths] at hnone
    obtain ⟨ws, hws, hcanonical, huses⟩ := carried_types (forall₂_mp_mem ih hnone)
    exact ⟨.tuple ws (ws.length == 1), by simp [literal, resolveType, hws], ⟨rfl, hcanonical⟩,
      by rwa [SourceType.lifetimeUses, SourceType.lifetimeUses]⟩
  array {_ length _} ih hnone := by
    rw [SourceType.paths] at hnone
    obtain ⟨w, hw, hcanonical, huses⟩ := ih hnone
    rw [literal] at hw
    refine ⟨.array w length, by simp [literal, resolveType, hw], ⟨hcanonical, trivial⟩, ?_⟩
    rw [SourceType.lifetimeUses, SourceType.lifetimeUses, huses, carried_append, carried_plain]
  slice ih hnone := by
    rw [SourceType.paths] at hnone
    obtain ⟨w, hw, hcanonical, huses⟩ := ih hnone
    rw [literal] at hw
    exact ⟨.slice w, by simp [literal, resolveType, hw], hcanonical,
      by rwa [SourceType.lifetimeUses, SourceType.lifetimeUses]⟩
  function {tokens} _ := ⟨.function tokens, by rw [literal, resolveType], trivial,
    by rw [SourceType.lifetimeUses, carried_plain]⟩
  never _ := ⟨.never, by rw [literal, resolveType], trivial, by rw [SourceType.lifetimeUses]; rfl⟩
  noArguments _ := ⟨[], rfl, trivial, by rw [usesInArgs, PathArguments.lifetimeUses]; rfl⟩
  angle ih hnone := by
    rw [PathArguments.paths, forall_mem_argumentPaths] at hnone
    rw [PathArguments.lifetimeUses]
    exact carried_args (forall₂_mp_mem ih hnone)
  noSuffix _ := ⟨.none, rfl, trivial, by rw [PathArguments.lifetimeUses]; rfl⟩
  angleSuffix ih hnone := by
    rw [PathArguments.paths, forall_mem_argumentPaths] at hnone
    obtain ⟨ws, hws, hcanonical, huses⟩ := carried_args (forall₂_mp_mem ih hnone)
    exact ⟨.angle false ws false, by simp [traitSuffix, hws], ⟨rfl, rfl, by simp, hcanonical⟩,
      by rw [PathArguments.lifetimeUses, PathArguments.lifetimeUses, huses]⟩
  callSuffix ih hnone := by
    rw [PathArguments.paths, forall_mem_typePaths] at hnone
    obtain ⟨ws, hws, hcanonical, huses⟩ := carried_types (forall₂_mp_mem ih hnone)
    exact ⟨.call ws false none, by simp [traitSuffix, hws], ⟨rfl, rfl, hcanonical⟩,
      by rw [PathArguments.lifetimeUses, PathArguments.lifetimeUses, huses]⟩
  outputSuffix ihinputs ihoutput hnone := by
    rw [PathArguments.paths, List.forall_mem_append, forall_mem_typePaths] at hnone
    obtain ⟨ws, hws, hcanonical, huses⟩ := carried_types (forall₂_mp_mem ihinputs hnone.1)
    obtain ⟨w, hw, houtput, hmore⟩ := ihoutput hnone.2
    rw [literal] at hw
    refine ⟨.call ws false (some w), by simp [traitSuffix, hws, hw],
      ⟨rfl, rfl, hcanonical, houtput⟩, ?_⟩
    rw [PathArguments.lifetimeUses, PathArguments.lifetimeUses, carried_append, huses, hmore]
  typeArgument ih hnone := by
    rw [GenericArgument.paths] at hnone
    obtain ⟨w, hw, hcanonical, huses⟩ := ih hnone
    rw [literal] at hw
    exact ⟨.type w, by simp [resolveArg, hw], hcanonical,
      by rwa [GenericArgument.lifetimeUses, GenericArgument.lifetimeUses]⟩
  lifetimeArgument {i} _ :=
    ⟨.lifetime i, rfl, trivial, by rw [GenericArgument.lifetimeUses]; rfl⟩
  constArgument {tokens} _ :=
    ⟨.const tokens, rfl, trivial, by rw [GenericArgument.lifetimeUses, carried_plain]⟩
  binding {i _ _ _} ih hnone := by
    rw [GenericArgument.paths] at hnone
    obtain ⟨w, hw, hcanonical, huses⟩ := ih hnone
    rw [literal] at hw
    refine ⟨.binding i .none w, by simp [resolveArg, hw], ⟨trivial, rfl, hcanonical⟩, ?_⟩
    -- an associated type is resolved without the arguments of its own
    rw [GenericArgument.lifetimeUses, GenericArgument.lifetimeUses, carried_append, carried_lost,
      huses, PathArguments.lifetimeUses]
    rfl
  lifetimeBound {i} _ := ⟨.lifetime i, rfl, trivial, by rw [TypeBound.lifetimeUses]; rfl⟩
  trait {_ maybe _ _ _ s _ _} hpath hs ih hnone := by
    rw [TypeBound.paths, SourcePath.paths, List.forall_mem_cons, forall_mem_segmentPaths] at hnone
    obtain ⟨arguments, hresolve, hcanonical, huses⟩ := ih (hnone.2 s (List.mem_of_getLast? hs))
    refine ⟨_, resolveBound_writtenPath maybe _ hresolve,
      canonical_trait_writtenPath maybe (SymbolTable.rooted_of_typeContext hpath) hcanonical, ?_⟩
    -- the binder of the written trait is left out
    rw [lifetimeUses_trait_nil, lifetimeUses_writtenPath, huses, TypeBound.lifetimeUses,
      carried_under, carried_append, carried_usesInBinder, List.nil_append,
      SourcePath.lifetimeUses, carried_usesInSegments free hs]

/-- All lifetimes that are carried over are free, since no binder is. -/
theorem freeLifetimes_of_carried {w : SourceType} {uses : List LifetimeUse}
    (h : w.lifetimeUses free = carried uses) :
    w.freeLifetimes free = (uses.filter (·.kept)).map (·.name) := by
  rw [SourceType.freeLifetimes, h]
  simp [carried, List.filter_map, Function.comp_def]

theorem mem_freeLifetimes {ty : SourceType} {name : String} :
    name ∈ ty.freeLifetimes free ↔
      ∃ u ∈ ty.lifetimeUses free, u.bound = false ∧ u.name = name := by
  simp [SourceType.freeLifetimes, and_assoc]

/-- A type that mentions no alias is resolved to a type with no free lifetime of its own if and only
if each lifetime that a trait binds in a resolved part of the written type is free elsewhere in it.
The canonical form is spelled out by the type that its text is read as, if it can be read at all.
This is so in whatever way lifetimes are told that are free in tokens which are kept as they are
written. -/
theorem free_lifetimes_iff (free : List TokenTree → List String) {ty : SourceType}
    (hnone : ∀ p ∈ ty.paths, table.NamesNoAlias maxSteps scope p) {t : ResolvedType}
    (h : table.resolve scope ty = some t) :
    ∃ w, literal w = some t ∧ w.Canonical (.unaliased table) ∧
      (w.Canonical .readable → (parseType t.text = some w ↔ w.Fits true)) ∧
      ((∀ name ∈ w.freeLifetimes free, name ∈ ty.freeLifetimes free) ↔
        ∀ u ∈ ty.lifetimeUses free, u.kept = true → u.bound = true →
          u.name ∈ ty.freeLifetimes free) := by
  rw [SymbolTable.resolve, maxSteps, SymbolTable.resolveIn_succ] at h
  -- One derivation of the result gives the written form and where each use of a lifetime went.
  obtain ⟨w, hw, hcanonical, huses⟩ := carried_resolvedCases.type h hnone
  refine ⟨w, hw, hcanonical, parseType_eq_some_iff hw, ?_⟩
  rw [freeLifetimes_of_carried huses]
  constructor
  · intro hfree u hu hkept _
    exact hfree u.name (List.mem_map_of_mem (List.mem_filter.mpr ⟨hu, hkept⟩))
  · intro hbound name hname
    obtain ⟨u, hu, rfl⟩ := List.mem_map.mp hname
    obtain ⟨hu, hkept⟩ := List.mem_filter.mp hu
    cases hfree : u.bound with
    -- A use that is bound in the source may lose its binder; a free one was free before.
    | true => exact hbound u hu hkept hfree
    | false => exact mem_freeLifetimes.mpr ⟨u, hu, hfree, rfl⟩

end

mutual

/-- The lifetimes in a token. -/
def TokenTree.lifetimes : TokenTree → List String
  | .lifetime i => [i.name]
  | .group _ body => lifetimesAll body
  | _ => []

/-- The lifetimes in tokens. -/
def TokenTree.lifetimesAll : List TokenTree → List String
  | [] => []
  | t :: ts => t.lifetimes ++ lifetimesAll ts

end

/-- The lifetimes in tokens, apart from those that a binder in front declares. -/
def looseLifetimes (tokens : List TokenTree) : List String :=
  (TokenTree.lifetimesAll tokens).filter fun name => !(declaredLifetimes tokens).contains name

/-- The type `(Box<dyn for<'a> Fn(&'a u8) + 'b>, &'a [for<'c> fn(&'c u8)])`. -/
def hooksType : SourceType :=
  let reference (name : String) := SourceType.reference (some (.plain name)) false
  let binder (name : String) : List TokenTree :=
    [wordToken "for", .punct '<' false, .lifetime (.plain name), .punct '>' false]
  .tuple
    [namedType false ["Box"]
       [.traitObject true
         [.trait false false (binder "a") (.mk false [.mk (.plain "Fn")
            (.call [reference "a" (namedType false ["u8"] [])] false none)]),
          .lifetime (.plain "b")] false],
     reference "a" (.slice (.function (binder "c" ++ [wordToken "fn", .group .parenthesis
       [.punct '&' false, .lifetime (.plain "c"), wordToken "u8"]])))] false

theorem free_lifetimes_hooks :
    (∀ p ∈ hooksType.paths, rowTable.NamesNoAlias maxSteps .root p) ∧
      hooksType.freeLifetimes looseLifetimes = ["b", "a"] ∧
      ∃ t w, rowTable.resolve .root hooksType = some t ∧
        t.text = "(::std::boxed::Box<dyn ::core::ops::Fn(&'a u8) + 'b>, " ++
          "&'a [for<'c> fn (&'c u8)])" ∧
        literal w = some t ∧
        ∀ name ∈ w.freeLifetimes looseLifetimes, name ∈ hooksType.freeLifetimes looseLifetimes := by
  have hnone : ∀ p ∈ hooksType.paths, rowTable.NamesNoAlias maxSteps .root p := by decide +kernel
  have htext : (rowTable.resolve .root hooksType).map ResolvedType.text =
      some ("(::std::boxed::Box<dyn ::core::ops::Fn(&'a u8) + 'b>, " ++
        "&'a [for<'c> fn (&'c u8)])") := by decide +kernel
  obtain ⟨t, ht, htext⟩ := Option.map_eq_some_iff.mp htext
  obtain ⟨w, hw, -, -, hiff⟩ := free_lifetimes_iff looseLifetimes hnone ht
  exact ⟨hnone, by decide +kernel, t, w, ht, htext, hw, hiff.mpr (by decide +kernel)⟩

/-- A trait loses the binder of its lifetime: nothing is free in the written type, but a lifetime is
free in the text of the type that it is resolved to. -/
theorem free_lifetimes_unbound :
    let table := SymbolTable.ofItems .root []
    let written := "Box<dyn for<'a> Fn(&'a u8)>"
    let canonical := "::std::boxed::Box<dyn ::core::ops::Fn(&'a u8)>"
    (∀ path, table.alias? path = none) ∧
      (parseType written).map (SourceType.freeLifetimes looseLifetimes) = some [] ∧
      ((parseType written).bind fun ty => (table.resolve .root ty).map ResolvedType.text) =
        some canonical ∧
      (parseType canonical).map (SourceType.freeLifetimes looseLifetimes) = some ["a"] :=
  ⟨fun _ => rfl, by decide +kernel⟩

end Memberwise
