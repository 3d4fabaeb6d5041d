import Memberwise.ResolvedType
import Memberwise.Source.Written
import Memberwise.Symbols.Lookup

/-!
# Memberwise.Symbols.Resolve — written types in canonical form

A written type is resolved part by part. An alias is replaced by its target, with the arguments in
place of its parameters; aliases can lead to further aliases, so a resolution may take a limited
number of steps.
-/

namespace Memberwise

open Source

/-- What the parts of a type are resolved against. -/
structure TypeContext where
  /-- The canonical form of a path. -/
  canonical : NamePath → Option String
  /-- What an alias with the given arguments stands for. -/
  expand : Alias → List GenericArg → Option ResolvedType
  /-- The alias with a canonical path. -/
  alias? : String → Option Alias
  /-- The types that stand for parameters. -/
  params : List (String × ResolvedType)

/-- The names of a written path. -/
def Source.SourcePath.namePath (p : SourcePath) : NamePath := ⟨p.absolute, p.names⟩

/-- The kind of a named type. -/
def kindOf (path : String) : TypeKind :=
  if referenceTypes.contains path then .reference else .value

/-- The name of a path that is a single bare name. -/
def bareName? : SourcePath → Option String
  | .mk false [.mk i .none] => some i.name
  | _ => none

/-- A named type with its arguments, with an alias replaced by what it stands for. -/
def TypeContext.named (c : TypeContext) (path : String) (args : List GenericArg) :
    Option ResolvedType :=
  match c.alias? path with
  | some a => c.expand a args
  | none => some (.path path args (kindOf path))

/-- What a single bare name stands for as a parameter. -/
def TypeContext.param? (c : TypeContext) (p : SourcePath) : Option ResolvedType := do
  lookupLast (← bareName? p) c.params

mutual

/-- Resolves a type. -/
def resolveType (c : TypeContext) : SourceType → Option ResolvedType
  | .paren inner => resolveType c inner
  | .path p =>
    match c.param? p with
    | some t => some t
    | none => do
      let path ← c.canonical p.namePath
      let args ← resolveLast c p
      c.named path args
  | .reference lifetime mutable target => do
    return .reference (lifetime.map fun i => "'" ++ i.text) mutable (← resolveType c target)
  | .pointer mutable target => do return .pointer mutable (← resolveType c target)
  | .traitObject _ bounds _ => do return .traitObject (← resolveBounds c bounds)
  | .tuple elems _ => do return .tuple (← resolveTypes c elems)
  | .array elem length => do
    return .array (← resolveType c elem) (TokenTree.textAll length)
  | .slice elem => do return .slice (← resolveType c elem)
  | .function tokens => some (.verbatim (SourceType.function tokens).written)
  | .never => some (.verbatim "!")
  | .other _ => none

/-- Resolves a list of types. -/
def resolveTypes (c : TypeContext) : List SourceType → Option (List ResolvedType)
  | [] => some []
  | t :: ts => do return (← resolveType c t) :: (← resolveTypes c ts)

/-- Resolves the arguments of the last segment of a path. -/
def resolveLast (c : TypeContext) : SourcePath → Option (List GenericArg)
  | .mk _ segments => resolveLastOf c segments

/-- Resolves the arguments of the last of a list of segments. -/
def resolveLastOf (c : TypeContext) : List PathSegment → Option (List GenericArg)
  | [] => none
  | [.mk _ arguments] => resolveArguments c arguments
  | _ :: rest => resolveLastOf c rest

/-- Resolves the arguments of a type. -/
def resolveArguments (c : TypeContext) : PathArguments → Option (List GenericArg)
  | .none => some []
  | .angle _ args _ => resolveArgs c args
  | .call .. => none

/-- Resolves a list of arguments in angle brackets. -/
def resolveArgs (c : TypeContext) : List GenericArgument → Option (List GenericArg)
  | [] => some []
  | .type t :: rest => do return .type (← resolveType c t) :: (← resolveArgs c rest)
  | .lifetime i :: rest => do return .lifetime ("'" ++ i.text) :: (← resolveArgs c rest)
  | .const tokens :: rest => do
    return .const (TokenTree.textAll tokens) :: (← resolveArgs c rest)
  | .binding i _ t :: rest => do
    return .binding i.text (← resolveType c t) :: (← resolveArgs c rest)
  | .other _ :: _ => none

/-- Resolves the bounds of a trait object. -/
def resolveBounds (c : TypeContext) : List TypeBound → Option (List String)
  | [] => some []
  | .lifetime i :: rest => do return ("'" ++ i.text) :: (← resolveBounds c rest)
  | .trait _ maybe _ p :: rest => do
    let path ← c.canonical p.namePath
    let suffix ← suffixOf c p
    return ((if maybe then "?" else "") ++ path ++ suffix) :: (← resolveBounds c rest)
  | .other _ :: _ => none

/-- The text of the arguments of a trait. -/
def suffixOf (c : TypeContext) : SourcePath → Option String
  | .mk _ segments => suffixOfLast c segments

/-- The text of the arguments of the last of a list of segments. -/
def suffixOfLast (c : TypeContext) : List PathSegment → Option String
  | [] => none
  | [.mk _ arguments] => traitSuffix c arguments
  | _ :: rest => suffixOfLast c rest

/-- The text of the arguments of a trait: `<A, B>` or `(A, B) -> C`. -/
def traitSuffix (c : TypeContext) : PathArguments → Option String
  | .none => some ""
  | .angle _ args _ => do
    return "<" ++ ", ".intercalate (argTexts (← resolveArgs c args)) ++ ">"
  | .call inputs _ none => do
    return "(" ++ ", ".intercalate (typeTexts (← resolveTypes c inputs)) ++ ")"
  | .call inputs _ (some output) => do
    let ins ← resolveTypes c inputs
    let out ← resolveType c output
    return "(" ++ ", ".intercalate (typeTexts ins) ++ ") -> " ++ out.text

end

/-- The parameters of an alias with the types among the arguments, if they are as many. -/
def Alias.bind? (a : Alias) (args : List GenericArg) : Option (List (String × ResolvedType)) :=
  let types := args.filterMap GenericArg.type?
  if types.length = a.params.length then some (a.params.zip types) else none

namespace SymbolTable

/-- Resolves a type written in `scope` in at most a given number of steps, with types for
parameters. -/
def resolveIn (t : SymbolTable) :
    Nat → Scope → List (String × ResolvedType) → SourceType → Option ResolvedType
  | 0, _, _, _ => none
  | steps + 1, scope, params, ty =>
    resolveType
      { canonical := t.canonical (steps + 1) scope false
        expand := fun a args => do
          t.resolveIn steps a.scope (← a.bind? args) a.target
        alias? := t.alias?
        params := params }
      ty

/-- Resolves a type written in `scope`. -/
def resolve (t : SymbolTable) (scope : Scope) (ty : SourceType) : Option ResolvedType :=
  t.resolveIn maxSteps scope [] ty

/-- The canonical path of an attribute or derive written in `scope`. -/
def attribute? (t : SymbolTable) (p : SourcePath) (scope : Scope) : Option String :=
  match p.absolute, p.names with
  | false, [name] =>
    if (t.lookup maxSteps scope name).isSome then t.canonical maxSteps scope false p.namePath
    else builtinAttribute? name
  | _, _ => t.canonical maxSteps scope false p.namePath

/-- The canonical path of a type declared in `scope`. -/
def declaredName? (t : SymbolTable) (i : Ident) (scope : Scope) : Option String :=
  let path := scope.join i.name
  if t.isLocalType path then some path else none

end SymbolTable

end Memberwise
