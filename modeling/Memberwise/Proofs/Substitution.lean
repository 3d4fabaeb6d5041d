import Memberwise.Proofs.Indexing
import Memberwise.Proofs.Modules
import Memberwise.Proofs.Stability

/-!
# Memberwise.Proofs.Substitution — aliases are transparent

An alias with arguments is resolved by resolving the arguments first and then the target, in which
the resolved arguments stand for the parameters. The other way is to put the arguments in place of
the parameters as they are written (`SourceType.instantiate`), and to resolve what comes out. Both
give the same, part by part (`resolveType_instantiate`).

What is left is that the name of an alias leads to its target: in a module that is a single block,
an alias that is declared once is the one that its name stands for (`SoleAlias.canonical`,
`SoleAlias.alias?`). So a use of it can be written out (`alias_transparent`).
-/

namespace Memberwise

open Source

namespace Source

/-! ## Types in place of bare names -/

mutual

/-- The type with other types in place of the bare names that `σ` replaces. A trait is no type, and
lengths of arrays and constants are expressions, in which no type parameter can be named; they stay,
and so do function pointers, which are kept as they are written. -/
def SourceType.instantiate (σ : String → Option SourceType) : SourceType → SourceType
  | .paren inner => .paren (inner.instantiate σ)
  | .path p =>
    match (bareName? p).bind σ with
    | some t => t
    | none => .path (p.instantiate σ)
  | .reference lifetime mutable target => .reference lifetime mutable (target.instantiate σ)
  | .pointer mutable target => .pointer mutable (target.instantiate σ)
  | .traitObject marked bounds trailing =>
    .traitObject marked (instantiateBounds σ bounds) trailing
  | .tuple elems trailing => .tuple (instantiateTypes σ elems) trailing
  | .array elem length => .array (elem.instantiate σ) length
  | .slice elem => .slice (elem.instantiate σ)
  | .function tokens => .function tokens
  | .never => .never
  | .other tokens => .other tokens

/-- A list of types with other types in place of bare names. -/
def instantiateTypes (σ : String → Option SourceType) : List SourceType → List SourceType
  | [] => []
  | t :: ts => t.instantiate σ :: instantiateTypes σ ts

/-- A path with other types in place of bare names in its arguments. -/
def SourcePath.instantiate (σ : String → Option SourceType) : SourcePath → SourcePath
  | .mk absolute segments => .mk absolute (instantiateSegments σ segments)

/-- Segments with other types in place of bare names in their arguments. -/
def instantiateSegments (σ : String → Option SourceType) : List PathSegment → List PathSegment
  | [] => []
  | .mk i arguments :: rest => .mk i (arguments.instantiate σ) :: instantiateSegments σ rest

/-- The arguments of a segment with other types in place of bare names. -/
def PathArguments.instantiate (σ : String → Option SourceType) : PathArguments → PathArguments
  | .none => .none
  | .angle turbofish args trailing => .angle turbofish (instantiateArgs σ args) trailing
  | .call inputs trailing none => .call (instantiateTypes σ inputs) trailing none
  | .call inputs trailing (some output) =>
    .call (instantiateTypes σ inputs) trailing (some (output.instantiate σ))

/-- A list of arguments with other types in place of bare names. -/
def instantiateArgs (σ : String → Option SourceType) :
    List GenericArgument → List GenericArgument
  | [] => []
  | a :: as => a.instantiate σ :: instantiateArgs σ as

/-- An argument with other types in place of bare names. -/
def GenericArgument.instantiate (σ : String → Option SourceType) :
    GenericArgument → GenericArgument
  | .type t => .type (t.instantiate σ)
  | .lifetime i => .lifetime i
  | .const tokens => .const tokens
  | .binding i own t => .binding i (own.instantiate σ) (t.instantiate σ)
  | .other tokens => .other tokens

/-- A list of bounds with other types in place of bare names in their arguments. -/
def instantiateBounds (σ : String → Option SourceType) : List TypeBound → List TypeBound
  | [] => []
  | b :: bs => b.instantiate σ :: instantiateBounds σ bs

/-- A bound with other types in place of bare names in its arguments. -/
def TypeBound.instantiate (σ : String → Option SourceType) : TypeBound → TypeBound
  | .lifetime i => .lifetime i
  | .trait parenthesized maybe binder p => .trait parenthesized maybe binder (p.instantiate σ)
  | .other tokens => .other tokens

end

section

variable (σ : String → Option SourceType)

theorem instantiateTypes_eq_map (ts : List SourceType) :
    instantiateTypes σ ts = ts.map fun t => t.instantiate σ := by
  induction ts with
  | nil => rw [instantiateTypes, List.map_nil]
  | cons t ts ih => rw [instantiateTypes, List.map_cons, ih]

theorem instantiateArgs_eq_map (args : List GenericArgument) :
    instantiateArgs σ args = args.map fun a => a.instantiate σ := by
  induction args with
  | nil => rw [instantiateArgs, List.map_nil]
  | cons a args ih => rw [instantiateArgs, List.map_cons, ih]

theorem instantiateBounds_eq_map (bounds : List TypeBound) :
    instantiateBounds σ bounds = bounds.map fun b => b.instantiate σ := by
  induction bounds with
  | nil => rw [instantiateBounds, List.map_nil]
  | cons b bounds ih => rw [instantiateBounds, List.map_cons, ih]

theorem instantiateSegments_eq_map (segments : List PathSegment) :
    instantiateSegments σ segments =
      segments.map fun s => .mk s.name (s.arguments.instantiate σ) := by
  induction segments with
  | nil => rw [instantiateSegments, List.map_nil]
  | cons s rest ih =>
    cases s with
    | mk i arguments => rw [instantiateSegments, List.map_cons, ih]; rfl

theorem getLast?_instantiateSegments (segments : List PathSegment) :
    (instantiateSegments σ segments).getLast? =
      segments.getLast?.map fun s => .mk s.name (s.arguments.instantiate σ) := by
  rw [instantiateSegments_eq_map, List.getLast?_map]

/-- The names of a path stay. -/
theorem SourcePath.namePath_instantiate (p : SourcePath) :
    (p.instantiate σ).namePath = p.namePath := by
  cases p with
  | mk absolute segments =>
    have hnames : (segments.map fun s => PathSegment.mk s.name (s.arguments.instantiate σ)).map
        (fun s => s.name.name) = segments.map fun s => s.name.name := by
      rw [List.map_map]
      rfl
    rw [instantiate, instantiateSegments_eq_map]
    exact congrArg (NamePath.mk absolute) hnames

end

end Source

/-! ## Resolving in either order -/

/-- In the context `c` the parameters stand for what the types that `σ` puts in their place are
resolved to in `d`. The contexts differ in nothing else. -/
structure TypeContext.Instantiates (c d : TypeContext) (σ : String → Option SourceType) : Prop where
  canonical : ∀ p, c.canonical p = d.canonical p
  named : ∀ path args, c.named path args = d.named path args
  params : d.params = []
  bound : ∀ name, (lookupLast name c.params = none ∧ σ name = none) ∨
    ∃ t u, σ name = some t ∧ resolveType d t = some u ∧ lookupLast name c.params = some u

section

variable {c d : TypeContext} {σ : String → Option SourceType}

theorem TypeContext.Instantiates.typeCases (h : c.Instantiates d σ) :
    TypeCases (fun t => resolveType c t = resolveType d (t.instantiate σ))
      (fun a => resolveArguments c a = resolveArguments d (a.instantiate σ) ∧
        traitSuffix c a = traitSuffix d (a.instantiate σ))
      (fun a => resolveArg c a = resolveArg d (a.instantiate σ))
      (fun b => resolveBound c b = resolveBound d (b.instantiate σ)) where
  path absolute segments ih := by
    -- a path that is no parameter is looked up alike, with its arguments resolved alike
    have hlast : resolveLastOf c segments = resolveLastOf d (instantiateSegments σ segments) := by
      rw [resolveLastOf_eq, resolveLastOf_eq, getLast?_instantiateSegments]
      cases hs : segments.getLast? with
      | none => rfl
      | some s => exact (ih s (List.mem_of_getLast? hs)).1
    have hpath : ((c.canonical (SourcePath.mk absolute segments).namePath).bind fun path =>
        (resolveLast c (.mk absolute segments)).bind (c.named path)) =
          resolveType d (.path ((SourcePath.mk absolute segments).instantiate σ)) := by
      rw [resolveType_path d h.params, SourcePath.namePath_instantiate, h.canonical,
        SourcePath.instantiate, resolveLast, resolveLast, hlast,
        funext fun path => funext (h.named path)]
    rw [resolveType, SourceType.instantiate, TypeContext.param?]
    cases hbare : bareName? (.mk absolute segments) with
    | none => exact hpath
    | some name =>
      -- a bare name is kept, or stands for one resolved type on both sides
      rcases h.bound name with ⟨hnone, hkept⟩ | ⟨t, u, hput, ht, hu⟩
      · simp only [Option.bind_some, Option.bind_eq_bind, hnone, hkept]
        exact hpath
      · simp only [Option.bind_some, Option.bind_eq_bind, hput, hu, ht]
  reference lifetime mutable target ih := by
    rw [SourceType.instantiate, resolveType, resolveType, ih]
  pointer mutable target ih := by rw [SourceType.instantiate, resolveType, resolveType, ih]
  traitObject marked bounds trailing ih := by
    rw [SourceType.instantiate, resolveType, resolveType, instantiateBounds_eq_map,
      resolveBounds_map ih]
  tuple elems trailing ih := by
    rw [SourceType.instantiate, resolveType, resolveType, instantiateTypes_eq_map,
      resolveTypes_map ih]
  array elem length ih := by rw [SourceType.instantiate, resolveType, resolveType, ih]
  slice elem ih := by rw [SourceType.instantiate, resolveType, resolveType, ih]
  paren inner ih := by rw [SourceType.instantiate, resolveType, resolveType, ih]
  function tokens := by rw [SourceType.instantiate, resolveType, resolveType]
  never := by rw [SourceType.instantiate, resolveType, resolveType]
  other tokens := by rw [SourceType.instantiate, resolveType, resolveType]
  noArguments := by
    rw [PathArguments.instantiate]
    exact ⟨rfl, rfl⟩
  angle turbofish args trailing ih := by
    have hargs : resolveArgs c args = resolveArgs d (instantiateArgs σ args) := by
      rw [instantiateArgs_eq_map, resolveArgs_map ih]
    rw [PathArguments.instantiate]
    exact ⟨hargs, by rw [traitSuffix, traitSuffix, hargs]⟩
  call inputs trailing output ihinputs ihoutput := by
    have hinputs : resolveTypes c inputs = resolveTypes d (instantiateTypes σ inputs) := by
      rw [instantiateTypes_eq_map, resolveTypes_map ihinputs]
    cases output with
    | none =>
      rw [PathArguments.instantiate]
      exact ⟨rfl, by rw [traitSuffix, traitSuffix, hinputs]⟩
    | some output =>
      rw [PathArguments.instantiate]
      exact ⟨rfl, by rw [traitSuffix, traitSuffix, hinputs, ihoutput output rfl]⟩
  typeArgument t ih := by rw [GenericArgument.instantiate, resolveArg, resolveArg, ih]
  lifetimeArgument i := by rw [GenericArgument.instantiate, resolveArg, resolveArg]
  constArgument tokens := by rw [GenericArgument.instantiate, resolveArg, resolveArg]
  binding i own t _ ih := by rw [GenericArgument.instantiate, resolveArg, resolveArg, ih]
  otherArgument tokens := by rw [GenericArgument.instantiate, resolveArg, resolveArg]
  lifetimeBound i := by rw [TypeBound.instantiate, resolveBound, resolveBound]
  trait parenthesized maybe binder absolute segments ih := by
    have hsuffix : suffixOfLast c segments = suffixOfLast d (instantiateSegments σ segments) := by
      rw [suffixOfLast_eq, suffixOfLast_eq, getLast?_instantiateSegments]
      cases hs : segments.getLast? with
      | none => rfl
      | some s => exact (ih s (List.mem_of_getLast? hs)).2
    rw [TypeBound.instantiate, resolveBound, resolveBound, SourcePath.namePath_instantiate,
      h.canonical, SourcePath.instantiate, suffixOf, suffixOf, hsuffix]
  otherBound tokens := by rw [TypeBound.instantiate, resolveBound, resolveBound]

/-- A type is resolved alike whether the parameters stand for resolved types, or the types are put
in their place before. -/
theorem resolveType_instantiate (h : c.Instantiates d σ) (ty : SourceType) :
    resolveType c ty = resolveType d (ty.instantiate σ) := h.typeCases.type ty

end

/-! ## Uses of an alias -/

/-- The arguments in angle brackets. -/
def Source.PathArguments.given? : PathArguments → Option (List GenericArgument)
  | .none => some []
  | .angle _ args _ => some args
  | .call .. => Option.none

theorem resolveArguments_of_given? (c : TypeContext) {arguments : PathArguments}
    {args : List GenericArgument} (h : arguments.given? = some args) :
    resolveArguments c arguments = resolveArgs c args := by
  cases arguments with
  | none =>
    cases h
    rw [resolveArguments, resolveArgs]
  | angle turbofish as trailing =>
    cases h
    rw [resolveArguments]
  | call inputs trailing output => cases h

namespace SymbolTable

/-- What the parts of a type are resolved against that is written in `scope`, where at most one more
step than `steps` may be taken. -/
def typeContext (t : SymbolTable) (steps : Nat) (scope : Scope)
    (params : List (String × ResolvedType)) : TypeContext where
  canonical := t.canonical (steps + 1) scope false
  expand := fun a args => do t.resolveIn steps a.scope (← a.bind? args) a.target
  alias? := t.alias?
  params := params

theorem resolveIn_succ (t : SymbolTable) (steps : Nat) (scope : Scope)
    (params : List (String × ResolvedType)) (ty : SourceType) :
    t.resolveIn (steps + 1) scope params ty =
      resolveType (t.typeContext steps scope params) ty := by
  rw [resolveIn]
  rfl

/-- A type that is named by the path of an alias is its target with the arguments. -/
theorem resolveIn_alias {t : SymbolTable} {steps : Nat} {scope : Scope} {p : SourcePath}
    {path : String} (hpath : t.canonical (steps + 1) scope false p.namePath = some path) {a : Alias}
    (halias : t.alias? path = some a) :
    t.resolveIn (steps + 1) scope [] (.path p) =
      (resolveLast (t.typeContext steps scope []) p).bind fun args =>
        (a.bind? args).bind fun params => t.resolveIn steps a.scope params a.target := by
  -- The path names the alias, so naming it means resolving the target with bound parameters.
  have hnamed : (t.typeContext steps scope []).named path = fun args =>
      (a.bind? args).bind fun params => t.resolveIn steps a.scope params a.target := by
    funext args
    simp only [TypeContext.named, typeContext, halias]
    rfl
  rw [resolveIn_succ, resolveType_path _ rfl, ← hnamed]
  show (t.canonical (steps + 1) scope false p.namePath).bind _ = _
  rw [hpath]
  rfl

end SymbolTable

/-- Types that are resolved one by one are resolved as arguments. -/
theorem resolveArgs_types {c : TypeContext} {types : List SourceType} {us : List ResolvedType}
    (h : List.Forall₂ (fun ty u => resolveType c ty = some u) types us) :
    resolveArgs c (types.map .type) = some (us.map .type) := by
  induction h with
  | nil => rfl
  | cons hty _ ih => rw [List.map_cons, resolveArgs_cons, ih, resolveArg, hty]; rfl

theorem Alias.bind?_types (a : Alias) {us : List ResolvedType} (h : us.length = a.params.length) :
    a.bind? (us.map .type) = some (a.params.zip us) := by
  have htypes : (us.map GenericArg.type).filterMap GenericArg.type? = us := by
    rw [List.filterMap_map]
    exact List.filterMap_some
  rw [bind?, htypes, if_pos h]

theorem Alias.eq_zip_of_bind? {a : Alias} {args : List GenericArg}
    {params : List (String × ResolvedType)} (h : a.bind? args = some params) :
    a.params.zip (args.filterMap GenericArg.type?) = params := by
  unfold bind? at h
  extract_lets types at h
  split at h
  · exact Option.some.inj h
  · cases h

/-- What stands for a name among parameters, for two lists of what stands for them. -/
theorem lookupLast_zip {α β : Type} {R : α → β → Prop} {xs : List α} {ys : List β}
    (h : List.Forall₂ R xs ys) (names : List String) (name : String) :
    (lookupLast name (names.zip ys) = none ∧ lookupLast name (names.zip xs) = none) ∨
      ∃ x y, lookupLast name (names.zip xs) = some x ∧ R x y ∧
        lookupLast name (names.zip ys) = some y := by
  -- Induction on the arguments; of two parameters with one name the later one counts.
  induction h generalizing names with
  | nil => exact Or.inl ⟨by simp [lookupLast], by simp [lookupLast]⟩
  | @cons x y xs ys hxy _ ih =>
    cases names with
    | nil => exact Or.inl ⟨by simp [lookupLast], by simp [lookupLast]⟩
    | cons n names =>
      rw [List.zip_cons_cons, List.zip_cons_cons, lookupLast_cons, lookupLast_cons]
      rcases ih names with ⟨hys, hxs⟩ | ⟨x', y', hx, hR, hy⟩
      · rw [hys, hxs, Option.none_or, Option.none_or]
        by_cases hname : name = n
        · exact Or.inr ⟨x, y, by simp [hname], hxy, by simp [hname]⟩
        · have hne : (name == n) = false := beq_eq_false_iff_ne.mpr hname
          exact Or.inl ⟨by simp [List.lookup_cons, hne], by simp [List.lookup_cons, hne]⟩
      · rw [hx, hy, Option.some_or, Option.some_or]
        exact Or.inr ⟨x', y', rfl, hR, rfl⟩

/-- In place of resolved types for parameters, the types can be put in the place of the
parameters. -/
theorem resolveIn_instantiate {t : SymbolTable} {steps : Nat} {scope : Scope}
    {types : List SourceType} {us : List ResolvedType}
    (h : List.Forall₂ (fun ty u => t.resolveIn steps scope [] ty = some u) types us)
    (names : List String) (target : SourceType) :
    t.resolveIn steps scope (names.zip us) target =
      t.resolveIn steps scope []
        (target.instantiate fun name => lookupLast name (names.zip types)) := by
  cases steps with
  | zero => rfl
  | succ steps =>
    rw [SymbolTable.resolveIn_succ, SymbolTable.resolveIn_succ]
    -- The bound types and the inserted ones resolve alike in the scope of the use.
    have hcontexts : (t.typeContext steps scope (names.zip us)).Instantiates
        (t.typeContext steps scope []) fun name => lookupLast name (names.zip types) := by
      refine ⟨fun _ => rfl, fun _ _ => rfl, rfl, fun name => ?_⟩
      exact (lookupLast_zip h names name).imp_right fun ⟨ty, u, hty, hu, hbound⟩ =>
        ⟨ty, u, hty, (t.resolveIn_succ steps scope [] ty).symm.trans hu, hbound⟩
    exact resolveType_instantiate hcontexts target

/-! ## Aliases that are declared once -/

/-- The module `s` is a single block of the file, and this declares one alias of the name `i`. -/
def SoleAlias (root : Scope) (items : List Item) (s : Scope) (i : Ident)
    (params : List GenericParam) (target : SourceType) : Prop :=
  ∃ block, (blocks root items).filter (fun b => b.1 = s) = [(s, block)] ∧
    block.filter (fun item => aliasName? item = some i.name) = [.typeAlias i params target]

/-- The last entry for a key counts, which is the only one. -/
theorem lookupLast_of_unique {α β : Type} [BEq α] [LawfulBEq α] {entries : List (α × β)} {key : α}
    {b : β} (hmem : (key, b) ∈ entries) (h : ∀ b', (key, b') ∈ entries → b' = b) :
    lookupLast key entries = some b := by
  obtain ⟨b', hlast⟩ := Option.isSome_iff_exists.mp (isSome_lookupLast hmem)
  rw [hlast, h b' (mem_of_lookupLast hlast)]

/-- The table has the names of a module that is a single block. -/
theorem module?_of_sole_block {root s : Scope} {items block : List Item}
    (h : (blocks root items).filter (fun b => b.1 = s) = [(s, block)]) :
    (SymbolTable.ofItems root items).module? s = some (.ofItems block) := by
  have hmem : (s, block) ∈ blocks root items :=
    (List.mem_filter.mp (h ▸ List.mem_singleton_self _)).1
  refine lookupLast_of_unique (SymbolTable.mem_modules_ofItems.mpr ⟨block, hmem, rfl⟩) ?_
  intro m hm
  obtain ⟨other, hother, rfl⟩ := SymbolTable.mem_modules_ofItems.mp hm
  have hsame : (s, other) ∈ [(s, block)] := by
    rw [← h]
    exact List.mem_filter.mpr ⟨hother, by simp⟩
  cases List.mem_singleton.mp hsame
  rfl

namespace SoleAlias

variable {root s : Scope} {items : List Item} {i : Ident} {params : List GenericParam}
  {target : SourceType}

/-- The name of the alias stands for it in its module. -/
theorem canonical (h : SoleAlias root items s i params target) (hi : i.name ∉ pathWords)
    (steps : Nat) :
    (SymbolTable.ofItems root items).canonical (steps + 1) s false ⟨false, [i.name]⟩ =
      some (s.join i.name) := by
  obtain ⟨block, hblock, halias⟩ := h
  have hmodule := module?_of_sole_block hblock
  -- The alias is among the types its module declares.
  have hdeclares : (ModuleSymbols.ofItems block).declares i.name = true := by
    have hitem : .typeAlias i params target ∈ block :=
      (List.mem_filter.mp (halias ▸ List.mem_singleton_self _)).1
    rw [ModuleSymbols.declares, Bool.or_eq_true, List.contains_iff_mem]
    exact Or.inl (List.mem_filterMap.mpr ⟨_, hitem, rfl⟩)
  have hlookup := SymbolTable.lookup_declared hmodule hdeclares steps
  rw [SymbolTable.canonical, if_neg (Nat.succ_ne_zero _), canonicalWith_found hi hlookup,
    extend_nil, definingPath_join]

/-- The path of the alias stands for it in the whole file. -/
theorem alias? (h : SoleAlias root items s i params target)
    (hcolons : ∀ b ∈ blocks root items, ColonFree b.2) :
    (SymbolTable.ofItems root items).alias? (s.join i.name) =
      some ⟨typeParams params, target, s⟩ := by
  obtain ⟨block, hblock, halias⟩ := h
  have hmem : (s, block) ∈ blocks root items :=
    (List.mem_filter.mp (hblock ▸ List.mem_singleton_self _)).1
  have hitem : .typeAlias i params target ∈ block :=
    (List.mem_filter.mp (halias ▸ List.mem_singleton_self _)).1
  have hcolon : ∀ b ∈ blocks root items, ∀ item ∈ b.2, ∀ name, aliasName? item = some name →
      ':' ∉ name.toList := fun b hb item hitem name hname =>
    (hcolons b hb).aliases name (List.mem_filterMap.mpr ⟨item, hitem, hname⟩)
  refine lookupLast_of_unique (SymbolTable.mem_aliases_ofItems.mpr
    ⟨(s, block), hmem, List.mem_filterMap.mpr ⟨_, hitem, rfl⟩⟩) ?_
  intro a ha
  obtain ⟨⟨s', other⟩, hother, hentry⟩ := SymbolTable.mem_aliases_ofItems.mp ha
  obtain ⟨item, hin, hentry⟩ := List.mem_filterMap.mp hentry
  obtain ⟨name, hname, hjoin⟩ := aliasName?_of_aliasOf? hentry
  -- An alias with this path is in the same module and has the same name.
  obtain ⟨rfl, rfl⟩ := join_inj_of_mem_blocks hcolons hmem hother (hcolon _ hmem _ hitem _ rfl)
    (hcolon _ hother _ hin _ hname) hjoin
  have hsame : (s, other) ∈ [(s, block)] := by
    rw [← hblock]
    exact List.mem_filter.mpr ⟨hother, by simp⟩
  cases List.mem_singleton.mp hsame
  have honly : item ∈ [.typeAlias i params target] := by
    rw [← halias]
    exact List.mem_filter.mpr ⟨hin, by simpa using hname⟩
  cases List.mem_singleton.mp honly
  cases hentry
  rfl

end SoleAlias

/-! ## Transparency -/

theorem typeParams_map_type {params : List Ident} (h : ∀ x ∈ params, x.raw = false) :
    typeParams (params.map .type) = params.map Ident.name := by
  have htexts : typeParams (params.map .type) = params.map Ident.text := by
    rw [typeParams, List.filterMap_map, ← List.filterMap_eq_map]
    rfl
  rw [htexts]
  refine List.map_congr_left fun x hx => ?_
  rw [Ident.text, h x hx]
  simp

/-- Types that are resolved alike in two numbers of steps have resolved types in both. -/
theorem exists_resolved {t : SymbolTable} {scope : Scope} {m n : Nat} {types : List SourceType}
    (h : ∀ ty ∈ types, ∃ u, t.resolveIn m scope [] ty = some u ∧
      t.resolveIn n scope [] ty = some u) :
    ∃ us, List.Forall₂ (fun ty u => t.resolveIn m scope [] ty = some u) types us ∧
      List.Forall₂ (fun ty u => t.resolveIn n scope [] ty = some u) types us := by
  induction types with
  | nil => exact ⟨[], .nil, .nil⟩
  | cons ty types ih =>
    obtain ⟨⟨u, hm, hn⟩, htypes⟩ := List.forall_mem_cons.mp h
    obtain ⟨us, hms, hns⟩ := ih htypes
    exact ⟨u :: us, .cons hm hms, .cons hn hns⟩

/-- A use of an alias is resolved like its target with the written arguments in place of the
parameters, with one step less, whether this gives a type or none. The alias is the only one of its
name in its module, which is a single block; it has any number of parameters, all of them types; and
the arguments are resolved to the same types in both numbers of steps. The path of the alias is told
from others by its names, which are identifiers: they have no colon, and the name of the alias does
not say where a path starts. -/
theorem alias_transparent {root s : Scope} {items : List Item}
    (hcolons : ∀ b ∈ blocks root items, ColonFree b.2) {i : Ident} (hi : i.name ∉ pathWords)
    {params : List Ident} (hplain : ∀ x ∈ params, x.raw = false) {target : SourceType}
    (hsole : SoleAlias root items s i (params.map .type) target) (steps : Nat)
    {types : List SourceType} (hlength : types.length = params.length)
    (hstable : ∀ ty ∈ types, ∃ u,
      (SymbolTable.ofItems root items).resolveIn (steps + 1) s [] ty = some u ∧
      (SymbolTable.ofItems root items).resolveIn steps s [] ty = some u)
    {use : Ident} (huse : use.name = i.name) {arguments : PathArguments}
    (hgiven : arguments.given? = some (types.map .type)) :
    let t := SymbolTable.ofItems root items
    t.resolveIn (steps + 1) s [] (.path (.mk false [.mk use arguments])) =
      t.resolveIn steps s []
        (target.instantiate fun name => lookupLast name ((params.map Ident.name).zip types)) := by
  intro t
  obtain ⟨us, hnow, hnext⟩ := exists_resolved hstable
  have hpath : t.canonical (steps + 1) s false
      (SourcePath.mk false [.mk use arguments]).namePath = some (s.join i.name) := by
    rw [← hsole.canonical hi steps, ← huse]
    rfl
  have hargs : resolveLast (t.typeContext steps s []) (.mk false [.mk use arguments]) =
      some (us.map .type) := by
    rw [resolveLast, resolveLastOf, resolveArguments_of_given? _ hgiven]
    exact resolveArgs_types (hnow.imp fun ty u h => (t.resolveIn_succ steps s [] ty).symm.trans h)
  -- with as many arguments as parameters, each parameter is bound to its argument
  have hbind : Alias.bind? ⟨typeParams (params.map .type), target, s⟩ (us.map .type) =
      some ((params.map Ident.name).zip us) := by
    rw [Alias.bind?_types, typeParams_map_type hplain]
    rw [typeParams_map_type hplain, List.length_map, ← hlength, hnow.length_eq]
  rw [SymbolTable.resolveIn_alias hpath (hsole.alias? hcolons), hargs, Option.bind_some, hbind,
    Option.bind_some]
  exact resolveIn_instantiate hnext (params.map Ident.name) target

/-- The type `Box<dyn Fn(K) -> Twice<V>>`. -/
def tableType (key value : SourceType) : SourceType :=
  namedType false ["Box"] [.traitObject true [.trait false false []
    (.mk false [.mk (.plain "Fn") (.call [key] false
      (some (namedType false ["Twice"] [value])))])] false]

/-- The items `type Table<K, V> = Box<dyn Fn(K) -> Twice<V>>;` and
`type Twice<T> = (T, Option<T>);`. -/
def tableItems : List Item :=
  let element := namedType false ["T"] []
  [.typeAlias (.plain "Table") [.type (.plain "K"), .type (.plain "V")]
     (tableType (namedType false ["K"] []) (namedType false ["V"] [])),
   .typeAlias (.plain "Twice") [.type (.plain "T")]
     (.tuple [element, namedType false ["Option"] [element]] false)]

theorem alias_transparent_table :
    let t := SymbolTable.ofItems .root tableItems
    let byte := namedType false ["u8"] []
    let text := namedType false ["String"] []
    (∀ b ∈ blocks .root tableItems, ColonFree b.2) ∧
      SoleAlias .root tableItems .root (.plain "Table") ([.plain "K", .plain "V"].map .type)
        (tableType (namedType false ["K"] []) (namedType false ["V"] [])) ∧
      t.resolveIn 33 .root [] (namedType false ["Table"] [byte, text]) =
        t.resolveIn 32 .root [] (tableType byte text) ∧
      (t.resolveIn 32 .root [] (tableType byte text)).map ResolvedType.text =
        some ("::std::boxed::Box<dyn ::core::ops::Fn(u8) -> " ++
          "(::std::string::String, ::core::option::Option<::std::string::String>)>") := by
  intro t byte text
  have hcolons : ∀ b ∈ blocks .root tableItems, ColonFree b.2 := by decide +kernel
  have hsole : SoleAlias .root tableItems .root (.plain "Table")
      ([.plain "K", .plain "V"].map .type)
      (tableType (namedType false ["K"] []) (namedType false ["V"] [])) := ⟨tableItems, rfl, rfl⟩
  -- Both arguments are settled after a step, so one more step does not change them.
  have hstable : ∀ ty ∈ [byte, text], ∃ u,
      t.resolveIn 33 .root [] ty = some u ∧ t.resolveIn 32 .root [] ty = some u := by
    simp only [List.forall_mem_cons]
    exact ⟨⟨.path "u8" [] .value, rfl, rfl⟩,
      ⟨.path "::std::string::String" [] .reference, rfl, rfl⟩, by simp⟩
  exact ⟨hcolons, hsole, alias_transparent hcolons (by decide) (by decide) hsole 32 rfl hstable rfl
    rfl, by decide +kernel⟩

end Memberwise
