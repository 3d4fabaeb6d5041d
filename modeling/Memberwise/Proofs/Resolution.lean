import Memberwise.Proofs.TypeInduction
import Memberwise.Symbols.Resolve
import Mathlib.Data.List.Forall2

/-!
# Memberwise.Proofs.Resolution — what the resolution of a type depends on, and what it gives

A type that is resolved is resolved part by part. For each form of type, argument and bound, one
lemma says what the parts are resolved to and how the result is put together
(`resolveType_reference_iff` and so on).

A type is resolved against a context, of which it asks only for parameters, for the canonical forms
of the paths in the type (`SourceType.paths`), and for what types of these names stand for. No
answer counts by being missing: a context that gives more answers resolves more types, and those of
the first context to the same forms (`resolveType_mono_on`). So two contexts that give the same
answers for the paths of a type resolve it alike (`resolveType_congr_on`). An alias that the context
does not know is never expanded, and so the contexts may disagree on it.
-/

namespace Memberwise

open Source

/-! ## The paths of a type -/

namespace Source

mutual

/-- The paths by which a type is resolved: the type itself if it is named, its parts and arguments.
What is only printed, such as the length of an array, has none. -/
def SourceType.paths : SourceType → List SourcePath
  | .paren inner => inner.paths
  | .path p => p.paths
  | .reference _ _ target => target.paths
  | .pointer _ target => target.paths
  | .traitObject _ bounds _ => boundPaths bounds
  | .tuple elems _ => typePaths elems
  | .array elem _ => elem.paths
  | .slice elem => elem.paths
  | .function _ => []
  | .never => []
  | .other _ => []

/-- The paths of a list of types. -/
def typePaths : List SourceType → List SourcePath
  | [] => []
  | t :: ts => t.paths ++ typePaths ts

/-- A path and those in its arguments. -/
def SourcePath.paths : SourcePath → List SourcePath
  | .mk absolute segments => .mk absolute segments :: segmentPaths segments

/-- The paths in the arguments of segments. -/
def segmentPaths : List PathSegment → List SourcePath
  | [] => []
  | .mk _ arguments :: rest => arguments.paths ++ segmentPaths rest

/-- The paths in the arguments of a segment. -/
def PathArguments.paths : PathArguments → List SourcePath
  | .none => []
  | .angle _ args _ => argumentPaths args
  | .call inputs _ none => typePaths inputs
  | .call inputs _ (some output) => typePaths inputs ++ output.paths

/-- The paths in arguments in angle brackets. -/
def argumentPaths : List GenericArgument → List SourcePath
  | [] => []
  | a :: as => a.paths ++ argumentPaths as

/-- The paths in an argument in angle brackets. -/
def GenericArgument.paths : GenericArgument → List SourcePath
  | .type t => t.paths
  | .binding _ _ t => t.paths
  | .lifetime _ => []
  | .const _ => []
  | .other _ => []

/-- The paths in bounds. -/
def boundPaths : List TypeBound → List SourcePath
  | [] => []
  | b :: bs => b.paths ++ boundPaths bs

/-- The paths in a bound. -/
def TypeBound.paths : TypeBound → List SourcePath
  | .trait _ _ _ p => p.paths
  | .lifetime _ => []
  | .other _ => []

end

end Source

/-! ## Lists element by element -/

section

variable {α β γ : Type} {R S : α → β → Prop} {P : α → Prop} {l : List α} {m : List β}

/-- Related lists are related in a second way if their elements are that are in the first one. -/
theorem forall₂_of_mem (hl : ∀ a ∈ l, ∀ b, R a b → S a b) (h : List.Forall₂ R l m) :
    List.Forall₂ S l m :=
  ((List.forall₂_and_left l m).mpr ⟨hl, h⟩).imp fun _ b hab => hab.1 b hab.2

/-- What holds of related elements under a condition holds where the first list meets it. -/
theorem forall₂_mp_mem (h : List.Forall₂ (fun a b => P a → R a b) l m) (hl : ∀ a ∈ l, P a) :
    List.Forall₂ R l m :=
  ((List.forall₂_and_left l m).mpr ⟨hl, h⟩).imp fun _ _ hab => hab.2 hab.1

/-- What holds of the second of all pairs holds of the second list. -/
theorem forall_mem_of_forall₂ {Q : β → Prop} (h : List.Forall₂ (fun _ b => Q b) l m) :
    ∀ b ∈ m, Q b := by
  induction h with
  | nil => exact List.forall_mem_nil _
  | cons hb _ ih => exact List.forall_mem_cons.mpr ⟨hb, ih⟩

/-- Elements that each have a preimage with a property form the image of a list that has it. -/
theorem exists_forall₂_of_forall_mem {P : α → Prop} (h : ∀ b ∈ m, ∃ a, R a b ∧ P a) :
    ∃ l, List.Forall₂ R l m ∧ ∀ a ∈ l, P a := by
  induction m with
  | nil => exact ⟨[], .nil, List.forall_mem_nil _⟩
  | cons b m ih =>
    obtain ⟨⟨a, hab, ha⟩, hm⟩ := List.forall_mem_cons.mp h
    obtain ⟨l, hl, hall⟩ := ih hm
    exact ⟨a :: l, .cons hab hl, List.forall_mem_cons.mpr ⟨ha, hall⟩⟩

/-- A list is mapped with success exactly if each element is. -/
theorem mapM_eq_some_iff {f : α → Option β} :
    l.mapM f = some m ↔ List.Forall₂ (fun a b => f a = some b) l m := by
  induction l generalizing m with
  | nil => simp [eq_comm]
  | cons a l ih =>
    simp [List.mapM_cons, List.forall₂_cons_left_iff, Option.bind_eq_some_iff, ih, @eq_comm _ m]

/-- Two ways to map agree on a list and its image if they agree element by element. -/
theorem mapM_eq_mapM_map {f : α → Option γ} {g : β → Option γ} {h : α → β}
    (hl : ∀ a ∈ l, f a = g (h a)) : l.mapM f = (l.map h).mapM g := by
  induction l with
  | nil => rfl
  | cons a l ih =>
    obtain ⟨ha, hl⟩ := List.forall_mem_cons.mp hl
    rw [List.mapM_cons, List.map_cons, List.mapM_cons, ha, ih hl]

end

/-! ## Contexts -/

namespace TypeContext

/-- Contexts that cannot be told apart by resolving types whose paths satisfy `P`. -/
structure AgreeOn (P : SourcePath → Prop) (c d : TypeContext) : Prop where
  canonical : ∀ p, P p → c.canonical p.namePath = d.canonical p.namePath
  params : c.params = d.params
  named : ∀ p, P p → ∀ path, c.canonical p.namePath = some path →
    ∀ args, c.named path args = d.named path args

/-- Contexts that cannot be told apart by resolving types. -/
structure Agree (c d : TypeContext) : Prop where
  canonical : ∀ p, c.canonical p = d.canonical p
  params : c.params = d.params
  named : ∀ path args, c.named path args = d.named path args

variable {P : SourcePath → Prop} {c d : TypeContext}

/-- Contexts with the same aliases name the same types if they expand those aliases alike. -/
theorem named_congr (halias : c.alias? = d.alias?)
    (hexpand : ∀ path a, c.alias? path = some a → ∀ args, c.expand a args = d.expand a args)
    (path : String) (args : List GenericArg) : c.named path args = d.named path args := by
  unfold named
  rw [← halias]
  cases h : c.alias? path with
  | none => rfl
  | some a => exact hexpand path a h args

/-- Contexts that agree do so on any paths. -/
theorem Agree.on (h : c.Agree d) (P : SourcePath → Prop) : c.AgreeOn P d :=
  ⟨fun p _ => h.canonical p.namePath, h.params, fun _ _ path _ args => h.named path args⟩

/-- Agreement has no direction. -/
theorem AgreeOn.symm (h : c.AgreeOn P d) : d.AgreeOn P c := by
  refine ⟨fun p hp => (h.canonical p hp).symm, h.params.symm, ?_⟩
  intro p hp path hpath args
  exact (h.named p hp path ((h.canonical p hp).trans hpath) args).symm

/-- A context that gives every answer that another one gives for paths that satisfy `P`, and perhaps
more. -/
structure BelowOn (P : SourcePath → Prop) (c d : TypeContext) : Prop where
  canonical : ∀ p, P p → ∀ path, c.canonical p.namePath = some path →
    d.canonical p.namePath = some path
  params : c.params = d.params
  named : ∀ p, P p → ∀ path, c.canonical p.namePath = some path →
    ∀ args t, c.named path args = some t → d.named path args = some t

/-- A context that gives every answer that another one gives, and perhaps more. -/
structure Below (c d : TypeContext) : Prop where
  canonical : ∀ p path, c.canonical p = some path → d.canonical p = some path
  params : c.params = d.params
  named : ∀ path args t, c.named path args = some t → d.named path args = some t

/-- Where contexts agree, each of them gives what the other one gives. -/
theorem AgreeOn.below (h : c.AgreeOn P d) : c.BelowOn P d := by
  refine ⟨fun p hp path hpath => (h.canonical p hp).symm.trans hpath, h.params, ?_⟩
  intro p hp path hpath args t ht
  exact (h.named p hp path hpath args).symm.trans ht

/-- What is given everywhere is given on any paths. -/
theorem Below.on (h : c.Below d) (P : SourcePath → Prop) : c.BelowOn P d :=
  ⟨fun p _ => h.canonical p.namePath, h.params, fun _ _ path _ => h.named path⟩

/-- Contexts of which one gives what the other one gives have the same parameters. -/
theorem BelowOn.param? (h : c.BelowOn P d) (p : SourcePath) : c.param? p = d.param? p := by
  unfold TypeContext.param?
  rw [h.params]

end TypeContext

/-! ## What types are resolved to -/

section

variable (c : TypeContext)

/-- Resolves an argument. -/
def resolveArg : GenericArgument → Option GenericArg
  | .type t => (resolveType c t).map .type
  | .lifetime i => some (.lifetime ("'" ++ i.text))
  | .const tokens => some (.const (TokenTree.textAll tokens))
  | .binding i _ t => (resolveType c t).map (.binding i.text)
  | .other _ => none

/-- The first argument is resolved before the others. -/
theorem resolveArgs_cons (a : GenericArgument) (rest : List GenericArgument) :
    resolveArgs c (a :: rest) = do return (← resolveArg c a) :: (← resolveArgs c rest) := by
  cases a with
  | type t => simp only [resolveArgs, resolveArg]; cases resolveType c t <;> rfl
  | binding i own t => simp only [resolveArgs, resolveArg]; cases resolveType c t <;> rfl
  | _ => rfl

/-- Resolves a bound. -/
def resolveBound : TypeBound → Option String
  | .lifetime i => some ("'" ++ i.text)
  | .trait _ maybe _ p => do
    let path ← c.canonical p.namePath
    let suffix ← suffixOf c p
    return (if maybe then "?" else "") ++ path ++ suffix
  | .other _ => none

/-- The first bound is resolved before the others. -/
theorem resolveBounds_cons (b : TypeBound) (rest : List TypeBound) :
    resolveBounds c (b :: rest) = do return (← resolveBound c b) :: (← resolveBounds c rest) := by
  cases b with
  | trait parenthesized maybe binder p =>
    simp only [resolveBounds, resolveBound]
    cases c.canonical p.namePath with
    | none => rfl
    | some path => cases suffixOf c p <;> rfl
  | _ => rfl

/-- Without parameters no path stands for one. -/
theorem param?_of_nil (hparams : c.params = []) (p : SourcePath) : c.param? p = none := by
  rw [TypeContext.param?, hparams]
  cases bareName? p <;> rfl

/-- Without parameters, a path is looked up. -/
theorem resolveType_path (hparams : c.params = []) (p : SourcePath) :
    resolveType c (.path p) =
      (c.canonical p.namePath).bind fun path => (resolveLast c p).bind (c.named path) := by
  rw [resolveType, param?_of_nil c hparams]
  rfl

end

section

variable {c : TypeContext} {t : ResolvedType}

attribute [local simp] resolveType resolveTypes traitSuffix Option.bind_eq_some_iff

/-- A reference is resolved exactly if its target is; its lifetime stays. -/
theorem resolveType_reference_iff {lifetime : Option Ident} {mutable : Bool} {target : SourceType} :
    resolveType c (.reference lifetime mutable target) = some t ↔
      ∃ u, resolveType c target = some u ∧
        .reference (lifetime.map fun i => "'" ++ i.text) mutable u = t := by
  simp

/-- A pointer is resolved exactly if its target is. -/
theorem resolveType_pointer_iff {mutable : Bool} {target : SourceType} :
    resolveType c (.pointer mutable target) = some t ↔
      ∃ u, resolveType c target = some u ∧ .pointer mutable u = t := by
  simp

/-- A trait object is resolved exactly if its bounds are. -/
theorem resolveType_traitObject_iff {marked trailing : Bool} {bounds : List TypeBound} :
    resolveType c (.traitObject marked bounds trailing) = some t ↔
      ∃ bs, resolveBounds c bounds = some bs ∧ .traitObject bs = t := by
  simp

/-- A tuple is resolved exactly if its elements are. -/
theorem resolveType_tuple_iff {elems : List SourceType} {trailing : Bool} :
    resolveType c (.tuple elems trailing) = some t ↔
      ∃ ts, resolveTypes c elems = some ts ∧ .tuple ts = t := by
  simp

/-- An array is resolved exactly if its elements are; the text of its length stays. -/
theorem resolveType_array_iff {elem : SourceType} {length : List TokenTree} :
    resolveType c (.array elem length) = some t ↔
      ∃ u, resolveType c elem = some u ∧ .array u (TokenTree.textAll length) = t := by
  simp

/-- A slice is resolved exactly if its elements are. -/
theorem resolveType_slice_iff {elem : SourceType} :
    resolveType c (.slice elem) = some t ↔ ∃ u, resolveType c elem = some u ∧ .slice u = t := by
  simp

/-- Types are resolved one by one. -/
theorem resolveTypes_eq_mapM (ws : List SourceType) :
    resolveTypes c ws = ws.mapM (resolveType c) := by
  induction ws with
  | nil => rfl
  | cons w ws ih => rw [resolveTypes, List.mapM_cons, ih]

/-- Arguments are resolved one by one. -/
theorem resolveArgs_eq_mapM (ws : List GenericArgument) :
    resolveArgs c ws = ws.mapM (resolveArg c) := by
  induction ws with
  | nil => rfl
  | cons w ws ih => rw [resolveArgs_cons, List.mapM_cons, ih]

/-- Bounds are resolved one by one. -/
theorem resolveBounds_eq_mapM (ws : List TypeBound) :
    resolveBounds c ws = ws.mapM (resolveBound c) := by
  induction ws with
  | nil => rfl
  | cons w ws ih => rw [resolveBounds_cons, List.mapM_cons, ih]

/-- Types are resolved as their images are if each of them is. -/
theorem resolveTypes_map {d : TypeContext} {f : SourceType → SourceType} {ws : List SourceType}
    (h : ∀ w ∈ ws, resolveType c w = resolveType d (f w)) :
    resolveTypes c ws = resolveTypes d (ws.map f) := by
  rw [resolveTypes_eq_mapM, resolveTypes_eq_mapM, mapM_eq_mapM_map h]

/-- Arguments are resolved as their images are if each of them is. -/
theorem resolveArgs_map {d : TypeContext} {f : GenericArgument → GenericArgument}
    {ws : List GenericArgument} (h : ∀ w ∈ ws, resolveArg c w = resolveArg d (f w)) :
    resolveArgs c ws = resolveArgs d (ws.map f) := by
  rw [resolveArgs_eq_mapM, resolveArgs_eq_mapM, mapM_eq_mapM_map h]

/-- Bounds are resolved as their images are if each of them is. -/
theorem resolveBounds_map {d : TypeContext} {f : TypeBound → TypeBound} {ws : List TypeBound}
    (h : ∀ w ∈ ws, resolveBound c w = resolveBound d (f w)) :
    resolveBounds c ws = resolveBounds d (ws.map f) := by
  rw [resolveBounds_eq_mapM, resolveBounds_eq_mapM, mapM_eq_mapM_map h]

/-- Types are resolved exactly if each of them is. -/
theorem resolveTypes_iff {ws : List SourceType} {ts : List ResolvedType} :
    resolveTypes c ws = some ts ↔ List.Forall₂ (fun w t => resolveType c w = some t) ws ts := by
  rw [resolveTypes_eq_mapM, mapM_eq_some_iff]

/-- Arguments are resolved exactly if each of them is. -/
theorem resolveArgs_iff {ws : List GenericArgument} {as : List GenericArg} :
    resolveArgs c ws = some as ↔ List.Forall₂ (fun w a => resolveArg c w = some a) ws as := by
  rw [resolveArgs_eq_mapM, mapM_eq_some_iff]

/-- Bounds are resolved exactly if each of them is. -/
theorem resolveBounds_iff {ws : List TypeBound} {as : List String} :
    resolveBounds c ws = some as ↔ List.Forall₂ (fun w a => resolveBound c w = some a) ws as := by
  rw [resolveBounds_eq_mapM, mapM_eq_some_iff]

/-- A trait is resolved exactly if its path is canonical and the arguments of its last segment are
resolved. -/
theorem resolveBound_trait_iff {parenthesized maybe : Bool} {binder : List TokenTree}
    {absolute : Bool} {segments : List PathSegment} {b : String} :
    resolveBound c (.trait parenthesized maybe binder (.mk absolute segments)) = some b ↔
      ∃ path, c.canonical (SourcePath.mk absolute segments).namePath = some path ∧
        ∃ suffix, suffixOfLast c segments = some suffix ∧
          (if maybe then "?" else "") ++ path ++ suffix = b := by
  simp [resolveBound, suffixOf]

/-- The arguments of a trait are written if each of them is resolved. -/
theorem traitSuffix_angle_iff {turbofish trailing : Bool} {args : List GenericArgument}
    {suffix : String} :
    traitSuffix c (.angle turbofish args trailing) = some suffix ↔
      ∃ as, resolveArgs c args = some as ∧
        "<" ++ ", ".intercalate (argTexts as) ++ ">" = suffix := by
  simp

/-- The inputs of a trait are written if each of them is resolved. -/
theorem traitSuffix_call_iff {inputs : List SourceType} {trailing : Bool} {suffix : String} :
    traitSuffix c (.call inputs trailing none) = some suffix ↔
      ∃ ts, resolveTypes c inputs = some ts ∧
        "(" ++ ", ".intercalate (typeTexts ts) ++ ")" = suffix := by
  simp

/-- The inputs and the output of a trait are written if all of them are resolved. -/
theorem traitSuffix_output_iff {inputs : List SourceType} {trailing : Bool} {output : SourceType}
    {suffix : String} :
    traitSuffix c (.call inputs trailing (some output)) = some suffix ↔
      ∃ ts, resolveTypes c inputs = some ts ∧ ∃ u, resolveType c output = some u ∧
        "(" ++ ", ".intercalate (typeTexts ts) ++ ") -> " ++ u.text = suffix := by
  simp

/-- Resolving keeps the number of types. -/
theorem resolveTypes_length {ws : List SourceType} {ts : List ResolvedType}
    (h : resolveTypes c ws = some ts) : ws.length = ts.length :=
  (resolveTypes_iff.mp h).length_eq

end

/-! ## The last segment of a path -/

section

variable (c : TypeContext) {segments : List PathSegment} {s : PathSegment}

/-- Of a path, the arguments of the last segment are resolved. -/
theorem resolveLastOf_eq (segments : List PathSegment) :
    resolveLastOf c segments = segments.getLast?.bind fun s => resolveArguments c s.arguments := by
  induction segments with
  | nil => rfl
  | cons first rest ih =>
    cases rest with
    | nil =>
      cases first with
      | mk i arguments => rw [resolveLastOf]; rfl
    | cons next rest =>
      rw [resolveLastOf, ih, List.getLast?_cons_cons]
      simp

/-- Of the path of a trait, the arguments of the last segment are written. -/
theorem suffixOfLast_eq (segments : List PathSegment) :
    suffixOfLast c segments = segments.getLast?.bind fun s => traitSuffix c s.arguments := by
  induction segments with
  | nil => rfl
  | cons first rest ih =>
    cases rest with
    | nil =>
      cases first with
      | mk i arguments => rw [suffixOfLast]; rfl
    | cons next rest =>
      rw [suffixOfLast, ih, List.getLast?_cons_cons]
      simp

/-- The arguments that are resolved are those of the last segment. -/
theorem resolveLastOf_of_getLast? (h : segments.getLast? = some s) :
    resolveLastOf c segments = resolveArguments c s.arguments := by
  rw [resolveLastOf_eq, h, Option.bind_some]

/-- The arguments that are written are those of the last segment. -/
theorem suffixOfLast_of_getLast? (h : segments.getLast? = some s) :
    suffixOfLast c segments = traitSuffix c s.arguments := by
  rw [suffixOfLast_eq, h, Option.bind_some]

end

/-- What is resolved of the arguments of a path is resolved of those of its last segment. -/
theorem exists_of_resolveLastOf {c : TypeContext} {segments : List PathSegment}
    {args : List GenericArg} (h : resolveLastOf c segments = some args) :
    ∃ s, segments.getLast? = some s ∧ resolveArguments c s.arguments = some args := by
  rwa [resolveLastOf_eq, Option.bind_eq_some_iff] at h

/-- If arguments were written, there is a last segment. -/
theorem exists_of_suffixOfLast {c : TypeContext} {segments : List PathSegment} {suffix : String}
    (h : suffixOfLast c segments = some suffix) :
    ∃ s, segments.getLast? = some s ∧ traitSuffix c s.arguments = some suffix := by
  rwa [suffixOfLast_eq, Option.bind_eq_some_iff] at h

/-! ## Induction over what is resolved -/

section

variable (c : TypeContext)

/-- The cases of an induction over what a context resolves: `T` relates types to what they are
resolved to, `A` the arguments of a type and `X` those of a trait, `G` single arguments and `B`
bounds. Of a path only the arguments of its last segment are resolved. -/
structure ResolvedCases (T : SourceType → ResolvedType → Prop)
    (A : PathArguments → List GenericArg → Prop) (X : PathArguments → String → Prop)
    (G : GenericArgument → GenericArg → Prop) (B : TypeBound → String → Prop) : Prop where
  paren : ∀ {inner t}, T inner t → T (.paren inner) t
  /-- A bare name that stands for a parameter. -/
  param : ∀ {p t}, c.param? p = some t → T (.path p) t
  path : ∀ {absolute segments s path args t}, c.param? (.mk absolute segments) = none →
    c.canonical (SourcePath.mk absolute segments).namePath = some path →
    segments.getLast? = some s → A s.arguments args → c.named path args = some t →
    T (.path (.mk absolute segments)) t
  reference : ∀ {lifetime mutable target t}, T target t →
    T (.reference lifetime mutable target)
      (.reference (lifetime.map fun i => "'" ++ i.text) mutable t)
  pointer : ∀ {mutable target t}, T target t → T (.pointer mutable target) (.pointer mutable t)
  traitObject : ∀ {marked bounds trailing bs}, List.Forall₂ B bounds bs →
    T (.traitObject marked bounds trailing) (.traitObject bs)
  tuple : ∀ {elems trailing ts}, List.Forall₂ T elems ts → T (.tuple elems trailing) (.tuple ts)
  array : ∀ {elem length t}, T elem t → T (.array elem length) (.array t (TokenTree.textAll length))
  slice : ∀ {elem t}, T elem t → T (.slice elem) (.slice t)
  function : ∀ {tokens}, T (.function tokens) (.verbatim (SourceType.function tokens).written)
  never : T .never (.verbatim "!")
  noArguments : A .none []
  angle : ∀ {turbofish args trailing as}, List.Forall₂ G args as →
    A (.angle turbofish args trailing) as
  noSuffix : X .none ""
  angleSuffix : ∀ {turbofish args trailing as}, List.Forall₂ G args as →
    X (.angle turbofish args trailing) ("<" ++ ", ".intercalate (argTexts as) ++ ">")
  callSuffix : ∀ {inputs trailing ts}, List.Forall₂ T inputs ts →
    X (.call inputs trailing none) ("(" ++ ", ".intercalate (typeTexts ts) ++ ")")
  outputSuffix : ∀ {inputs trailing output ts t}, List.Forall₂ T inputs ts → T output t →
    X (.call inputs trailing (some output))
      ("(" ++ ", ".intercalate (typeTexts ts) ++ ") -> " ++ t.text)
  typeArgument : ∀ {ty t}, T ty t → G (.type ty) (.type t)
  lifetimeArgument : ∀ {i}, G (.lifetime i) (.lifetime ("'" ++ i.text))
  constArgument : ∀ {tokens}, G (.const tokens) (.const (TokenTree.textAll tokens))
  binding : ∀ {i own ty t}, T ty t → G (.binding i own ty) (.binding i.text t)
  lifetimeBound : ∀ {i}, B (.lifetime i) ("'" ++ i.text)
  trait : ∀ {parenthesized maybe binder absolute segments s path suffix},
    c.canonical (SourcePath.mk absolute segments).namePath = some path →
    segments.getLast? = some s → X s.arguments suffix →
    B (.trait parenthesized maybe binder (.mk absolute segments))
      ((if maybe then "?" else "") ++ path ++ suffix)

end

namespace ResolvedCases

variable {c : TypeContext} {T : SourceType → ResolvedType → Prop}
  {A : PathArguments → List GenericArg → Prop} {X : PathArguments → String → Prop}
  {G : GenericArgument → GenericArg → Prop} {B : TypeBound → String → Prop}

/-- The same as cases of an induction over types: for each form, what it can be resolved to. -/
theorem typeCases (h : ResolvedCases c T A X G B) :
    TypeCases (fun ty => ∀ t, resolveType c ty = some t → T ty t)
      (fun a => (∀ args, resolveArguments c a = some args → A a args) ∧
        ∀ suffix, traitSuffix c a = some suffix → X a suffix)
      (fun a => ∀ b, resolveArg c a = some b → G a b)
      (fun b => ∀ text, resolveBound c b = some text → B b text) where
  path absolute segments ih t ht := by
    rw [resolveType] at ht
    -- A parameter stands for its argument; otherwise the path is looked up and named.
    cases hparam : c.param? (.mk absolute segments) with
    | some u =>
      rw [hparam] at ht
      cases ht
      exact h.param hparam
    | none =>
      rw [hparam] at ht
      obtain ⟨path, hpath, hargs⟩ := Option.bind_eq_some_iff.mp ht
      obtain ⟨args, hargs, hnamed⟩ := Option.bind_eq_some_iff.mp hargs
      obtain ⟨s, hs, hargs⟩ := exists_of_resolveLastOf hargs
      exact h.path hparam hpath hs ((ih s (List.mem_of_getLast? hs)).1 args hargs) hnamed
  reference lifetime mutable target ih t ht := by
    obtain ⟨u, hu, rfl⟩ := resolveType_reference_iff.mp ht
    exact h.reference (ih u hu)
  pointer mutable target ih t ht := by
    obtain ⟨u, hu, rfl⟩ := resolveType_pointer_iff.mp ht
    exact h.pointer (ih u hu)
  traitObject marked bounds trailing ih t ht := by
    obtain ⟨bs, hbs, rfl⟩ := resolveType_traitObject_iff.mp ht
    exact h.traitObject (forall₂_of_mem ih (resolveBounds_iff.mp hbs))
  tuple elems trailing ih t ht := by
    obtain ⟨ts, hts, rfl⟩ := resolveType_tuple_iff.mp ht
    exact h.tuple (forall₂_of_mem ih (resolveTypes_iff.mp hts))
  array elem length ih t ht := by
    obtain ⟨u, hu, rfl⟩ := resolveType_array_iff.mp ht
    exact h.array (ih u hu)
  slice elem ih t ht := by
    obtain ⟨u, hu, rfl⟩ := resolveType_slice_iff.mp ht
    exact h.slice (ih u hu)
  paren inner ih t ht := h.paren (ih t (by rwa [resolveType] at ht))
  function tokens t ht := by
    rw [resolveType] at ht
    cases ht
    exact h.function
  never t ht := by
    rw [resolveType] at ht
    cases ht
    exact h.never
  other tokens t ht := by
    rw [resolveType] at ht
    cases ht
  -- The same arguments have two readings: of a type, and as the suffix of a bound.
  noArguments := by
    refine ⟨fun args hargs => ?_, fun suffix hsuffix => ?_⟩
    · cases hargs
      exact h.noArguments
    · cases hsuffix
      exact h.noSuffix
  angle turbofish args trailing ih := by
    refine ⟨fun as has => h.angle (forall₂_of_mem ih (resolveArgs_iff.mp has)),
      fun suffix hsuffix => ?_⟩
    obtain ⟨as, has, rfl⟩ := traitSuffix_angle_iff.mp hsuffix
    exact h.angleSuffix (forall₂_of_mem ih (resolveArgs_iff.mp has))
  call inputs trailing output ihinputs ihoutput := by
    -- A parenthesised list has no reading as arguments of a type.
    refine ⟨nofun, fun suffix hsuffix => ?_⟩
    cases output with
    | none =>
      obtain ⟨ts, hts, rfl⟩ := traitSuffix_call_iff.mp hsuffix
      exact h.callSuffix (forall₂_of_mem ihinputs (resolveTypes_iff.mp hts))
    | some output =>
      obtain ⟨ts, hts, u, hu, rfl⟩ := traitSuffix_output_iff.mp hsuffix
      exact h.outputSuffix (forall₂_of_mem ihinputs (resolveTypes_iff.mp hts))
        (ihoutput output rfl u hu)
  typeArgument t ih b hb := by
    obtain ⟨u, hu, rfl⟩ := Option.map_eq_some_iff.mp hb
    exact h.typeArgument (ih u hu)
  lifetimeArgument i b hb := by
    cases hb
    exact h.lifetimeArgument
  constArgument tokens b hb := by
    cases hb
    exact h.constArgument
  binding i own t _ ih b hb := by
    obtain ⟨u, hu, rfl⟩ := Option.map_eq_some_iff.mp hb
    exact h.binding (ih u hu)
  otherArgument tokens b hb := nomatch hb
  lifetimeBound i text htext := by
    cases htext
    exact h.lifetimeBound
  trait parenthesized maybe binder absolute segments ih text htext := by
    obtain ⟨path, hpath, suffix, hsuffix, rfl⟩ := resolveBound_trait_iff.mp htext
    obtain ⟨s, hs, hsuffix⟩ := exists_of_suffixOfLast hsuffix
    exact h.trait hpath hs ((ih s (List.mem_of_getLast? hs)).2 suffix hsuffix)
  otherBound tokens text htext := nomatch htext

/-- Induction over a type that is resolved. -/
theorem type (h : ResolvedCases c T A X G B) {ty : SourceType} {t : ResolvedType}
    (ht : resolveType c ty = some t) : T ty t := h.typeCases.type ty t ht

end ResolvedCases

/-! ## What a resolution depends on -/

section

variable {P : SourcePath → Prop} {c d : TypeContext}

/-- The paths of types are those of each of them. -/
theorem forall_mem_typePaths {ts : List SourceType} :
    (∀ p ∈ typePaths ts, P p) ↔ ∀ t ∈ ts, ∀ p ∈ t.paths, P p := by
  induction ts with
  | nil => simp [typePaths]
  | cons t ts ih => rw [typePaths, List.forall_mem_append, ih, List.forall_mem_cons]

/-- The paths of segments are those of the arguments of each of them. -/
theorem forall_mem_segmentPaths {segments : List PathSegment} :
    (∀ p ∈ segmentPaths segments, P p) ↔ ∀ s ∈ segments, ∀ p ∈ s.arguments.paths, P p := by
  induction segments with
  | nil => simp [segmentPaths]
  | cons s rest ih =>
    cases s with
    | mk name arguments =>
      rw [segmentPaths, List.forall_mem_append, ih, List.forall_mem_cons, PathSegment.arguments]

/-- The paths of arguments are those of each of them. -/
theorem forall_mem_argumentPaths {args : List GenericArgument} :
    (∀ p ∈ argumentPaths args, P p) ↔ ∀ a ∈ args, ∀ p ∈ a.paths, P p := by
  induction args with
  | nil => simp [argumentPaths]
  | cons a args ih => rw [argumentPaths, List.forall_mem_append, ih, List.forall_mem_cons]

/-- The paths of bounds are those of each of them. -/
theorem forall_mem_boundPaths {bounds : List TypeBound} :
    (∀ p ∈ boundPaths bounds, P p) ↔ ∀ b ∈ bounds, ∀ p ∈ b.paths, P p := by
  induction bounds with
  | nil => simp [boundPaths]
  | cons b bounds ih => rw [boundPaths, List.forall_mem_append, ih, List.forall_mem_cons]

/-- A context that gives what another one gives resolves to the same, form by form. -/
theorem resolvedCases_mono_on (h : c.BelowOn P d) :
    ResolvedCases c (fun ty t => (∀ p ∈ ty.paths, P p) → resolveType d ty = some t)
      (fun a args => (∀ p ∈ a.paths, P p) → resolveArguments d a = some args)
      (fun a suffix => (∀ p ∈ a.paths, P p) → traitSuffix d a = some suffix)
      (fun a b => (∀ p ∈ a.paths, P p) → resolveArg d a = some b)
      (fun b text => (∀ p ∈ b.paths, P p) → resolveBound d b = some text) where
  paren ih hP := by
    rw [SourceType.paths] at hP
    rw [resolveType]
    exact ih hP
  param {p t} hparam _ := by
    -- a parameter stands for the same type in both contexts
    rw [resolveType, ← h.param? p, hparam]
  path {_ segments s path args t} hparam hpath hs ih hnamed hP := by
    rw [SourceType.paths, SourcePath.paths, List.forall_mem_cons] at hP
    have hargs := ih (forall_mem_segmentPaths.mp hP.2 s (List.mem_of_getLast? hs))
    rw [← resolveLastOf_of_getLast? d hs] at hargs
    -- the path is one of those for which the second context answers as well
    rw [resolveType, ← h.param?, hparam]
    simp [h.canonical _ hP.1 path hpath, resolveLast, hargs,
      h.named _ hP.1 path hpath args t hnamed]
  reference ih hP := by
    rw [SourceType.paths] at hP
    exact resolveType_reference_iff.mpr ⟨_, ih hP, rfl⟩
  pointer ih hP := by
    rw [SourceType.paths] at hP
    exact resolveType_pointer_iff.mpr ⟨_, ih hP, rfl⟩
  traitObject ih hP := by
    rw [SourceType.paths, forall_mem_boundPaths] at hP
    exact resolveType_traitObject_iff.mpr ⟨_, resolveBounds_iff.mpr (forall₂_mp_mem ih hP), rfl⟩
  tuple ih hP := by
    rw [SourceType.paths, forall_mem_typePaths] at hP
    exact resolveType_tuple_iff.mpr ⟨_, resolveTypes_iff.mpr (forall₂_mp_mem ih hP), rfl⟩
  array ih hP := by
    rw [SourceType.paths] at hP
    exact resolveType_array_iff.mpr ⟨_, ih hP, rfl⟩
  slice ih hP := by
    rw [SourceType.paths] at hP
    exact resolveType_slice_iff.mpr ⟨_, ih hP, rfl⟩
  function _ := by rw [resolveType]
  never _ := by rw [resolveType]
  noArguments _ := by rw [resolveArguments]
  angle ih hP := by
    rw [PathArguments.paths, forall_mem_argumentPaths] at hP
    rw [resolveArguments]
    exact resolveArgs_iff.mpr (forall₂_mp_mem ih hP)
  noSuffix _ := by rw [traitSuffix]
  angleSuffix ih hP := by
    rw [PathArguments.paths, forall_mem_argumentPaths] at hP
    exact traitSuffix_angle_iff.mpr ⟨_, resolveArgs_iff.mpr (forall₂_mp_mem ih hP), rfl⟩
  callSuffix ih hP := by
    rw [PathArguments.paths, forall_mem_typePaths] at hP
    exact traitSuffix_call_iff.mpr ⟨_, resolveTypes_iff.mpr (forall₂_mp_mem ih hP), rfl⟩
  outputSuffix ihinputs ihoutput hP := by
    rw [PathArguments.paths, List.forall_mem_append, forall_mem_typePaths] at hP
    exact traitSuffix_output_iff.mpr
      ⟨_, resolveTypes_iff.mpr (forall₂_mp_mem ihinputs hP.1), _, ihoutput hP.2, rfl⟩
  typeArgument ih hP := by
    rw [GenericArgument.paths] at hP
    exact Option.map_eq_some_iff.mpr ⟨_, ih hP, rfl⟩
  lifetimeArgument _ := rfl
  constArgument _ := rfl
  binding ih hP := by
    rw [GenericArgument.paths] at hP
    exact Option.map_eq_some_iff.mpr ⟨_, ih hP, rfl⟩
  lifetimeBound _ := rfl
  trait {_ _ _ absolute segments s path suffix} hpath hs ih hP := by
    rw [TypeBound.paths, SourcePath.paths, List.forall_mem_cons] at hP
    have hsuffix := ih (forall_mem_segmentPaths.mp hP.2 s (List.mem_of_getLast? hs))
    rw [← suffixOfLast_of_getLast? d hs] at hsuffix
    exact resolveBound_trait_iff.mpr
      ⟨path, h.canonical _ hP.1 path hpath, suffix, hsuffix, rfl⟩

/-- A context that answers whatever another one does for the paths of a type resolves it if the
other one does, to the same form. -/
theorem resolveType_mono_on (h : c.BelowOn P d) (ty : SourceType) (hP : ∀ p ∈ ty.paths, P p)
    {t : ResolvedType} (ht : resolveType c ty = some t) : resolveType d ty = some t :=
  (resolvedCases_mono_on h).type ht hP

/-- A context that answers whatever another one does resolves whatever the other one does, to the
same form. -/
theorem resolveType_mono (h : c.Below d) (ty : SourceType) {t : ResolvedType}
    (ht : resolveType c ty = some t) : resolveType d ty = some t :=
  resolveType_mono_on (h.on fun _ => True) ty (fun _ _ => trivial) ht

/-- Contexts that agree on the paths of a type resolve it alike. -/
theorem resolveType_congr_on (h : c.AgreeOn P d) (ty : SourceType) (hP : ∀ p ∈ ty.paths, P p) :
    resolveType c ty = resolveType d ty := by
  ext t
  constructor
  · intro ht
    exact resolveType_mono_on h.below ty hP ht
  · intro ht
    exact resolveType_mono_on h.symm.below ty hP ht

/-- Contexts that agree resolve every type alike. -/
theorem resolveType_congr (h : c.Agree d) (ty : SourceType) :
    resolveType c ty = resolveType d ty :=
  resolveType_congr_on (h.on fun _ => True) ty fun _ _ => trivial

end

end Memberwise
