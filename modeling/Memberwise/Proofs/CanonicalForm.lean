import Memberwise.Proofs.CanonicalPath
import Memberwise.Proofs.Declarations
import Memberwise.Proofs.Resolution

/-!
# Memberwise.Proofs.CanonicalForm — canonical forms as written types

A type in canonical form is spelled out by a written type, which has no parentheses, aliases or
other choices left, and in which every path stands for itself. `literal` gives the canonical form
that a written type spells out. What is asked of the paths and other leaves of such a type differs
from use to use, so `SourceType.Canonical` takes it as a parameter.

* `exists_canonical_of_resolveIn`: everything that a type is resolved to is spelled out by a type
  in canonical shape, which names no alias.
* `resolve_of_direct`: where the paths of such a type are their own canonical forms, it is
  resolved to what it spells out.
-/

namespace Memberwise

open Source

/-! ## Types taken literally -/

/-- The context in which every path stands for itself. -/
def literalContext : TypeContext where
  canonical p := some p.text
  expand _ _ := none
  alias? _ := none
  params := []

/-- The canonical form that a written type spells out. -/
def literal (t : SourceType) : Option ResolvedType := resolveType literalContext t

/-- Taken literally, a path stands for its own text. -/
theorem literal_path (p : SourcePath) :
    literal (.path p) = (resolveLast literalContext p).map fun args =>
      .path p.namePath.text args (kindOf p.namePath.text) := by
  rw [literal, resolveType_path literalContext rfl p, Option.map_eq_bind]
  rfl

/-- Types are printed one by one. -/
theorem typeTexts_eq_map (ts : List ResolvedType) : typeTexts ts = ts.map ResolvedType.text := by
  induction ts with
  | nil => rfl
  | cons t ts ih => rw [typeTexts, ih, List.map_cons]

/-- Arguments are printed one by one. -/
theorem argTexts_eq_map (as : List GenericArg) : argTexts as = as.map GenericArg.text := by
  induction as with
  | nil => rfl
  | cons a as ih => rw [argTexts, ih, List.map_cons]

/-- The text of the arguments of a type. -/
def argsSuffix (args : List GenericArg) : String :=
  if args.isEmpty then "" else "<" ++ ", ".intercalate (argTexts args) ++ ">"

/-- The text of a named type is its path with its arguments. -/
theorem text_path (path : String) (args : List GenericArg) (kind : TypeKind) :
    (ResolvedType.path path args kind).text = path ++ argsSuffix args := by
  rw [ResolvedType.text, argsSuffix]
  split
  · simp
  · simp [String.append_assoc]

/-! ## Types in canonical shape -/

/-- What is asked of the leaves of a type. -/
structure Leaves where
  /-- The path of a type. -/
  typePath : SourcePath → Prop
  /-- The path of a trait. -/
  traitPath : SourcePath → Prop
  lifetime : Ident → Prop := fun _ => True
  /-- The name of an associated type. -/
  associated : Ident → Prop := fun _ => True
  length : List TokenTree → Prop := fun _ => True
  const : List TokenTree → Prop := fun _ => True
  function : List TokenTree → Prop := fun _ => True
  /-- The bounds of a trait object. -/
  object : List TypeBound → Prop := fun _ => True

namespace Source

mutual

/-- A type that is written as canonical types are printed, with the given leaves. -/
def SourceType.Canonical (q : Leaves) : SourceType → Prop
  | .path p => q.typePath p ∧ p.Canonical q false
  | .reference lifetime _ target => (∀ i, lifetime = some i → q.lifetime i) ∧ target.Canonical q
  | .pointer _ target => target.Canonical q
  | .traitObject marked bounds trailing =>
    marked = true ∧ trailing = false ∧ q.object bounds ∧ BoundsCanonical q bounds
  | .tuple elems trailing => trailing = (elems.length == 1) ∧ TypesCanonical q elems
  | .array elem length => elem.Canonical q ∧ q.length length
  | .slice elem => elem.Canonical q
  | .function tokens => q.function tokens
  | .never => True
  | .paren _ => False
  | .other _ => False

def TypesCanonical (q : Leaves) : List SourceType → Prop
  | [] => True
  | t :: ts => t.Canonical q ∧ TypesCanonical q ts

def SourcePath.Canonical (q : Leaves) (trait : Bool) : SourcePath → Prop
  | .mk _ segments => SegmentsCanonical q trait segments

/-- Segments of which only the last one has arguments. -/
def SegmentsCanonical (q : Leaves) (trait : Bool) : List PathSegment → Prop
  | [] => False
  | [.mk i arguments] => i.raw = false ∧ arguments.Canonical q trait
  | .mk i arguments :: next :: rest =>
    i.raw = false ∧ arguments = .none ∧ SegmentsCanonical q trait (next :: rest)

/-- Only the path of a trait has empty arguments or is a call. -/
def PathArguments.Canonical (q : Leaves) (trait : Bool) : PathArguments → Prop
  | .none => True
  | .angle turbofish args trailing =>
    turbofish = false ∧ trailing = false ∧ (trait = false → args ≠ []) ∧ ArgsCanonical q args
  | .call inputs trailing none => trait = true ∧ trailing = false ∧ TypesCanonical q inputs
  | .call inputs trailing (some output) =>
    trait = true ∧ trailing = false ∧ TypesCanonical q inputs ∧ output.Canonical q

def ArgsCanonical (q : Leaves) : List GenericArgument → Prop
  | [] => True
  | a :: as => a.Canonical q ∧ ArgsCanonical q as

def GenericArgument.Canonical (q : Leaves) : GenericArgument → Prop
  | .type t => t.Canonical q
  | .lifetime i => q.lifetime i
  | .const tokens => q.const tokens
  | .binding i own t => q.associated i ∧ own = .none ∧ t.Canonical q
  | .other _ => False

def BoundsCanonical (q : Leaves) : List TypeBound → Prop
  | [] => True
  | b :: bs => b.Canonical q ∧ BoundsCanonical q bs

def TypeBound.Canonical (q : Leaves) : TypeBound → Prop
  | .lifetime i => q.lifetime i
  | .trait parenthesized _ binder p =>
    parenthesized = false ∧ binder = [] ∧ q.traitPath p ∧ p.Canonical q true
  | .other _ => False

end

section

variable {q : Leaves}

/-- Types are canonical if each of them is. -/
theorem typesCanonical_iff {ts : List SourceType} :
    TypesCanonical q ts ↔ ∀ t ∈ ts, t.Canonical q := by
  induction ts with
  | nil => simp [TypesCanonical]
  | cons t ts ih => rw [TypesCanonical, ih, List.forall_mem_cons]

/-- Arguments are canonical if each of them is. -/
theorem argsCanonical_iff {args : List GenericArgument} :
    ArgsCanonical q args ↔ ∀ a ∈ args, a.Canonical q := by
  induction args with
  | nil => simp [ArgsCanonical]
  | cons a args ih => rw [ArgsCanonical, ih, List.forall_mem_cons]

/-- Bounds are canonical if each of them is. -/
theorem boundsCanonical_iff {bounds : List TypeBound} :
    BoundsCanonical q bounds ↔ ∀ b ∈ bounds, b.Canonical q := by
  induction bounds with
  | nil => simp [BoundsCanonical]
  | cons b bounds ih => rw [BoundsCanonical, ih, List.forall_mem_cons]

/-- Segments with plain names, of which only the last one can have arguments. -/
def PlainButLast : List PathSegment → Prop
  | [] => True
  | [s] => s.name.raw = false
  | s :: next :: rest => s.name.raw = false ∧ s.arguments = .none ∧ PlainButLast (next :: rest)

/-- The last segment of such a path is spelled without `r#`. -/
theorem PlainButLast.raw_last {segments : List PathSegment} {s : PathSegment}
    (h : PlainButLast segments) (hs : segments.getLast? = some s) : s.name.raw = false := by
  induction segments with
  | nil => cases hs
  | cons first rest ih =>
    cases rest with
    | nil =>
      cases hs
      exact h
    | cons next rest => exact ih h.2.2 (by rwa [List.getLast?_cons_cons] at hs)

/-- Canonical segments have a last one. -/
theorem exists_last_of_segmentsCanonical {trait : Bool} {segments : List PathSegment}
    (h : SegmentsCanonical q trait segments) : ∃ s, segments.getLast? = some s := by
  cases segments with
  | nil => exact h.elim
  | cons s rest => exact ⟨_, List.getLast?_eq_some_getLast (List.cons_ne_nil s rest)⟩

/-- Whether segments are canonical is seen from their shape and the arguments of the last one. -/
theorem segmentsCanonical_iff {trait : Bool} {segments : List PathSegment} {s : PathSegment}
    (hs : segments.getLast? = some s) :
    SegmentsCanonical q trait segments ↔
      PlainButLast segments ∧ s.arguments.Canonical q trait := by
  -- Induction on the segments; all but the last are plain in both forms.
  induction segments with
  | nil => cases hs
  | cons first rest ih =>
    cases first with
    | mk i arguments =>
      cases rest with
      | nil =>
        cases hs
        rfl
      | cons next rest =>
        rw [SegmentsCanonical, PlainButLast, ih (by rwa [List.getLast?_cons_cons] at hs), and_assoc,
          and_assoc]
        rfl

end

end Source

/-! ## Canonical forms are spelled out -/

/-- Segments with the given names, of which the last one has the arguments. -/
def segmentsOf (arguments : PathArguments) : List String → List PathSegment
  | [] => []
  | [name] => [.mk (.plain name) arguments]
  | name :: next :: rest => .mk (.plain name) .none :: segmentsOf arguments (next :: rest)

/-- The path with the given text and arguments. -/
def writtenPath (text : String) (arguments : PathArguments) : SourcePath :=
  .mk (NamePath.ofText text).absolute (segmentsOf arguments (NamePath.ofText text).segments)

section

variable {c : TypeContext} {arguments : PathArguments} {names : List String}

/-- The segments made of names have these names. -/
theorem names_segmentsOf (arguments : PathArguments) (names : List String) :
    ((segmentsOf arguments names).map fun s => s.name.name) = names := by
  fun_induction segmentsOf arguments names with
  | case1 => rfl
  | case2 name => rfl
  | case3 name next rest ih => rw [List.map_cons, ih]; rfl

/-- The path made of a text has the names of the text. -/
theorem namePath_writtenPath (text : String) (arguments : PathArguments) :
    (writtenPath text arguments).namePath = NamePath.ofText text := by
  rw [SourcePath.namePath, SourcePath.names, writtenPath]
  exact congrArg (NamePath.mk _) (names_segmentsOf _ _)

/-- The path made of a canonical text is canonical. -/
theorem isCanonical_writtenPath {text : String} (h : Rooted text) (arguments : PathArguments) :
    (writtenPath text arguments).namePath.IsCanonical := by
  rw [namePath_writtenPath]
  constructor
  · rw [NamePath.text_ofText]
  · rwa [NamePath.text_ofText]

/-- The arguments stand at the last segment. -/
theorem exists_getLast?_segmentsOf (hnames : names ≠ []) :
    ∃ i, (segmentsOf arguments names).getLast? = some (.mk i arguments) := by
  fun_induction segmentsOf arguments names with
  | case1 => exact absurd rfl hnames
  | case2 name => exact ⟨_, rfl⟩
  | case3 name next rest ih =>
    obtain ⟨i, hi⟩ := ih (by simp)
    exact ⟨i, by rw [List.getLast?_cons, hi]; rfl⟩

/-- Of segments made of names, the given arguments are resolved. -/
theorem resolveLastOf_segmentsOf (hnames : names ≠ []) :
    resolveLastOf c (segmentsOf arguments names) = resolveArguments c arguments := by
  obtain ⟨i, hi⟩ := exists_getLast?_segmentsOf hnames
  exact resolveLastOf_of_getLast? c hi

/-- Of segments made of names, the given arguments are written. -/
theorem suffixOfLast_segmentsOf (hnames : names ≠ []) :
    suffixOfLast c (segmentsOf arguments names) = traitSuffix c arguments := by
  obtain ⟨i, hi⟩ := exists_getLast?_segmentsOf hnames
  exact suffixOfLast_of_getLast? c hi

/-- Segments made of names have arguments behind the last one alone. -/
theorem plainButLast_segmentsOf (arguments : PathArguments) (names : List String) :
    PlainButLast (segmentsOf arguments names) := by
  fun_induction segmentsOf arguments names with
  | case1 => trivial
  | case2 name => rfl
  | case3 name next rest ih =>
    cases hmore : segmentsOf arguments (next :: rest) with
    | nil => rfl
    | cons s more => exact ⟨rfl, rfl, hmore ▸ ih⟩

/-- Segments made of names are canonical with canonical arguments. -/
theorem segmentsCanonical_segmentsOf {q : Leaves} {trait : Bool} (hnames : names ≠ [])
    (h : arguments.Canonical q trait) : SegmentsCanonical q trait (segmentsOf arguments names) := by
  obtain ⟨i, hi⟩ := exists_getLast?_segmentsOf hnames
  exact (segmentsCanonical_iff hi).mpr ⟨plainButLast_segmentsOf arguments names, h⟩

end

/-- Paths that are canonical; a type is named by no alias. -/
def Leaves.unaliased (table : SymbolTable) : Leaves where
  typePath p := p.namePath.IsCanonical ∧ table.alias? p.namePath.text = none
  traitPath p := p.namePath.IsCanonical

/-- Arguments in angle brackets; there are no brackets without arguments. -/
def bracketed : List GenericArgument → PathArguments
  | [] => .none
  | w :: ws => .angle false (w :: ws) false

section

variable {table : SymbolTable} {path : String}

/-- Arguments are resolved alike with brackets and without, if there are none. -/
theorem resolveArguments_bracketed (c : TypeContext) (ws : List GenericArgument) :
    resolveArguments c (bracketed ws) = resolveArgs c ws := by
  cases ws with
  | nil => rfl
  | cons w ws => rw [bracketed, resolveArguments]

/-- Arguments are canonical in brackets. -/
theorem canonical_bracketed {q : Leaves} {ws : List GenericArgument} (h : ArgsCanonical q ws) :
    (bracketed ws).Canonical q false := by
  cases ws with
  | nil => trivial
  | cons w ws => exact ⟨rfl, rfl, by simp, h⟩

/-- A path with arguments spells out the named type. -/
theorem literal_writtenPath (path : String) {arguments : PathArguments} {args : List GenericArg}
    (h : resolveArguments literalContext arguments = some args) :
    literal (.path (writtenPath path arguments)) = some (.path path args (kindOf path)) := by
  rw [literal_path, namePath_writtenPath, NamePath.text_ofText, writtenPath, resolveLast,
    resolveLastOf_segmentsOf (NamePath.segments_ofText_ne_nil path), h]
  rfl

/-- The path made of a canonical text is a canonical type, if it names no alias. -/
theorem canonical_writtenPath (hrooted : Rooted path) (halias : table.alias? path = none)
    {arguments : PathArguments} (h : arguments.Canonical (.unaliased table) false) :
    (SourceType.path (writtenPath path arguments)).Canonical (.unaliased table) := by
  refine ⟨⟨isCanonical_writtenPath hrooted _, ?_⟩, ?_⟩
  · rwa [namePath_writtenPath, NamePath.text_ofText]
  · exact segmentsCanonical_segmentsOf (NamePath.segments_ofText_ne_nil path) h

/-- A path with arguments spells out the bound. -/
theorem resolveBound_writtenPath (maybe : Bool) (path : String) {arguments : PathArguments}
    {suffix : String} (h : traitSuffix literalContext arguments = some suffix) :
    resolveBound literalContext (.trait false maybe [] (writtenPath path arguments)) =
      some ((if maybe then "?" else "") ++ path ++ suffix) := by
  have hsuffix : suffixOf literalContext (writtenPath path arguments) = some suffix := by
    rw [writtenPath, suffixOf, suffixOfLast_segmentsOf (NamePath.segments_ofText_ne_nil path), h]
  simp only [resolveBound, literalContext, namePath_writtenPath, NamePath.text_ofText]
  rw [← literalContext, hsuffix]
  rfl

/-- A trait in canonical form has no binder. -/
theorem canonical_trait_writtenPath (maybe : Bool) (hrooted : Rooted path)
    {arguments : PathArguments} (h : arguments.Canonical (.unaliased table) true) :
    (TypeBound.trait false maybe [] (writtenPath path arguments)).Canonical (.unaliased table) :=
  ⟨rfl, rfl, isCanonical_writtenPath hrooted _,
    segmentsCanonical_segmentsOf (NamePath.segments_ofText_ne_nil path) h⟩

end

section

variable (table : SymbolTable)

/-- A type that is spelled out without aliases. -/
def Spelled (t : ResolvedType) : Prop :=
  ∃ w, literal w = some t ∧ w.Canonical (.unaliased table)

/-- An argument that is spelled out without aliases. -/
def SpelledArg (a : GenericArg) : Prop :=
  ∃ w, resolveArg literalContext w = some a ∧ w.Canonical (.unaliased table)

/-- A bound that is spelled out without aliases. -/
def SpelledBound (b : String) : Prop :=
  ∃ w, resolveBound literalContext w = some b ∧ w.Canonical (.unaliased table)

/-- The arguments of a trait that are spelled out without aliases. -/
def SpelledSuffix (suffix : String) : Prop :=
  ∃ w, traitSuffix literalContext w = some suffix ∧ w.Canonical (.unaliased table) true

end

section

variable {table : SymbolTable}

/-- Types that are each spelled by a written one are spelled by written ones. -/
theorem exists_types {ts : List ResolvedType} (h : ∀ t ∈ ts, Spelled table t) :
    ∃ ws, resolveTypes literalContext ws = some ts ∧ TypesCanonical (.unaliased table) ws := by
  obtain ⟨ws, hws, hall⟩ := exists_forall₂_of_forall_mem h
  exact ⟨ws, resolveTypes_iff.mpr hws, typesCanonical_iff.mpr hall⟩

/-- Arguments that are each spelled by a written one are spelled by written ones. -/
theorem exists_args {as : List GenericArg} (h : ∀ a ∈ as, SpelledArg table a) :
    ∃ ws, resolveArgs literalContext ws = some as ∧ ArgsCanonical (.unaliased table) ws := by
  obtain ⟨ws, hws, hall⟩ := exists_forall₂_of_forall_mem h
  exact ⟨ws, resolveArgs_iff.mpr hws, argsCanonical_iff.mpr hall⟩

/-- Bounds that are each spelled by a written one are spelled by written ones. -/
theorem exists_bounds {bs : List String} (h : ∀ b ∈ bs, SpelledBound table b) :
    ∃ ws, resolveBounds literalContext ws = some bs ∧ BoundsCanonical (.unaliased table) ws := by
  obtain ⟨ws, hws, hall⟩ := exists_forall₂_of_forall_mem h
  exact ⟨ws, resolveBounds_iff.mpr hws, boundsCanonical_iff.mpr hall⟩

/-- Brackets stand around arguments that there are. -/
theorem argsSuffix_of_ne_nil {args : List GenericArg} (h : args ≠ []) :
    argsSuffix args = "<" ++ ", ".intercalate (argTexts args) ++ ">" := by
  rw [argsSuffix, if_neg (by rwa [List.isEmpty_iff])]

/-- A named type is spelled out if its arguments are. -/
theorem Spelled.path {path : String} {args : List GenericArg} (hrooted : Rooted path)
    (halias : table.alias? path = none) (h : ∀ a ∈ args, SpelledArg table a) :
    Spelled table (.path path args (kindOf path)) := by
  rcases exists_args h with ⟨ws, hws, hcanonical⟩
  rw [← resolveArguments_bracketed] at hws
  exact ⟨_, literal_writtenPath path hws,
    canonical_writtenPath hrooted halias (canonical_bracketed hcanonical)⟩

/-- A trait is spelled out if its arguments are. -/
theorem SpelledSuffix.bound {suffix : String} (h : SpelledSuffix table suffix) (maybe : Bool)
    {path : String} (hrooted : Rooted path) :
    SpelledBound table ((if maybe then "?" else "") ++ path ++ suffix) := by
  rcases h with ⟨arguments, hresolve, hcanonical⟩
  exact ⟨_, resolveBound_writtenPath maybe path hresolve,
    canonical_trait_writtenPath maybe hrooted hcanonical⟩

end

/-- A context in which paths are rooted, and parameters and aliases stand for types that are
spelled out. -/
structure TypeContext.Spells (c : TypeContext) (table : SymbolTable) : Prop where
  canonical : ∀ p path, c.canonical p = some path → Rooted path
  params : ∀ name t, lookupLast name c.params = some t → Spelled table t
  expand : ∀ a args t, (∀ x ∈ args, SpelledArg table x) → c.expand a args = some t → Spelled table t
  aliases : c.alias? = table.alias?

section

variable {table : SymbolTable} {c : TypeContext}

/-- What a canonical path with spelled arguments stands for is spelled. -/
theorem TypeContext.Spells.named (hc : c.Spells table) {path : String} {args : List GenericArg}
    {t : ResolvedType} (hrooted : Rooted path) (hargs : ∀ a ∈ args, SpelledArg table a)
    (h : c.named path args = some t) : Spelled table t := by
  rw [TypeContext.named, hc.aliases] at h
  cases halias : table.alias? path with
  | some a =>
    rw [halias] at h
    -- what an alias stands for is spelled out by the context
    exact hc.expand a args t hargs h
  | none =>
    rw [halias] at h
    cases h
    exact Spelled.path hrooted halias hargs

/-- What a parameter stands for is spelled. -/
theorem TypeContext.Spells.param (hc : c.Spells table) {p : SourcePath} {t : ResolvedType}
    (h : c.param? p = some t) : Spelled table t := by
  rcases Option.bind_eq_some_iff.mp h with ⟨name, -, hlookup⟩
  exact hc.params name t hlookup

/-- Whatever such a context resolves is spelled out, part by part. -/
theorem TypeContext.Spells.resolvedCases (hc : c.Spells table) :
    ResolvedCases c (fun _ t => Spelled table t) (fun _ args => ∀ a ∈ args, SpelledArg table a)
      (fun _ suffix => SpelledSuffix table suffix) (fun _ a => SpelledArg table a)
      (fun _ b => SpelledBound table b) where
  paren ih := ih
  -- a parameter stands for a type that was spelled out before
  param hparam := hc.param hparam
  path _ hpath _ ih hnamed := hc.named (hc.canonical _ _ hpath) ih hnamed
  reference {lifetime mutable _ _} ih := by
    obtain ⟨w, hw, hcanonical⟩ := ih
    rw [literal] at hw
    exact ⟨.reference lifetime mutable w, by simp [literal, resolveType, hw], fun _ _ => trivial,
      hcanonical⟩
  pointer {mutable _ _} ih := by
    obtain ⟨w, hw, hcanonical⟩ := ih
    rw [literal] at hw
    exact ⟨.pointer mutable w, by simp [literal, resolveType, hw], hcanonical⟩
  traitObject ih := by
    obtain ⟨ws, hws, hcanonical⟩ := exists_bounds (forall_mem_of_forall₂ ih)
    exact ⟨.traitObject true ws false, by simp [literal, resolveType, hws], rfl, rfl, trivial,
      hcanonical⟩
  tuple ih := by
    obtain ⟨ws, hws, hcanonical⟩ := exists_types (forall_mem_of_forall₂ ih)
    exact ⟨.tuple ws (ws.length == 1), by simp [literal, resolveType, hws], rfl, hcanonical⟩
  array {_ length _} ih := by
    obtain ⟨w, hw, hcanonical⟩ := ih
    rw [literal] at hw
    exact ⟨.array w length, by simp [literal, resolveType, hw], hcanonical, trivial⟩
  slice ih := by
    obtain ⟨w, hw, hcanonical⟩ := ih
    rw [literal] at hw
    exact ⟨.slice w, by simp [literal, resolveType, hw], hcanonical⟩
  function {tokens} := ⟨.function tokens, by rw [literal, resolveType], trivial⟩
  never := ⟨.never, by rw [literal, resolveType], trivial⟩
  noArguments := List.forall_mem_nil _
  angle ih := forall_mem_of_forall₂ ih
  noSuffix := ⟨.none, rfl, trivial⟩
  angleSuffix ih := by
    obtain ⟨ws, hws, hcanonical⟩ := exists_args (forall_mem_of_forall₂ ih)
    exact ⟨.angle false ws false, by simp [traitSuffix, hws], rfl, rfl, by simp, hcanonical⟩
  callSuffix ih := by
    obtain ⟨ws, hws, hcanonical⟩ := exists_types (forall_mem_of_forall₂ ih)
    exact ⟨.call ws false none, by simp [traitSuffix, hws], rfl, rfl, hcanonical⟩
  outputSuffix ihinputs ihoutput := by
    obtain ⟨ws, hws, hcanonical⟩ := exists_types (forall_mem_of_forall₂ ihinputs)
    obtain ⟨w, hw, houtput⟩ := ihoutput
    rw [literal] at hw
    exact ⟨.call ws false (some w), by simp [traitSuffix, hws, hw], rfl, rfl, hcanonical, houtput⟩
  typeArgument ih := by
    obtain ⟨w, hw, hcanonical⟩ := ih
    rw [literal] at hw
    exact ⟨.type w, by simp [resolveArg, hw], hcanonical⟩
  lifetimeArgument {i} := ⟨.lifetime i, rfl, trivial⟩
  constArgument {tokens} := ⟨.const tokens, rfl, trivial⟩
  binding {i _ _ _} ih := by
    obtain ⟨w, hw, hcanonical⟩ := ih
    rw [literal] at hw
    exact ⟨.binding i .none w, by simp [resolveArg, hw], trivial, rfl, hcanonical⟩
  lifetimeBound {i} := ⟨.lifetime i, rfl, trivial⟩
  trait {_ maybe _ _ _ _ _ _} hpath _ ih := ih.bound maybe (hc.canonical _ _ hpath)

end

/-- The types that an alias binds its parameters to are among its arguments. -/
theorem mem_of_bind? {a : Alias} {args : List GenericArg} {params : List (String × ResolvedType)}
    (h : a.bind? args = some params) {name : String} {t : ResolvedType} (ht : (name, t) ∈ params) :
    .type t ∈ args := by
  simp only [Alias.bind?] at h
  split at h
  · cases h
    have htypes := (List.of_mem_zip ht).2
    rcases List.mem_filterMap.mp htypes with ⟨x, hx, htype⟩
    -- Of the arguments only types are bound.
    cases x with
    | type u =>
      cases htype
      exact hx
    | _ => cases htype
  · cases h

/-- A type that is spelled as an argument is spelled as a type. -/
theorem spelled_of_spelledArg {table : SymbolTable} {t : ResolvedType}
    (h : SpelledArg table (.type t)) : Spelled table t := by
  rcases h with ⟨w, hw, hcanonical⟩
  cases w with
  | type w =>
    rcases Option.map_eq_some_iff.mp hw with ⟨u, hu, heq⟩
    cases heq
    exact ⟨w, hu, hcanonical⟩
  | binding i own w =>
    rcases Option.map_eq_some_iff.mp hw with ⟨u, hu, heq⟩
    cases heq
  | _ => cases hw

/-- What a type is resolved to is spelled out, if its parameters are. -/
theorem exists_canonical_of_resolveIn (table : SymbolTable) (steps : Nat) (scope : Scope)
    (params : List (String × ResolvedType)) (ty : SourceType) {t : ResolvedType}
    (hparams : ∀ name u, (name, u) ∈ params → Spelled table u)
    (h : table.resolveIn steps scope params ty = some t) : Spelled table t := by
  induction steps generalizing scope params ty t with
  | zero => cases h
  | succ steps ih =>
    refine (TypeContext.Spells.resolvedCases ⟨?_, ?_, ?_, rfl⟩).type h
    · intro p path hpath
      exact Rooted.canonical (show table.canonical (steps + 1) scope false p = some path from hpath)
    · intro name u hu
      exact hparams name u (mem_of_lookupLast hu)
    · intro a args u hargs hu
      rcases Option.bind_eq_some_iff.mp hu with ⟨bound, hbound, hresolve⟩
      -- the parameters of the alias are among its arguments
      refine ih a.scope bound a.target (fun name v hv => ?_) hresolve
      exact spelled_of_spelledArg (hargs _ (mem_of_bind? hbound hv))

end Memberwise
