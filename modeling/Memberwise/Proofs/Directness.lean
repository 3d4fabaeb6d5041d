import Memberwise.Proofs.CanonicalForm

/-!
# Memberwise.Proofs.Directness — types that stand for themselves

A type in canonical shape need not be resolved to what it spells out. It is, if all its paths are
direct (`resolve_of_direct`). If some path is not direct, it is replaced by a lighter one, and since
the weight of a text is that of its parts, the text of the whole type gets lighter
(`TypeContext.Lightens.resolvedCases`). So a type is resolved to what it spells out exactly if its
paths are direct (`resolve_eq_literal_iff`).

The detour over weights is for the bounds of trait objects, which are texts in canonical forms and
so cannot be compared part by part.
-/

namespace Memberwise

open Source

/-- Paths that are their own canonical forms. -/
def Leaves.direct : Leaves where
  typePath p := p.namePath.Direct
  traitPath p := p.namePath.Direct

/-! ## Types with direct paths -/

/-- A context without parameters in which the aliases are those of the table, and direct paths are
their own canonical forms. -/
structure TypeContext.IsDirect (c : TypeContext) (table : SymbolTable) : Prop where
  params : c.params = []
  aliases : c.alias? = table.alias?
  canonical : ∀ p : NamePath, p.IsCanonical → p.Direct → c.canonical p = some p.text

section

variable {table : SymbolTable} {c : TypeContext}

/-- A direct path that names no alias stands for itself. -/
theorem TypeContext.IsDirect.named (hc : c.IsDirect table) {path : String}
    (halias : table.alias? path = none) : c.named path = literalContext.named path := by
  funext args
  rw [TypeContext.named, hc.aliases, halias]
  rfl

/-- Such a context resolves what is in canonical shape and has direct paths to what it spells. -/
theorem TypeContext.IsDirect.typeCases (hc : c.IsDirect table) :
    TypeCases
      (fun w => w.Canonical (.unaliased table) → w.Canonical .direct →
        resolveType c w = resolveType literalContext w)
      (fun a => ∀ trait, a.Canonical (.unaliased table) trait → a.Canonical .direct trait →
        resolveArguments c a = resolveArguments literalContext a ∧
          traitSuffix c a = traitSuffix literalContext a)
      (fun a => a.Canonical (.unaliased table) → a.Canonical .direct →
        resolveArg c a = resolveArg literalContext a)
      (fun b => b.Canonical (.unaliased table) → b.Canonical .direct →
        resolveBound c b = resolveBound literalContext b) where
  -- A path is the only type the table is asked about, and it already names what it denotes.
  path absolute segments ih h hdirect := by
    obtain ⟨s, hs⟩ := exists_last_of_segmentsCanonical h.2
    have hargs := ih s (List.mem_of_getLast? hs) false ((segmentsCanonical_iff hs).mp h.2).2
      ((segmentsCanonical_iff hs).mp hdirect.2).2
    have hcanonical := hc.canonical _ h.1.1 hdirect.1
    rw [resolveType_path c hc.params, resolveType_path literalContext rfl, hcanonical, resolveLast,
      resolveLast, resolveLastOf_of_getLast? _ hs, resolveLastOf_of_getLast? _ hs, hargs.1,
      Option.bind_some, hc.named h.1.2]
    rfl
  reference lifetime mutable target ih h hdirect := by
    rw [resolveType, resolveType, ih h.2 hdirect.2]
  pointer mutable target ih h hdirect := by rw [resolveType, resolveType, ih h hdirect]
  traitObject marked bounds trailing ih h hdirect := by
    have hall := boundsCanonical_iff.mp h.2.2.2
    have halldirect := boundsCanonical_iff.mp hdirect.2.2.2
    rw [resolveType, resolveType,
      resolveBounds_map (f := id) fun b hb => ih b hb (hall b hb) (halldirect b hb), List.map_id]
  tuple elems trailing ih h hdirect := by
    have hall := typesCanonical_iff.mp h.2
    have halldirect := typesCanonical_iff.mp hdirect.2
    rw [resolveType, resolveType,
      resolveTypes_map (f := id) fun t ht => ih t ht (hall t ht) (halldirect t ht), List.map_id]
  array elem length ih h hdirect := by rw [resolveType, resolveType, ih h.1 hdirect.1]
  slice elem ih h hdirect := by rw [resolveType, resolveType, ih h hdirect]
  paren inner _ h _ := h.elim
  function tokens _ _ := by rw [resolveType, resolveType]
  never _ _ := by rw [resolveType, resolveType]
  other tokens h _ := h.elim
  noArguments _ _ _ := ⟨rfl, rfl⟩
  angle turbofish args trailing ih trait h hdirect := by
    have hall := argsCanonical_iff.mp h.2.2.2
    have halldirect := argsCanonical_iff.mp hdirect.2.2.2
    have hargs : resolveArgs c args = resolveArgs literalContext args := by
      rw [resolveArgs_map (f := id) fun a ha => ih a ha (hall a ha) (halldirect a ha), List.map_id]
    exact ⟨hargs, by rw [traitSuffix, traitSuffix, hargs]⟩
  -- A parenthesised list is resolved only by the suffix, its output being optional.
  call inputs trailing output ihinputs ihoutput trait h hdirect := by
    refine ⟨rfl, ?_⟩
    have hinputs : TypesCanonical (.unaliased table) inputs → TypesCanonical .direct inputs →
        resolveTypes c inputs = resolveTypes literalContext inputs := by
      intro h hdirect
      rw [resolveTypes_map (f := id) fun t ht => ihinputs t ht (typesCanonical_iff.mp h t ht)
        (typesCanonical_iff.mp hdirect t ht), List.map_id]
    cases output with
    | none => rw [traitSuffix, traitSuffix, hinputs h.2.2 hdirect.2.2]
    | some output =>
      rw [traitSuffix, traitSuffix, hinputs h.2.2.1 hdirect.2.2.1,
        ihoutput output rfl h.2.2.2 hdirect.2.2.2]
  typeArgument t ih h hdirect := by rw [resolveArg, resolveArg, ih h hdirect]
  lifetimeArgument i _ _ := rfl
  constArgument tokens _ _ := rfl
  binding i own t _ ih h hdirect := by rw [resolveArg, resolveArg, ih h.2.2 hdirect.2.2]
  otherArgument tokens _ _ := rfl
  lifetimeBound i _ _ := rfl
  trait parenthesized maybe binder absolute segments ih h hdirect := by
    obtain ⟨s, hs⟩ := exists_last_of_segmentsCanonical h.2.2.2
    have hsuffix := ih s (List.mem_of_getLast? hs) true ((segmentsCanonical_iff hs).mp h.2.2.2).2
      ((segmentsCanonical_iff hs).mp hdirect.2.2.2).2
    rw [resolveBound, resolveBound, hc.canonical _ h.2.2.1 hdirect.2.2.1, suffixOf, suffixOf,
      suffixOfLast_of_getLast? _ hs, suffixOfLast_of_getLast? _ hs, hsuffix.2]
    rfl
  otherBound tokens _ _ := rfl

end

/-- A type without aliases whose paths stand for themselves is resolved to what it spells out. -/
theorem resolve_of_direct {table : SymbolTable} {scope : Scope}
    (hkeeps : table.KeepsPrimitives scope) {w : SourceType} (h : w.Canonical (.unaliased table))
    (hdirect : w.Canonical .direct) :
    table.resolve scope w = literal w := by
  rw [SymbolTable.resolve, maxSteps, SymbolTable.resolveIn]
  refine (TypeContext.IsDirect.typeCases ⟨rfl, rfl, ?_⟩).type w h hdirect
  exact fun p hp => canonical_of_direct hkeeps hp.segments_ne_nil

/-! ## Lighter texts -/

/-- The text `a` is at most as heavy as `b`, and as heavy only if `P` holds. -/
structure Lighter (P : Prop) (a b : String) : Prop where
  le : weight a ≤ weight b
  of_eq : weight a = weight b → P

/-- What texts weigh together. -/
def weightAll : List String → Int
  | [] => 0
  | a :: as => weight a + weightAll as

/-- The texts `as` are as many as `bs` and at most as heavy, and as heavy only if `P` holds. -/
structure LighterAll (P : Prop) (as bs : List String) : Prop where
  length : as.length = bs.length
  le : weightAll as ≤ weightAll bs
  of_eq : weightAll as = weightAll bs → P

section

variable {P Q : Prop} {a b a' b' : String} {as bs : List String}

/-- A text weighs as much as itself. -/
theorem Lighter.refl (h : P) (a : String) : Lighter P a a := ⟨Int.le_refl _, fun _ => h⟩

/-- What follows from two texts being equally heavy may be weakened. -/
theorem Lighter.imp (h : Lighter P a b) (hQ : P → Q) : Lighter Q a b :=
  ⟨h.le, fun heq => hQ (h.of_eq heq)⟩

/-- Texts put together are lighter if their parts are, and equally heavy only if both are. -/
theorem Lighter.append (h : Lighter P a b) (h' : Lighter Q a' b') :
    Lighter (P ∧ Q) (a ++ a') (b ++ b') := by
  have hle := h.le
  have hle' := h'.le
  constructor
  · rw [weight_append, weight_append]
    omega
  · intro heq
    rw [weight_append, weight_append] at heq
    exact ⟨h.of_eq (by omega), h'.of_eq (by omega)⟩

/-- A start in front weighs the same on both sides. -/
theorem Lighter.before (h : Lighter P a b) (start : String) : Lighter P (start ++ a) (start ++ b) :=
  ((Lighter.refl trivial start).append h).imp And.right

/-- An end behind weighs the same on both sides. -/
theorem Lighter.after (h : Lighter P a b) (tail : String) : Lighter P (a ++ tail) (b ++ tail) :=
  (h.append (Lighter.refl trivial tail)).imp And.left

/-- No texts weigh as much as none. -/
theorem LighterAll.nil : LighterAll True [] [] := ⟨rfl, Int.le_refl _, fun _ => trivial⟩

/-- A text and further ones are lighter if each of them is. -/
theorem LighterAll.cons (h : Lighter P a b) (hs : LighterAll Q as bs) :
    LighterAll (P ∧ Q) (a :: as) (b :: bs) := by
  have hle := h.le
  have hle' := hs.le
  refine ⟨by rw [List.length_cons, List.length_cons, hs.length], ?_, ?_⟩
  · rw [weightAll, weightAll]
    omega
  · intro heq
    rw [weightAll, weightAll] at heq
    exact ⟨h.of_eq (by omega), hs.of_eq (by omega)⟩

/-- Between as many texts, the separators weigh the same. -/
theorem weight_intercalate (separator : String) (h : as.length = bs.length) :
    weight (separator.intercalate as) + weightAll bs =
      weight (separator.intercalate bs) + weightAll as := by
  induction as generalizing bs with
  | nil =>
    cases bs with
    | nil => rfl
    | cons b bs => cases h
  | cons a as ih =>
    cases bs with
    | nil => cases h
    | cons b bs =>
      have hlength : as.length = bs.length := Nat.succ.inj h
      have hmore := ih hlength
      -- whether a separator follows the first text depends on the others
      cases as with
      | nil =>
        cases bs with
        | nil => simp [weightAll, Int.add_comm]
        | cons b' bs => cases hlength
      | cons a' as =>
        cases bs with
        | nil => cases hlength
        | cons b' bs =>
          have has : weightAll (a :: a' :: as) = weight a + weightAll (a' :: as) := rfl
          have hbs : weightAll (b :: b' :: bs) = weight b + weightAll (b' :: bs) := rfl
          rw [String.intercalate_cons_cons, String.intercalate_cons_cons, weight_append,
            weight_append, weight_append, weight_append, has, hbs]
          omega

/-- Separators weigh the same on both sides. -/
theorem LighterAll.intercalate (h : LighterAll P as bs) (separator : String) :
    Lighter P (separator.intercalate as) (separator.intercalate bs) := by
  have hle := h.le
  have hweight := weight_intercalate separator h.length
  constructor
  · omega
  · intro heq
    exact h.of_eq (by omega)

end

/-! ## Types that get lighter -/

/-- A context without parameters in which a canonical path is direct or stands for a lighter one,
which is no alias if the path is none. -/
structure TypeContext.Lightens (c : TypeContext) (table : SymbolTable) : Prop where
  params : c.params = []
  canonical : ∀ p path, p.IsCanonical → c.canonical p = some path → Lighter p.Direct path p.text
  aliases : ∀ p path, p.IsCanonical → c.canonical p = some path →
    table.alias? p.text = none → c.alias? path = none

section

variable {table : SymbolTable} {c : TypeContext}

/-- What gets lighter one by one gets lighter together: `f` says what the elements spell out, and
`D` holds of those that keep their weight. -/
theorem lighterAll_of_forall₂ {α β : Type} {C D : α → Prop} {f : α → Option β} {text : β → String}
    {ws : List α} {ts us : List β}
    (h : List.Forall₂ (fun w t => C w → ∀ u, f w = some u → Lighter (D w) (text t) (text u)) ws ts)
    (hws : ∀ w ∈ ws, C w) (hus : List.Forall₂ (fun w u => f w = some u) ws us) :
    LighterAll (∀ w ∈ ws, D w) (ts.map text) (us.map text) := by
  induction h generalizing us with
  | nil =>
    cases hus
    simpa using LighterAll.nil
  | cons ht _ ih =>
    obtain ⟨hw, hws⟩ := List.forall_mem_cons.mp hws
    obtain _ | ⟨hu, hus⟩ := hus
    rw [List.forall_mem_cons, List.map_cons, List.map_cons]
    exact LighterAll.cons (ht hw _ hu) (ih hws hus)

/-- Types that get lighter one by one get lighter together. -/
theorem lighter_types {ws : List SourceType} {ts us : List ResolvedType}
    (h : List.Forall₂ (fun w t => w.Canonical (.unaliased table) → ∀ u,
      resolveType literalContext w = some u → Lighter (w.Canonical .direct) t.text u.text) ws ts)
    (hws : TypesCanonical (.unaliased table) ws) (hus : resolveTypes literalContext ws = some us) :
    LighterAll (TypesCanonical .direct ws) (typeTexts ts) (typeTexts us) := by
  rw [typesCanonical_iff, typeTexts_eq_map, typeTexts_eq_map]
  exact lighterAll_of_forall₂ h (typesCanonical_iff.mp hws) (resolveTypes_iff.mp hus)

/-- Arguments get no heavier if none of them does. -/
theorem lighter_args {ws : List GenericArgument} {as bs : List GenericArg}
    (h : List.Forall₂ (fun w a => w.Canonical (.unaliased table) → ∀ b,
      resolveArg literalContext w = some b → Lighter (w.Canonical .direct) a.text b.text) ws as)
    (hws : ArgsCanonical (.unaliased table) ws) (hbs : resolveArgs literalContext ws = some bs) :
    LighterAll (ArgsCanonical .direct ws) (argTexts as) (argTexts bs) := by
  rw [argsCanonical_iff, argTexts_eq_map, argTexts_eq_map]
  exact lighterAll_of_forall₂ h (argsCanonical_iff.mp hws) (resolveArgs_iff.mp hbs)

/-- Bounds get no heavier if none of them does. -/
theorem lighter_bounds {ws : List TypeBound} {as bs : List String}
    (h : List.Forall₂ (fun w a => w.Canonical (.unaliased table) → ∀ b,
      resolveBound literalContext w = some b → Lighter (w.Canonical .direct) a b) ws as)
    (hws : BoundsCanonical (.unaliased table) ws)
    (hbs : resolveBounds literalContext ws = some bs) :
    LighterAll (BoundsCanonical .direct ws) as bs := by
  rw [boundsCanonical_iff, ← List.map_id as, ← List.map_id bs]
  exact lighterAll_of_forall₂ h (boundsCanonical_iff.mp hws) (resolveBounds_iff.mp hbs)

/-- What such a context makes of a canonical type is at most as heavy as what it spells out, and as
heavy only if the paths of the type are direct. -/
theorem TypeContext.Lightens.resolvedCases (hc : c.Lightens table) :
    ResolvedCases c
      (fun w t => w.Canonical (.unaliased table) → ∀ u, resolveType literalContext w = some u →
        Lighter (w.Canonical .direct) t.text u.text)
      (fun a args => a.Canonical (.unaliased table) false → ∀ args',
        resolveArguments literalContext a = some args' →
          Lighter (a.Canonical .direct false) (argsSuffix args) (argsSuffix args'))
      (fun a suffix => a.Canonical (.unaliased table) true → ∀ suffix',
        traitSuffix literalContext a = some suffix' →
          Lighter (a.Canonical .direct true) suffix suffix')
      (fun w a => w.Canonical (.unaliased table) → ∀ b, resolveArg literalContext w = some b →
        Lighter (w.Canonical .direct) a.text b.text)
      (fun w a => w.Canonical (.unaliased table) → ∀ b, resolveBound literalContext w = some b →
        Lighter (w.Canonical .direct) a b) where
  paren _ h := h.elim
  param {p _} hparam := by
    rw [param?_of_nil c hc.params p] at hparam
    cases hparam
  path {_ _ _ path args _} _ hpath hs ih hnamed h u hu := by
    -- the path stands for no alias, so the type keeps its shape
    rw [TypeContext.named, hc.aliases _ _ h.1.1 hpath h.1.2, Option.some.injEq] at hnamed
    rw [← literal, literal_path, resolveLast, resolveLastOf_of_getLast? _ hs] at hu
    obtain ⟨args', hargs', rfl⟩ := Option.map_eq_some_iff.mp hu
    obtain ⟨hplain, harguments⟩ := (segmentsCanonical_iff hs).mp h.2
    rw [← hnamed, text_path, text_path]
    exact ((hc.canonical _ _ h.1.1 hpath).append (ih harguments args' hargs')).imp fun hdirect =>
      ⟨hdirect.1, (segmentsCanonical_iff hs).mpr ⟨hplain, hdirect.2⟩⟩
  reference ih h u hu := by
    obtain ⟨v, hv, rfl⟩ := resolveType_reference_iff.mp hu
    rw [ResolvedType.text, ResolvedType.text]
    exact ((ih h.2 v hv).before _).imp fun hdirect => ⟨fun _ _ => trivial, hdirect⟩
  pointer ih h u hu := by
    obtain ⟨v, hv, rfl⟩ := resolveType_pointer_iff.mp hu
    rw [ResolvedType.text, ResolvedType.text]
    exact (ih h v hv).before _
  traitObject ih h u hu := by
    obtain ⟨bs, hbs, rfl⟩ := resolveType_traitObject_iff.mp hu
    rw [ResolvedType.text, ResolvedType.text]
    exact (((lighter_bounds ih h.2.2.2 hbs).intercalate " + ").before _).imp
      fun hdirect => ⟨h.1, h.2.1, trivial, hdirect⟩
  tuple {elems _ ts} ih h u hu := by
    obtain ⟨us, hus, rfl⟩ := resolveType_tuple_iff.mp hu
    -- both tuples have the comma of a single element, or neither has
    rw [ResolvedType.text, ResolvedType.text, ← ih.length_eq, ← resolveTypes_length hus]
    exact ((((lighter_types ih h.2 hus).intercalate ", ").before _).after _).imp
      fun hdirect => ⟨h.1, hdirect⟩
  array ih h u hu := by
    obtain ⟨v, hv, rfl⟩ := resolveType_array_iff.mp hu
    rw [ResolvedType.text, ResolvedType.text]
    exact (((((ih h.1 v hv).before _).after _).after _).after _).imp
      fun hdirect => ⟨hdirect, trivial⟩
  slice ih h u hu := by
    obtain ⟨v, hv, rfl⟩ := resolveType_slice_iff.mp hu
    rw [ResolvedType.text, ResolvedType.text]
    exact ((ih h v hv).before _).after _
  function _ u hu := by
    rw [resolveType] at hu
    cases hu
    exact Lighter.refl trivial _
  never _ u hu := by
    rw [resolveType] at hu
    cases hu
    exact Lighter.refl trivial _
  noArguments _ args' hargs' := by
    cases hargs'
    exact Lighter.refl trivial _
  angle {_ args _ as} ih h bs hbs := by
    rw [resolveArguments] at hbs
    -- brackets stand in both texts
    have hne := h.2.2.1 rfl
    have has : as ≠ [] := fun hnil => hne (List.forall₂_nil_right_iff.mp (hnil ▸ ih))
    have hbsne : bs ≠ [] := fun hnil => hne (List.forall₂_nil_right_iff.mp
      (hnil ▸ resolveArgs_iff.mp hbs))
    rw [argsSuffix_of_ne_nil has, argsSuffix_of_ne_nil hbsne]
    exact ((((lighter_args ih h.2.2.2 hbs).intercalate ", ").before _).after _).imp
      fun hdirect => ⟨h.1, h.2.1, h.2.2.1, hdirect⟩
  noSuffix _ suffix' hsuffix' := by
    cases hsuffix'
    exact Lighter.refl trivial _
  angleSuffix ih h suffix' hsuffix' := by
    obtain ⟨bs, hbs, rfl⟩ := traitSuffix_angle_iff.mp hsuffix'
    exact ((((lighter_args ih h.2.2.2 hbs).intercalate ", ").before _).after _).imp
      fun hdirect => ⟨h.1, h.2.1, h.2.2.1, hdirect⟩
  callSuffix ih h suffix' hsuffix' := by
    obtain ⟨us, hus, rfl⟩ := traitSuffix_call_iff.mp hsuffix'
    exact ((((lighter_types ih h.2.2 hus).intercalate ", ").before _).after _).imp
      fun hdirect => ⟨h.1, h.2.1, hdirect⟩
  outputSuffix ihinputs ihoutput h suffix' hsuffix' := by
    obtain ⟨us, hus, u, hu, rfl⟩ := traitSuffix_output_iff.mp hsuffix'
    have hinputs := (lighter_types ihinputs h.2.2.1 hus).intercalate ", "
    exact (((hinputs.before _).after _).append (ihoutput h.2.2.2 u hu)).imp
      fun hdirect => ⟨h.1, h.2.1, hdirect.1, hdirect.2⟩
  typeArgument ih h b hb := by
    obtain ⟨u, hu, rfl⟩ := Option.map_eq_some_iff.mp hb
    rw [GenericArg.text, GenericArg.text]
    exact ih h u hu
  lifetimeArgument _ b hb := by
    cases hb
    exact Lighter.refl trivial _
  constArgument _ b hb := by
    cases hb
    exact Lighter.refl trivial _
  binding ih h b hb := by
    obtain ⟨u, hu, rfl⟩ := Option.map_eq_some_iff.mp hb
    rw [GenericArg.text, GenericArg.text]
    exact ((ih h.2.2 u hu).before _).imp fun hdirect => ⟨trivial, h.2.1, hdirect⟩
  lifetimeBound _ b hb := by
    cases hb
    exact Lighter.refl trivial _
  trait {_ _ _ _ segments s path suffix} hpath hs ih h b hb := by
    obtain ⟨path', hpath', suffix', hsuffix', rfl⟩ := resolveBound_trait_iff.mp hb
    cases hpath'
    rw [suffixOfLast_of_getLast? _ hs] at hsuffix'
    obtain ⟨hplain, harguments⟩ := (segmentsCanonical_iff hs).mp h.2.2.2
    have hsuffix := ih harguments suffix' hsuffix'
    exact (((hc.canonical _ _ h.2.2.1 hpath).before _).append hsuffix).imp fun hdirect =>
      ⟨h.1, h.2.1, hdirect.1, (segmentsCanonical_iff hs).mpr ⟨hplain, hdirect.2⟩⟩

end

/-! ## Types of a file -/

section

variable {root scope : Scope} {items : List Item} {p : NamePath} {path : String}

theorem lighter_canonical {table : SymbolTable} (hkeeps : table.KeepsPrimitives scope)
    (hp : p.IsCanonical) (h : table.canonical maxSteps scope false p = some path) :
    Lighter p.Direct path p.text := by
  by_cases hdirect : p.Direct
  · rw [canonical_of_direct hkeeps hp.segments_ne_nil hdirect] at h
    cases h
    exact Lighter.refl hdirect _
  · rcases canonical_of_not_direct hkeeps hp hdirect h with ⟨hlighter, -⟩
    constructor
    · omega
    · intro heq
      omega

/-- The aliases of a file are below the crate root, so no absolute path is one of them. -/
theorem alias?_absolute (rest : String) :
    (SymbolTable.ofItems root items).alias? ("::" ++ rest) = none := by
  cases halias : (SymbolTable.ofItems root items).alias? ("::" ++ rest) with
  | none => rfl
  | some a =>
    rcases (SymbolTable.declaredIn_of_alias? halias).path with ⟨name, hname⟩
    have hhead := congrArg (fun path : String => path.toList.head?) hname
    simp [Scope.join, Scope.path, Scope.segments, String.toList_intercalate] at hhead

theorem alias?_canonical (hkeeps : (SymbolTable.ofItems root items).KeepsPrimitives scope)
    (hp : p.IsCanonical)
    (h : (SymbolTable.ofItems root items).canonical maxSteps scope false p = some path)
    (halias : (SymbolTable.ofItems root items).alias? p.text = none) :
    (SymbolTable.ofItems root items).alias? path = none := by
  by_cases hdirect : p.Direct
  · rw [canonical_of_direct hkeeps hp.segments_ne_nil hdirect] at h
    cases h
    exact halias
  · rcases canonical_of_not_direct hkeeps hp hdirect h with ⟨-, rest, rfl⟩
    exact alias?_absolute rest

/-- A type without aliases is resolved to what it spells out exactly if its paths are direct. -/
theorem resolve_eq_literal_iff (hkeeps : (SymbolTable.ofItems root items).KeepsPrimitives scope)
    {w : SourceType} {t : ResolvedType} (hw : literal w = some t)
    (h : w.Canonical (.unaliased (.ofItems root items))) :
    (SymbolTable.ofItems root items).resolve scope w = some t ↔ w.Canonical .direct := by
  constructor
  · intro hresolve
    rw [SymbolTable.resolve, maxSteps, SymbolTable.resolveIn] at hresolve
    -- the same type twice: the weights are equal, so every path is direct
    refine ((TypeContext.Lightens.resolvedCases ⟨rfl, ?_, ?_⟩).type hresolve h t hw).of_eq rfl
    · intro p path hp hpath
      exact lighter_canonical hkeeps hp hpath
    · intro p path hp hpath halias
      exact alias?_canonical hkeeps hp hpath halias
  · intro hdirect
    rw [resolve_of_direct hkeeps h hdirect, hw]

end

end Memberwise
