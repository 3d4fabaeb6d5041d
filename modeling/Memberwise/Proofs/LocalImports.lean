import Memberwise.Proofs.Facades
import Memberwise.Proofs.Gaps
import Memberwise.Proofs.Lexing

/-!
# Memberwise.Proofs.LocalImports — imports from modules of the file

`use crate::m::X` and `use crate::m::*` both make `X` a name of the module that they are in. The
first makes it stand for the path that is written, `crate::m::X`, whatever `m` does with the name
(`lookup_named`). The second looks the name up in `m`, provided that the path of `m` is recognised
as one (`lookup_glob`).

So they agree on what `m` declares, but not on what `m` imports in its turn; and a path is
recognised only if its names are plain, which not all identifiers are (`named_eq_glob_iff`).
-/

namespace Memberwise

open Source

/-! ## Reading the path of a module -/

theorem Text.trimBlank_of_not_blank {cs : List Char} (h : ∀ c ∈ cs, ¬isBlank c = true) :
    trimBlank cs = cs := by
  have hkeep : ∀ {ds : List Char}, (∀ c ∈ ds, ¬isBlank c = true) → ds.dropWhile isBlank = ds := by
    intro ds hds
    cases ds with
    | nil => rfl
    | cons d ds => exact List.dropWhile_cons_of_neg (hds d List.mem_cons_self)
  rw [trimBlank, hkeep h, hkeep (by simpa using h), List.reverse_reverse]

namespace Token

theorem isSpace_of_isIdentContinue {c : Char} (h : Text.isIdentContinue c = true) :
    isSpace c = false := by
  rw [Bool.eq_false_iff]
  intro hspace
  rcases has_eq_false_of_isSpace hspace with ⟨hstart, hextra, -, -⟩
  rw [Text.isIdentContinue, hstart, hextra] at h
  cases h

/-- A word holds no white space and no colon. -/
theorem IsWord.isSpace_eq_false {cs : List Char} (h : IsWord cs) : ∀ c ∈ cs, isSpace c = false := by
  rcases h with ⟨first, more, rfl, hfirst, hmore⟩
  intro c hc
  rcases List.mem_cons.mp hc with rfl | hc
  · exact isSpace_of_isIdentStart hfirst
  · exact isSpace_of_isIdentContinue (hmore c hc)

theorem IsWord.colon_notMem {cs : List Char} (h : IsWord cs) : ':' ∉ cs := by
  rcases h with ⟨first, more, rfl, hfirst, hmore⟩
  intro hc
  rcases List.mem_cons.mp hc with rfl | hc
  · exact absurd hfirst (by decide)
  · exact absurd (hmore ':' hc) (by decide)

theorem IsWord.trimBlank {cs : List Char} (h : IsWord cs) : Text.trimBlank cs = cs := by
  refine Text.trimBlank_of_not_blank fun c hc hblank => ?_
  have hspace := h.isSpace_eq_false c hc
  rw [isSpace, hblank] at hspace
  cases hspace

end Token

theorem splitColons_intercalate {first : String} {rest : List String}
    (h : ∀ name ∈ first :: rest, ':' ∉ name.toList) :
    Text.splitColons ("::".intercalate (first :: rest)).toList =
      (first :: rest).map String.toList := by
  induction rest generalizing first with
  | nil => simpa using NamePath.splitColons_of_notMem (h first List.mem_cons_self)
  | cons second rest ih =>
    have hrest := ih fun name hname => h name (List.mem_cons_of_mem _ hname)
    rw [List.map_cons, ← hrest, ← NamePath.splitColons_append (h first List.mem_cons_self),
      String.intercalate_cons_cons]
    simp

/-- The path of a module is recognised exactly if its names are plain, provided that they have no
colons and no white space at their ends. -/
theorem Scope.parse_path_of_trimmed {s : Scope} (hcolon : ∀ name ∈ s.inner, ':' ∉ name.toList)
    (htrim : ∀ name ∈ s.inner, Text.trimBlank name.toList = name.toList) :
    Scope.parse s.path =
      if (s.inner.all fun name => isPlainName name.toList) = true then some s else none := by
  have hpieces : (Text.splitColons s.path.toList).map Text.trimBlank =
      s.segments.map String.toList := by
    -- No segment has a colon, so cutting the path gives the segments back.
    rw [Scope.path, Scope.segments,
      splitColons_intercalate (List.forall_mem_cons.mpr ⟨by decide, hcolon⟩), List.map_map]
    apply List.map_congr_left
    intro name hname
    rcases List.mem_cons.mp hname with rfl | hname
    · decide
    · exact htrim name hname
  have hinner : (s.inner.map String.toList).map String.ofList = s.inner := by
    simp [Function.comp_def]
  rw [parse, hpieces, segments, List.map_cons]
  simp [hinner, List.all_map, Function.comp_def]

/-- The path of a module whose names are words is recognised exactly if the names are plain. -/
theorem Scope.parse_path {s : Scope} (h : ∀ name ∈ s.inner, Token.IsWord name.toList) :
    Scope.parse s.path =
      if (s.inner.all fun name => isPlainName name.toList) = true then some s else none :=
  parse_path_of_trimmed (fun name hname => (h name hname).colon_notMem)
    fun name hname => (h name hname).trimBlank

/-- A plain name holds letters, numbers and underscores only. -/
theorem Scope.all_of_isPlainName {cs : List Char} (h : isPlainName cs = true) :
    ∀ c ∈ cs, Text.isAlphanumeric c = true ∨ c = '_' := by
  cases cs with
  | nil => cases h
  | cons first rest =>
    simp only [isPlainName, Bool.and_eq_true, List.all_eq_true, Bool.or_eq_true,
      beq_iff_eq] at h
    obtain ⟨⟨hfirst, -⟩, hrest⟩ := h
    intro c hc
    rcases List.mem_cons.mp hc with rfl | hc
    · refine hfirst.imp_left fun halphabetic => ?_
      rw [Text.isAlphanumeric, halphabetic, Bool.true_or]
    · exact hrest c hc

/-- The path of a module with plain names is recognised. -/
theorem Scope.parse_path_of_plain {s : Scope}
    (h : ∀ name ∈ s.inner, isPlainName name.toList = true) : Scope.parse s.path = some s := by
  have hcolon : Text.isAlphanumeric ':' = false := by decide
  rw [parse_path_of_trimmed, if_pos (List.all_eq_true.mpr h)]
  -- Names of letters, digits and underscores have no colon to cut at and no blank to trim.
  · intro name hname hmem
    rcases all_of_isPlainName (h name hname) ':' hmem with hletter | hunderscore
    · rw [hcolon] at hletter
      cases hletter
    · revert hunderscore
      decide
  · intro name hname
    refine Text.trimBlank_of_not_blank fun c hc hblank => ?_
    have hspace : Token.isSpace c = true := by
      rw [Token.isSpace, hblank, Bool.true_or, Bool.true_or]
    rcases Token.has_eq_false_of_isSpace hspace with ⟨-, -, halphabetic, hnumeric⟩
    rcases all_of_isPlainName (h name hname) c hc with hletter | rfl
    · rw [Text.isAlphanumeric, Text.isAlphabetic, Text.isNumeric, halphabetic, hnumeric] at hletter
      cases hletter
    · revert hblank
      decide

/-! ## What the two imports bind -/

/-- The names of a file with the import of all names of a module in its gap. -/
def Gap.importingAll (g : Gap) (root : Scope) (path : List Ident) : SymbolTable :=
  .ofItems root (g.fill (.use false (.along (.plain "crate" :: path) .glob)))

/-- The module to which a path leads from the crate root. -/
def Scope.ofIdents (path : List Ident) : Scope := ⟨path.map Ident.name⟩

theorem Scope.join_ofIdents (path : List Ident) (name : String) :
    (ofIdents path).join name = extend "crate" (path.map Ident.name ++ [name]) := by
  rw [join_eq_extend, path_eq_extend, extend_extend, ofIdents]

theorem bindings_importingAll (path : List Ident) :
    (UseTree.along (.plain "crate" :: path) .glob).bindings false [] =
      [.glob ⟨false, "crate" :: path.map Ident.name⟩] := by
  rw [bindings_along]
  rfl

/-- A path from the crate root goes through no facade. -/
theorem definingPath_crate (rest : List String) :
    definingPath (extend "crate" rest) = extend "crate" rest := by
  apply definingPath_of_head
  by_cases hrest : rest = []
  · rw [hrest, extend_nil]
    decide
  · rw [extend_of_ne_nil _ hrest]
    simp

theorem definingPath_join (s : Scope) (name : String) :
    definingPath (s.join name) = s.join name := by
  rw [Scope.join_eq_extend, Scope.path_eq_extend, extend_extend, definingPath_crate]

theorem Scope.head?_path (s : Scope) : s.path.toList.head? = some 'c' := by
  rw [Scope.path_eq_extend]
  by_cases hinner : s.inner = []
  · rw [hinner, extend_nil]
    decide
  · rw [extend_of_ne_nil _ hinner]
    simp

theorem Scope.head?_join (s : Scope) (name : String) : (s.join name).toList.head? = some 'c' := by
  rw [Scope.join, String.append_assoc, String.toList_append, List.head?_append, s.head?_path]
  rfl

/-- No external module has the path of a module of the file. -/
theorem knownExport?_path (s : Scope) (name : String) : knownExport? s.path name = none := by
  have hmodules : ∀ entry ∈ knownModules, entry.1.toList.head? = some ':' := by decide
  have hhead : s.path.toList.head? = some 'c' := s.head?_path
  have hlookup : knownModules.lookup s.path = none := by
    rw [List.lookup_eq_none_iff]
    intro entry hentry
    rw [bne_iff_ne]
    intro heq
    have hcolon := hmodules entry hentry
    rw [← heq, hhead] at hcolon
    cases hcolon
  rw [knownExport?, hlookup]
  rfl

section

variable {root : Scope} {g : Gap} {path : List Ident} {x : Ident}

/-- A named import stands for the path that is written. -/
theorem lookup_named (hcounts : g.counts root = true) (hx : x.name ≠ "self")
    (hdeclares : g.others.declares x.name = false) (himport : g.others.import? x.name = none)
    (steps : Nat) :
    (g.importing root false (.plain "crate" :: path) x none).lookup (steps + 2) (g.scope root)
        x.name = some ((Scope.ofIdents path).join x.name) := by
  have himported := @lookup_importing root g hcounts (.plain "crate" :: path) x none hx nofun
    hdeclares himport false steps
  rw [Scope.join_ofIdents, ← definingPath_crate]
  exact himported

/-- A glob that leads to a module of the file whose path is recognised brings in what the name
stands for there. -/
theorem viaGlob_of_parse {t : SymbolTable} {m : Scope} (hparse : Scope.parse m.path = some m)
    (hm : (t.module? m).isSome = true) (steps : Nat) (s : Scope) (name : String) :
    t.viaGlob steps s name ⟨false, "crate" :: m.inner⟩ = t.lookup steps m name := by
  rw [SymbolTable.viaGlob, SymbolTable.throughGlob, canonicalWith_crate, definingPath_crate,
    ← Scope.path_eq_extend, Option.bind_eq_bind, Option.bind_some, hparse]
  exact if_pos hm

/-- A glob that leads to a module of the file brings in what the name stands for there, if the path
of the module is recognised. -/
theorem viaGlob_crate {t : SymbolTable} {m : Scope}
    (hwords : ∀ name ∈ m.inner, Token.IsWord name.toList) (hm : (t.module? m).isSome = true)
    (steps : Nat) (s : Scope) (name : String) :
    t.viaGlob steps s name ⟨false, "crate" :: m.inner⟩ =
      if (m.inner.all fun name => Scope.isPlainName name.toList) = true then t.lookup steps m name
      else none := by
  have hparse := Scope.parse_path hwords
  -- A path that does not parse is tried as a known module, but none of those starts with `crate`.
  by_cases hplain : (m.inner.all fun name => Scope.isPlainName name.toList) = true
  · rw [if_pos hplain] at hparse ⊢
    exact viaGlob_of_parse hparse hm steps s name
  · rw [if_neg hplain] at hparse ⊢
    rw [SymbolTable.viaGlob, SymbolTable.throughGlob, canonicalWith_crate, definingPath_crate,
      ← Scope.path_eq_extend, Option.bind_eq_bind, Option.bind_some, hparse]
    exact knownExport?_path m name

/-- A glob gives a name that comes in no other way the meaning that it has in the module of the
glob. -/
theorem lookup_glob (hcounts : g.counts root = true)
    (hwords : ∀ i ∈ path, Token.IsWord i.name.toList)
    (hdeclares : g.others.declares x.name = false) (himport : g.others.import? x.name = none)
    {steps : Nat} (hsteps : globSteps ≤ steps + 2)
    (hglobs : ∀ glob ∈ g.others.globs,
      (g.importingAll root path).viaGlob steps (g.scope root) x.name glob = none)
    (hm : ((g.importingAll root path).module? (.ofIdents path)).isSome = true) :
    (g.importingAll root path).lookup (steps + 2) (g.scope root) x.name =
      if (path.all fun i => Scope.isPlainName i.name.toList) = true then
        (g.importingAll root path).lookup steps (.ofIdents path) x.name
      else none := by
  have hitem : ModuleSymbols.ofItems [.use false (.along (.plain "crate" :: path) .glob)] =
      ⟨[], [⟨false, "crate" :: path.map Ident.name⟩], [], []⟩ := by
    simp [ModuleSymbols.ofItems, itemBindings, bindings_importingAll, Binding.named?,
      Binding.glob?, declaredType?, aliasName?, moduleName?]
  have hmodule := Gap.module?_fill hcounts false (.along (.plain "crate" :: path) .glob)
  have himports : (ModuleSymbols.ofItems
      (g.block (.use false (.along (.plain "crate" :: path) .glob)))).import? x.name = none := by
    rw [Gap.import?_block_of_others g himport, hitem]
    rfl
  have hnames : ∀ name ∈ (Scope.ofIdents path).inner, Token.IsWord name.toList := by
    intro name hname
    rcases List.mem_map.mp hname with ⟨i, hi, rfl⟩
    exact hwords i hi
  -- of all globs of the module, only this one can bring the name in
  rw [Gap.globs_others] at hglobs
  have hbefore := List.findSome?_eq_none_iff.mpr fun glob h =>
    hglobs glob (List.mem_append_left _ h)
  have hafter := List.findSome?_eq_none_iff.mpr fun glob h =>
    hglobs glob (List.mem_append_right _ h)
  have hthis := viaGlob_crate hnames hm steps (g.scope root) x.name
  rw [Gap.importingAll,
    SymbolTable.lookup_globs hmodule ((Gap.declares_block g _ _ _).trans hdeclares) himports hsteps,
    Gap.globs_block, hitem, List.findSome?_append, List.findSome?_append, ← Gap.importingAll,
    hbefore, hafter, Option.none_or, Option.or_none, List.findSome?_singleton]
  exact hthis.trans (by simp [Scope.ofIdents, List.all_map, Function.comp_def])

end

/-! ## When they agree -/

/-- A type that is a single name is what the name stands for, or the target of an alias. -/
theorem SymbolTable.resolve_bare {t : SymbolTable} {s : Scope} {x : Ident} {item : String}
    (h : t.canonical maxSteps s false ⟨false, [x.name]⟩ = some item) :
    t.resolve s (.path (.mk false [.mk x .none])) =
      match t.alias? item with
      | some a => (a.bind? []).bind fun bound => t.resolveIn (maxSteps - 1) a.scope bound a.target
      | none => some (.path item [] (kindOf item)) := by
  unfold SymbolTable.resolve maxSteps
  rw [SymbolTable.resolveIn, resolveType_path _ rfl]
  exact congrArg (Option.bind · _) h

/-- A name that means the same in two tables is the same type, if aliases have the same targets. -/
theorem resolve_bare_eq {t u : SymbolTable} {s : Scope} (h : t.AgreeBut s u) {x : Ident}
    {item : String} (ht : t.canonical maxSteps s false ⟨false, [x.name]⟩ = some item)
    (hu : u.canonical maxSteps s false ⟨false, [x.name]⟩ = some item)
    (hitem : t.alias? item = none ∨
      t.NoGlobTo s ∧ ∀ path a, t.alias? path = some a → a.scope ≠ s) :
    t.resolve s (.path (.mk false [.mk x .none])) =
      u.resolve s (.path (.mk false [.mk x .none])) := by
  have halias : t.alias? item = u.alias? item := by
    unfold SymbolTable.alias?
    rw [h.aliases]
  rw [SymbolTable.resolve_bare ht, SymbolTable.resolve_bare hu, ← halias]
  cases hfound : t.alias? item with
  | none => rfl
  | some a =>
    -- Both tables find one alias, and its target is resolved where no import has changed.
    rcases hitem with hnone | ⟨hglobs, hscopes⟩
    · rw [hnone] at hfound
      cases hfound
    · have htargets := resolveIn_eq h hglobs hscopes (maxSteps - 1) a.scope
      simp only [htargets _ a.target (by decide) (hscopes item a hfound)]

/-- An attribute means the same in two tables that look up its first name alike. -/
theorem attribute?_congr {t u : SymbolTable} {s : Scope} {p : SourcePath} {first : String}
    {rest : List String} (hp : p.namePath = ⟨false, first :: rest⟩)
    (h : t.lookup maxSteps s first = u.lookup maxSteps s first) :
    t.attribute? p s = u.attribute? p s := by
  have habsolute : p.absolute = false := congrArg NamePath.absolute hp
  have hnames : p.names = first :: rest := congrArg NamePath.segments hp
  unfold SymbolTable.attribute?
  rw [habsolute, hnames, hp, SymbolTable.canonical_congr h]
  cases rest with
  | nil => simp only [h]
  | cons next rest => rfl

section

variable {root : Scope} {g : Gap} {path : List Ident} {x : Ident} {m : ModuleSymbols}

/-- The glob finds what is written in the named import exactly if the path of the module is
recognised and the name stands for itself there. -/
theorem lookup_named_eq_lookup_glob_iff (hcounts : g.counts root = true)
    (hwords : ∀ i ∈ path, Token.IsWord i.name.toList) (hx : x.name ≠ "self")
    (hdeclares : g.others.declares x.name = false) (himport : g.others.import? x.name = none)
    (hglobs : ∀ glob ∈ g.others.globs,
      (g.importingAll root path).viaGlob (maxSteps - 2) (g.scope root) x.name glob = none)
    (hm : (g.importingAll root path).module? (.ofIdents path) = some m) :
    (g.importing root false (.plain "crate" :: path) x none).lookup maxSteps (g.scope root) x.name =
        (g.importingAll root path).lookup maxSteps (g.scope root) x.name ↔
      (path.all fun i => Scope.isPlainName i.name.toList) = true ∧
        (m.declares x.name = true ∨
          (g.importingAll root path).lookup (maxSteps - 2) (.ofIdents path) x.name =
            some ((Scope.ofIdents path).join x.name)) := by
  have hnamed : (g.importing root false (.plain "crate" :: path) x none).lookup maxSteps
      (g.scope root) x.name = some ((Scope.ofIdents path).join x.name) :=
    lookup_named hcounts hx hdeclares himport 31
  have hglob := @lookup_glob root g path x hcounts hwords hdeclares himport (maxSteps - 2)
    (by decide) hglobs (by rw [hm]; rfl)
  -- the named import answers as written, so the glob has to give the same
  rw [hnamed, show maxSteps = maxSteps - 2 + 2 from rfl, hglob, Nat.add_sub_cancel]
  by_cases hplain : (path.all fun i => Scope.isPlainName i.name.toList) = true
  · rw [if_pos hplain, eq_comm]
    constructor
    · intro h
      exact ⟨hplain, Or.inr h⟩
    · rintro ⟨-, hdeclared | hitself⟩
      · exact SymbolTable.lookup_declared hm hdeclared 30
      · exact hitself
  · rw [if_neg hplain]
    constructor
    · intro h
      cases h
    · rintro ⟨h, -⟩
      exact absurd h hplain

/-- A named import and a glob import of a module of the file give a name the same meaning, exactly
if the names of the module path are plain and the module declares the name, or its import of the
name leads back to itself. Then they do so in attributes and types as well. -/
theorem named_eq_glob_iff (hcounts : g.counts root = true)
    (hwords : ∀ i ∈ path, Token.IsWord i.name.toList) (hx : x.name ∉ pathWords)
    (hdeclares : g.others.declares x.name = false) (himport : g.others.import? x.name = none)
    (hglobs : ∀ glob ∈ g.others.globs,
      (g.importingAll root path).viaGlob (maxSteps - 2) (g.scope root) x.name glob = none)
    (hm : (g.importingAll root path).module? (.ofIdents path) = some m) :
    let t := g.importing root false (.plain "crate" :: path) x none
    let u := g.importingAll root path
    let s := g.scope root
    let item := (Scope.ofIdents path).join x.name
    let agree := (path.all fun i => Scope.isPlainName i.name.toList) = true ∧
      (m.declares x.name = true ∨
        u.lookup (maxSteps - 2) (.ofIdents path) x.name = some item)
    (t.lookup maxSteps s x.name = u.lookup maxSteps s x.name ↔ agree) ∧
    (agree →
      (∀ alone rest, t.canonical maxSteps s alone ⟨false, x.name :: rest⟩ =
        u.canonical maxSteps s alone ⟨false, x.name :: rest⟩) ∧
      (∀ p rest, p.namePath = ⟨false, x.name :: rest⟩ → t.attribute? p s = u.attribute? p s) ∧
      (t.alias? item = none ∨
          t.NoGlobTo s ∧ (∀ path a, t.alias? path = some a → a.scope ≠ s) →
        t.resolve s (.path (.mk false [.mk x .none])) =
          u.resolve s (.path (.mk false [.mk x .none])))) := by
  intro t u s item agree
  have hself : x.name ≠ "self" := (ne_of_notMem_pathWords hx).2.1
  have hiff : t.lookup maxSteps s x.name = u.lookup maxSteps s x.name ↔ agree :=
    lookup_named_eq_lookup_glob_iff hcounts hwords hself hdeclares himport hglobs hm
  refine ⟨hiff, fun hagree => ?_⟩
  have hlookup := hiff.mpr hagree
  have hcanonical := SymbolTable.canonical_congr hlookup
  refine ⟨hcanonical, fun p rest hp => attribute?_congr hp hlookup, fun hitem => ?_⟩
  -- in a type the bare name goes on from what it means, unless an alias stands there
  have hbare : t.canonical maxSteps s false ⟨false, [x.name]⟩ = some item := by
    have hfound : t.canonical maxSteps s false ⟨false, [x.name]⟩ = some (definingPath item) :=
      canonicalWith_found hx (lookup_named hcounts hself hdeclares himport 31)
    rw [hfound]
    exact congrArg some (definingPath_join _ _)
  exact resolve_bare_eq (Gap.agreeBut_fill root g _ _ _ _) hbare
    ((hcanonical false []).symm.trans hbare) hitem

end

/-- A file with two modules and a gap in the second: `mod tags { struct Tag; }` and
`mod models { … struct Person; }`. -/
def taggedGap : Gap :=
  .inside [.module (.plain "tags") (some [.declared (.plain "Tag")])] (.plain "models")
    (.here [] [.declared (.plain "Person")]) []

theorem named_eq_glob_tag :
    let t := taggedGap.importing .root false [.plain "crate", .plain "tags"] (.plain "Tag") none
    let u := taggedGap.importingAll .root [.plain "tags"]
    t.lookup maxSteps ⟨["models"]⟩ "Tag" = some "crate::tags::Tag" ∧
      t.lookup maxSteps ⟨["models"]⟩ "Tag" = u.lookup maxSteps ⟨["models"]⟩ "Tag" ∧
      t.resolve ⟨["models"]⟩ (.path (.mk false [.mk (.plain "Tag") .none])) =
        u.resolve ⟨["models"]⟩ (.path (.mk false [.mk (.plain "Tag") .none])) := by
  intro t u
  have hplain : ([Ident.plain "tags"].all fun i => Scope.isPlainName i.name.toList) = true := by
    decide
  have hagree := @named_eq_glob_iff .root taggedGap [.plain "tags"] (.plain "Tag")
    (.ofItems [.declared (.plain "Tag")]) (by decide) (by decide) (by decide) (by decide)
    (by decide) (by decide) rfl
  have hlookup := hagree.1.mpr ⟨hplain, Or.inl (by decide)⟩
  have hresolve := (hagree.2 ⟨hplain, Or.inl (by decide)⟩).2.2 (Or.inl rfl)
  exact ⟨by decide +kernel, hlookup, hresolve⟩

/-- `mod m { pub use ::propgroup::PropertyMap; }`, with a gap behind it. -/
def reexportGap : Gap :=
  .here [.module (.plain "m")
    (some [.use true (importTree [.plain "propgroup"] (.plain "PropertyMap") none)])] []

/-- `mod col·lec { struct Tag; }`, with a gap behind it. -/
def dottedGap : Gap :=
  .here [.module (.plain "col·lec") (some [.declared (.plain "Tag")])] []

/-- Only the glob finds out where a name comes from that the module imports in its turn. Only the
named import finds a name of a module whose name holds a middle dot, though it is an identifier. -/
theorem named_ne_glob_reexport :
    (reexportGap.importing .root false [.plain "crate", .plain "m"] (.plain "PropertyMap")
        none).lookup maxSteps .root "PropertyMap" = some "crate::m::PropertyMap" ∧
      (reexportGap.importingAll .root [.plain "m"]).lookup maxSteps .root "PropertyMap" =
        some "::propgroup::PropertyMap" ∧
      Token.IsWord "col·lec".toList ∧
      (dottedGap.importing .root false [.plain "crate", .plain "col·lec"] (.plain "Tag")
        none).lookup maxSteps .root "Tag" = some "crate::col·lec::Tag" ∧
      (dottedGap.importingAll .root [.plain "col·lec"]).lookup maxSteps .root "Tag" = none := by
  decide +kernel

end Memberwise
