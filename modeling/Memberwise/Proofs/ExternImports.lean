import Memberwise.Proofs.Facades
import Memberwise.Proofs.Gaps

/-!
# Memberwise.Proofs.ExternImports — imports from external crates

Two laws on `use` declarations that lead into external crates, and where they end.

* A path may be written in full, or its start may be imported and the path go on from there. A
  facade in the imported part is replaced at the import, and the path that goes on from there can go
  through a second one; written in full, it goes through the first only. So the two agree exactly
  if that second facade is not there (`imported_path_eq_written_iff`).
* The leading `::` may be left out, as long as the crate is not itself the name that is bound. In
  `use k::p as k` the crate is looked up under the name that is being bound, and each step of the
  look-up appends `p` once more, until the steps are used up (`leading_colons_optional_iff`).
-/

namespace Memberwise

open Source

/-- An absolute path stands for itself, but for a facade. -/
theorem canonicalWith_absolute {find : String → Option String} {scope : Scope} {alone : Bool}
    {segments : List String} (h : segments ≠ []) :
    canonicalWith find scope alone ⟨true, segments⟩ =
      some (definingPath (NamePath.text ⟨true, segments⟩)) := by
  rcases List.exists_cons_of_ne_nil h with ⟨first, rest, rfl⟩
  simp [canonicalWith, NamePath.text]

/-- An import with leading colons needs no other look-up. -/
theorem lookup_importing_absolute {root : Scope} {g : Gap} (hcounts : g.counts root = true)
    (outer : List Ident) {last : Ident} {new : Option Ident} (hlast : last.name ≠ "self")
    (hnew : ∀ i, new = some i → i.name ≠ "_")
    (hdeclares : g.others.declares (new.getD last).name = false)
    (himport : g.others.import? (new.getD last).name = none) (steps : Nat) :
    (g.importing root true outer last new).lookup (steps + 2) (g.scope root)
        (new.getD last).name =
      some (definingPath (NamePath.text ⟨true, outer.map Ident.name ++ [last.name]⟩)) := by
  rw [lookup_importing hcounts outer hlast hnew hdeclares himport true steps]
  exact canonicalWith_absolute (List.append_ne_nil_of_right_ne_nil _ (List.cons_ne_nil _ _))

/-! ## Paths that go on from an import -/

/-- A path that goes on from an import leads through the facades of the import first. -/
theorem canonical_imported {root : Scope} {g : Gap} (hcounts : g.counts root = true)
    (outer : List Ident) {last : Ident} (hlast : last.name ∉ pathWords)
    (hdeclares : g.others.declares last.name = false)
    (himport : g.others.import? last.name = none) (rest : List String) :
    (g.importing root true outer last none).canonical maxSteps (g.scope root) false
        ⟨false, last.name :: rest⟩ =
      some (definingPath (extend
        (definingPath (NamePath.text ⟨true, outer.map Ident.name ++ [last.name]⟩)) rest)) := by
  have hself : last.name ≠ "self" := (ne_of_notMem_pathWords hlast).2.1
  have hlookup := @lookup_importing_absolute root g hcounts outer last none hself nofun hdeclares
    himport 31
  exact canonicalWith_found hlast hlookup

/-- Replacing facades before and after a path goes on is the same as replacing one in the whole
path, exactly if there is none in the first part or no second one in the whole path. -/
theorem definingPath_extend_iff (path : String) (rest : List String) :
    definingPath (extend (definingPath path) rest) = definingPath (extend path rest) ↔
      definingPath path = path ∨
        definingPath (definingPath (extend path rest)) = definingPath (extend path rest) := by
  by_cases hpath : definingPath path = path
  · simp [hpath]
  · rw [definingPath_extend hpath rest]
    simp [hpath]

theorem namePath_append (absolute : Bool) (outer : List Ident) (inner : List PathSegment) :
    (SourcePath.mk absolute (outer.map (.mk · .none) ++ inner)).namePath =
      ⟨absolute, outer.map Ident.name ++ inner.map fun s => s.name.name⟩ := by
  have hnames : ((outer.map (PathSegment.mk · .none) ++ inner).map fun s => s.name.name) =
      outer.map Ident.name ++ inner.map fun s => s.name.name := by
    rw [List.map_append, List.map_map]
    rfl
  exact congrArg (NamePath.mk absolute) hnames

theorem resolveLastOf_append (c : TypeContext) (outer : List PathSegment) {inner : List PathSegment}
    (h : inner ≠ []) : resolveLastOf c (outer ++ inner) = resolveLastOf c inner := by
  induction outer with
  | nil => rfl
  | cons segment outer ih =>
    rcases List.exists_cons_of_ne_nil (List.append_ne_nil_of_right_ne_nil outer h) with
      ⟨next, rest, hnext⟩
    rw [← ih, List.cons_append, hnext, resolveLastOf]
    simp

/-- Paths to the same place, with the same arguments at their ends, name the same type. -/
theorem resolveType_path_congr {c : TypeContext} (hparams : c.params = []) {p p' : SourcePath}
    (hpath : c.canonical p.namePath = c.canonical p'.namePath)
    (hlast : resolveLast c p = resolveLast c p') :
    resolveType c (.path p) = resolveType c (.path p') := by
  rw [resolveType_path c hparams, resolveType_path c hparams, hpath, hlast]

/-- A path that goes on from an import means the same as the path written in full, exactly if no
facade is replaced in the imported part or the whole path goes through one facade only. Then the
types that are named so are the same, with their kinds. -/
theorem imported_path_eq_written_iff {root : Scope} {g : Gap} (hcounts : g.counts root = true)
    (outer : List Ident) {last : Ident} (hlast : last.name ∉ pathWords)
    (hdeclares : g.others.declares last.name = false)
    (himport : g.others.import? last.name = none) (arguments : PathArguments)
    (rest : List PathSegment) :
    let t := g.importing root true outer last none
    let start := NamePath.text ⟨true, outer.map Ident.name ++ [last.name]⟩
    let short : SourcePath := .mk false (.mk last arguments :: rest)
    let full : SourcePath := .mk true (outer.map (.mk · .none) ++ .mk last arguments :: rest)
    (t.canonical maxSteps (g.scope root) false short.namePath =
        t.canonical maxSteps (g.scope root) false full.namePath ↔
      definingPath start = start ∨
        definingPath (definingPath full.namePath.text) = definingPath full.namePath.text) ∧
    (definingPath start = start ∨
        definingPath (definingPath full.namePath.text) = definingPath full.namePath.text →
      t.resolve (g.scope root) (.path short) = t.resolve (g.scope root) (.path full)) := by
  intro t start short full
  have hfull : full.namePath =
      ⟨true, (outer.map Ident.name ++ [last.name]) ++ rest.map fun s => s.name.name⟩ := by
    rw [namePath_append, List.append_assoc]
    rfl
  have htext : full.namePath.text = extend start (rest.map fun s => s.name.name) := by
    rw [hfull, text_absolute_append (by simp)]
  have hiff : t.canonical maxSteps (g.scope root) false short.namePath =
        t.canonical maxSteps (g.scope root) false full.namePath ↔
      definingPath start = start ∨
        definingPath (definingPath full.namePath.text) = definingPath full.namePath.text := by
    have hwritten : t.canonical maxSteps (g.scope root) false full.namePath =
        some (definingPath full.namePath.text) := by
      rw [hfull]
      exact canonical_absolute (by simp)
    have himported : t.canonical maxSteps (g.scope root) false short.namePath =
        some (definingPath (extend (definingPath start) (rest.map fun s => s.name.name))) :=
      canonical_imported hcounts outer hlast hdeclares himport _
    rw [hwritten, himported, Option.some_inj, htext]
    exact definingPath_extend_iff _ _
  refine ⟨hiff, fun hagree => ?_⟩
  -- both paths end in the same segment, so the arguments are the same as well
  have hlastOf : ∀ c, resolveLast c short = resolveLast c full := by
    intro c
    exact (resolveLastOf_append c _ (List.cons_ne_nil _ _)).symm
  unfold SymbolTable.resolve maxSteps
  rw [SymbolTable.resolveIn, SymbolTable.resolveIn]
  exact resolveType_path_congr rfl (hiff.mpr hagree) (hlastOf _)

/-- The arguments `<u8, u8>`. -/
def bytePair : PathArguments :=
  .angle false
    [.type (.path (.mk false [.mk (.plain "u8") .none])),
     .type (.path (.mk false [.mk (.plain "u8") .none]))] false

/-- The module `models` of a file, with a gap in front of its only type. -/
def modelsGap : Gap := .inside [] (.plain "models") (.here [] [.declared (.plain "Person")]) []

theorem imported_path_eq_written_hashMap :
    let t := modelsGap.importing .root true [.plain "std", .plain "collections"]
      (.plain "hash_map") none
    let short : SourcePath := .mk false [.mk (.plain "hash_map") .none,
      .mk (.plain "HashMap") bytePair]
    let full : SourcePath := .mk true [.mk (.plain "std") .none, .mk (.plain "collections") .none,
      .mk (.plain "hash_map") .none, .mk (.plain "HashMap") bytePair]
    definingPath "::std::collections::hash_map" = "::std::collections::hash_map" ∧
      t.resolve ⟨["models"]⟩ (.path short) = t.resolve ⟨["models"]⟩ (.path full) ∧
      (t.resolve ⟨["models"]⟩ (.path full)).map ResolvedType.text =
        some "::std::collections::HashMap<u8, u8>" := by
  intro t short full
  have hkeep : definingPath "::std::collections::hash_map" = "::std::collections::hash_map" := by
    decide +kernel
  have hagree := (@imported_path_eq_written_iff .root modelsGap (by decide)
    [.plain "std", .plain "collections"] (.plain "hash_map") (by decide) (by decide) (by decide)
    .none [.mk (.plain "HashMap") bytePair]).2 (Or.inl hkeep)
  exact ⟨hkeep, hagree, by decide +kernel⟩

/-- The import ends behind the first of two facades, `alloc::collections`. Going on from it, the
path leads through the second one as well, to a type of another kind. -/
theorem imported_path_ne_written_btreeMap :
    let t := modelsGap.importing .root true [.plain "alloc", .plain "collections"]
      (.plain "btree_map") none
    t.resolve ⟨["models"]⟩ (.path (.mk false [.mk (.plain "btree_map") .none,
        .mk (.plain "BTreeMap") bytePair])) =
      some (.path "::std::collections::BTreeMap"
        [.type (.path "u8" [] .value), .type (.path "u8" [] .value)] .reference) ∧
    t.resolve ⟨["models"]⟩ (.path (.mk true [.mk (.plain "alloc") .none,
        .mk (.plain "collections") .none, .mk (.plain "btree_map") .none,
        .mk (.plain "BTreeMap") bytePair])) =
      some (.path "::std::collections::btree_map::BTreeMap"
        [.type (.path "u8" [] .value), .type (.path "u8" [] .value)] .value) := by
  exact ⟨rfl, rfl⟩

/-! ## The leading colons -/

section Colons

variable {root : Scope} {g : Gap} {k : Ident} {path : List Ident} {last : Ident}
  {new : Option Ident}

/-- The two imports differ in the path of the name that they bind, unless a later import takes the
name. -/
theorem import?_colons (hlast : last.name ≠ "self") (hnew : ∀ i, new = some i → i.name ≠ "_")
    (outer : List Ident) (name : String) :
    let imports (absolute : Bool) := (ModuleSymbols.ofItems
      (g.block (.use absolute (importTree outer last new)))).import? name
    imports false = imports true ∨
      ∀ absolute, imports absolute = some ⟨absolute, outer.map Ident.name ++ [last.name]⟩ := by
  intro imports
  -- Only the name the item binds can be touched by it, and only if no later import binds it too.
  by_cases hname : name = (new.getD last).name
  · cases hafter : (ModuleSymbols.ofItems g.after).import? name with
    | some later =>
      left
      simp [imports, Gap.import?_block, hafter]
    | none =>
      right
      intro absolute
      simp only [imports, Gap.import?_block, hafter, import?_importTree hlast hnew, if_pos hname,
        Option.none_or, Option.some_or]
  · left
    simp [imports, Gap.import?_block, import?_importTree hlast hnew, hname]

/-- If the bound name is not that of the crate, the crate is not found in the module, so it is taken
for an external one at every step, as with the colons. -/
theorem lookup_colons (hcounts : g.counts root = true) (hk : k.name ∉ pathWords)
    (hlast : last.name ≠ "self") (hnew : ∀ i, new = some i → i.name ≠ "_")
    (hglobs : g.others.globs = []) (hdeclares : g.others.declares k.name = false)
    (himport : g.others.import? k.name = none) (hbound : (new.getD last).name ≠ k.name)
    (steps : Nat) (name : String) :
    (g.importing root false (k :: path) last new).lookup steps (g.scope root) name =
      (g.importing root true (k :: path) last new).lookup steps (g.scope root) name := by
  have hm (absolute : Bool) := Gap.module?_fill hcounts absolute (importTree (k :: path) last new)
  have hnoGlobs (absolute : Bool) : (ModuleSymbols.ofItems
      (g.block (.use absolute (importTree (k :: path) last new)))).globs = [] := by
    rw [Gap.globs_others, List.append_eq_nil_iff] at hglobs
    rw [Gap.globs_block, globs_importTree hlast hnew, hglobs.1, hglobs.2]
    rfl
  -- the crate itself has no name in the module
  have hcrate (steps : Nat) :
      (g.importing root false (k :: path) last new).lookup steps (g.scope root) k.name = none := by
    apply SymbolTable.lookup_unbound (hm false) _ _ (Or.inl (hnoGlobs false))
    · rw [Gap.declares_block, hdeclares]
    · rw [Gap.import?_block_of_others g himport, import?_importTree hlast hnew, if_neg hbound.symm]
  apply SymbolTable.lookup_congr_of_globs_eq_nil (hm false) (hm true) (hnoGlobs false)
    (hnoGlobs true)
  · intro name
    rw [Gap.declares_block, Gap.declares_block]
  · intro name
    rcases import?_colons (g := g) hlast hnew (k :: path) name with hsame | himported
    · exact Or.inl hsame
    · refine Or.inr ⟨_, _, himported false, himported true, ?_⟩
      intro steps
      rw [canonicalWith_absolute (by simp), List.map_cons, List.cons_append, text_absolute_cons]
      exact canonicalWith_external hk (hcrate steps) (by simp)

end Colons

/-! ### A crate that is imported under its own name -/

/-- What is made of the import `k::rest` as `k`, if the crate is looked up a number of times under
the name that is being bound. -/
def fedBack (k : String) (rest : List String) : Nat → String
  | 0 => definingPath (extend ("::" ++ k) rest)
  | n + 1 => definingPath (extend (fedBack k rest n) rest)

section FedBack

variable {k : String} {rest : List String}

theorem colonCount_fedBack_le_succ (k : String) (rest : List String) (n : Nat) :
    colonCount (fedBack k rest n) + 2 * rest.length ≤ colonCount (fedBack k rest (n + 1)) + 2 := by
  have hextend := colonCount_extend (fedBack k rest n) rest
  have hdefining := colonCount_le_definingPath (extend (fedBack k rest n) rest)
  rw [fedBack]
  omega

/-- The path gets no shorter from step to step. -/
theorem colonCount_fedBack_mono (hrest : rest ≠ []) (n more : Nat) :
    colonCount (fedBack k rest n) ≤ colonCount (fedBack k rest (n + more)) := by
  have hlength : 0 < rest.length := List.length_pos_of_ne_nil hrest
  induction more with
  | zero => exact Nat.le_refl _
  | succ more ih =>
    have hstep := colonCount_fedBack_le_succ k rest (n + more)
    rw [← Nat.add_assoc]
    omega

/-- One module deep, the path is as it is written, and longer after a step; but for a facade that
takes away what is appended. -/
theorem colonCount_fedBack_one {p : String} (hk : ':' ∉ k.toList) (hp : ':' ∉ p.toList) :
    colonCount (fedBack k [p] 0) < colonCount (fedBack k [p] (0 + 1)) ∨
      k = "propgroup" ∧ p = "prelude" := by
  have hcrate : colonCount ("::" ++ k) = 2 := by
    -- Counting colons tells the two paths apart, unless the longer one is a path of the facade.
    rw [colonCount_append, colonCount_eq_zero hk]
    decide
  have hone : colonCount (extend ("::" ++ k) [p]) = 4 := by
    rw [colonCount_extend, hcrate]
    simp [List.count_eq_zero.mpr hp]
  have htwo : colonCount (extend ("::" ++ k) [p, p]) = 6 := by
    rw [colonCount_extend, hcrate]
    simp [List.count_eq_zero.mpr hp]
  have hstart : fedBack k [p] 0 = extend ("::" ++ k) [p] :=
    definingPath_of_colonCount (by omega)
  rw [hstart, fedBack, hstart, extend_extend, List.singleton_append, hone]
  rcases colonCount_definingPath_of_eq_six htwo with hdeep | ⟨tail, hpath⟩
  · left
    omega
  · right
    -- The only deeper path that is rewritten is the facade's prelude, which names both parts.
    have hfacade : "::propgroup::prelude::" =
        "::" ++ ("propgroup" ++ "::" ++ ("prelude" ++ "::")) := by decide
    rw [extend_of_ne_nil _ (by simp), hfacade] at hpath
    simp only [String.append_assoc, String.intercalate_cons_cons] at hpath
    rw [String.append_right_inj] at hpath
    rcases eq_of_append_colons hk (by decide) hpath with ⟨hname, hmodules⟩
    exact ⟨hname, (eq_of_append_colons hp (by decide) hmodules).1⟩

/-- The facade takes away what is appended, at each step. -/
theorem fedBack_prelude (n : Nat) : fedBack "propgroup" ["prelude"] n = "::propgroup::prelude" := by
  induction n with
  | zero => decide +kernel
  | succ n ih =>
    rw [fedBack, ih]
    decide +kernel

/-- Looking the crate up under the name that is being bound makes another path of it, but for one
import. -/
theorem fedBack_eq_iff (hrest : rest ≠ []) (hk : ':' ∉ k.toList)
    (hsingle : ∀ p, rest = [p] → ':' ∉ p.toList) (n : Nat) :
    fedBack k rest (n + 1) = fedBack k rest 0 ↔ k = "propgroup" ∧ rest = ["prelude"] := by
  constructor
  · intro heq
    have hlonger := colonCount_fedBack_mono (k := k) hrest (0 + 1) n
    rw [Nat.zero_add, Nat.add_comm 1 n, heq] at hlonger
    -- the first step decides, since the path gets no shorter afterwards
    by_cases hlength : rest.length = 1
    · rcases List.length_eq_one_iff.mp hlength with ⟨p, rfl⟩
      rcases colonCount_fedBack_one hk (hsingle p rfl) with hlt | ⟨hcrate, hmodule⟩
      · exact absurd hlt (Nat.not_lt.mpr hlonger)
      · exact ⟨hcrate, by rw [hmodule]⟩
    · -- two names or more: no facade takes away all that is appended
      have hstep := colonCount_fedBack_le_succ k rest 0
      have hpos : 0 < rest.length := List.length_pos_of_ne_nil hrest
      rw [Nat.zero_add] at hstep
      omega
  · rintro ⟨rfl, rfl⟩
    rw [fedBack_prelude, fedBack_prelude]

end FedBack

/-- If the crate is imported under its own name, the import is followed until a single step is
left. -/
theorem lookup_fedBack {root : Scope} {g : Gap} (hcounts : g.counts root = true) {k : Ident}
    (path : List Ident) {last : Ident} {new : Option Ident} (hk : k.name ∉ pathWords)
    (hlast : last.name ≠ "self") (hnew : ∀ i, new = some i → i.name ≠ "_")
    (hdeclares : g.others.declares k.name = false) (himport : g.others.import? k.name = none)
    (hbound : (new.getD last).name = k.name) (n : Nat) :
    (g.importing root false (k :: path) last new).lookup (n + 2) (g.scope root) k.name =
      some (fedBack k.name (path.map Ident.name ++ [last.name]) n) := by
  have hstep (steps : Nat) := lookup_importing hcounts (k :: path) hlast hnew
    (hbound ▸ hdeclares) (hbound ▸ himport) false steps
  rw [hbound] at hstep
  rw [hstep, List.map_cons, List.cons_append]
  -- Induction on the steps: each of them reads the import once more and appends its tail.
  induction n with
  | zero =>
    have hm := Gap.module?_fill hcounts false (importTree (k :: path) last new)
    have hnone : (g.importing root false (k :: path) last new).lookup 1 (g.scope root) k.name =
        none :=
      SymbolTable.lookup_one hm ((Gap.declares_block g _ _ _).trans hdeclares)
    rw [canonicalWith_external hk hnone (by simp), fedBack]
  | succ n ih =>
    have hfound := (hstep n).trans ih
    rw [canonicalWith_found hk hfound, fedBack]

/-- The leading colons of an import from a crate may be left out, exactly if the bound name is not
that of the crate; or the import is `propgroup::prelude`. Then all paths that start with the bound
name mean the same. -/
theorem leading_colons_optional_iff {root : Scope} {g : Gap} (hcounts : g.counts root = true)
    {k : Ident} (path : List Ident) {last : Ident} {new : Option Ident}
    (hk : k.name ∉ pathWords) (hlast : last.name ≠ "self")
    (hnew : ∀ i, new = some i → i.name ≠ "_")
    (hkColon : ':' ∉ k.name.toList) (hlastColon : ':' ∉ last.name.toList)
    (hglobs : g.others.globs = []) (hdeclares : g.others.declares k.name = false)
    (himport : g.others.import? k.name = none) :
    let t := g.importing root false (k :: path) last new
    let u := g.importing root true (k :: path) last new
    let x := (new.getD last).name
    let agree := x ≠ k.name ∨ k.name = "propgroup" ∧ path = [] ∧ last.name = "prelude"
    (t.lookup maxSteps (g.scope root) x = u.lookup maxSteps (g.scope root) x ↔ agree) ∧
    (agree → ∀ alone rest, t.canonical maxSteps (g.scope root) alone ⟨false, x :: rest⟩ =
      u.canonical maxSteps (g.scope root) alone ⟨false, x :: rest⟩) := by
  intro t u x agree
  have hiff : t.lookup maxSteps (g.scope root) x = u.lookup maxSteps (g.scope root) x ↔ agree := by
    by_cases hbound : (new.getD last).name = k.name
    · -- without the colons, the path of the import is appended with each of the steps
      have ht : t.lookup maxSteps (g.scope root) x =
          some (fedBack k.name (path.map Ident.name ++ [last.name]) 31) :=
        hbound ▸ lookup_fedBack hcounts path hk hlast hnew hdeclares himport hbound 31
      have hu : u.lookup maxSteps (g.scope root) x =
          some (fedBack k.name (path.map Ident.name ++ [last.name]) 0) := by
        rw [fedBack, ← text_absolute_cons]
        exact lookup_importing_absolute hcounts (k :: path) hlast hnew (hbound ▸ hdeclares)
          (hbound ▸ himport) 31
      have hsingle (p : String) : path.map Ident.name ++ [last.name] = [p] ↔
          path = [] ∧ last.name = p := by
        cases path <;> simp
      have hcolon : ∀ p, path.map Ident.name ++ [last.name] = [p] → ':' ∉ p.toList := by
        intro p hp
        rwa [← ((hsingle p).mp hp).2]
      rw [ht, hu, Option.some_inj, fedBack_eq_iff (by simp) hkColon hcolon, hsingle]
      simp [agree, x, hbound]
    · have hsame : t.lookup maxSteps (g.scope root) x = u.lookup maxSteps (g.scope root) x :=
        lookup_colons hcounts hk hlast hnew hglobs hdeclares himport hbound maxSteps x
      exact iff_of_true hsame (Or.inl hbound)
  exact ⟨hiff, fun hagree => SymbolTable.canonical_congr (hiff.mpr hagree)⟩

theorem leading_colons_optional_propertyMap :
    let t := modelsGap.importing .root false [.plain "propgroup", .plain "prelude"]
      (.plain "PropertyMap") none
    let u := modelsGap.importing .root true [.plain "propgroup", .plain "prelude"]
      (.plain "PropertyMap") none
    t.lookup maxSteps ⟨["models"]⟩ "PropertyMap" = u.lookup maxSteps ⟨["models"]⟩ "PropertyMap" ∧
      u.lookup maxSteps ⟨["models"]⟩ "PropertyMap" = some "::propgroup::PropertyMap" := by
  intro t u
  have hagree := (@leading_colons_optional_iff .root modelsGap (by decide) (.plain "propgroup")
    [.plain "prelude"] (.plain "PropertyMap") none (by decide) (by decide) nofun (by decide)
    (by decide) (by decide) (by decide) (by decide)).1.mpr (Or.inl (by decide))
  exact ⟨hagree, by decide +kernel⟩

/-- `use async_trait::async_trait` finds itself when it looks for the crate, at every step. -/
theorem leading_colons_matter_async_trait :
    let t := modelsGap.importing .root false [.plain "async_trait"] (.plain "async_trait") none
    let u := modelsGap.importing .root true [.plain "async_trait"] (.plain "async_trait") none
    u.lookup maxSteps ⟨["models"]⟩ "async_trait" = some "::async_trait::async_trait" ∧
      t.lookup maxSteps ⟨["models"]⟩ "async_trait" ≠
        u.lookup maxSteps ⟨["models"]⟩ "async_trait" := by
  intro t u
  -- The import reads itself back at every step, so its path grows as far as the steps reach.
  have ht : t.lookup maxSteps ⟨["models"]⟩ "async_trait" =
      some (fedBack "async_trait" ["async_trait"] (30 + 1)) :=
    @lookup_fedBack .root modelsGap (by decide) (.plain "async_trait") [] (.plain "async_trait")
      none (by decide) (by decide) nofun (by decide) (by decide) rfl 31
  have hu : u.lookup maxSteps ⟨["models"]⟩ "async_trait" = some "::async_trait::async_trait" := by
    decide +kernel
  have hstart : fedBack "async_trait" ["async_trait"] 0 = "::async_trait::async_trait" := by
    decide +kernel
  have hne : fedBack "async_trait" ["async_trait"] (30 + 1) ≠
      fedBack "async_trait" ["async_trait"] 0 := by
    rw [Ne, fedBack_eq_iff (by decide) (by decide) (by simp)]
    decide
  refine ⟨hu, ?_⟩
  rw [ht, hu, ← hstart, Ne, Option.some_inj]
  exact hne

end Memberwise
