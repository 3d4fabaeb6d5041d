import Memberwise.Proofs.ExternImports
import Memberwise.Proofs.Rearranging

/-!
# Memberwise.Proofs.Blocks — modules that are written in several blocks

A module can be written in several blocks of one name. The table of a file has an entry for each of
them and answers with the last one. So an item that declares no module is seen in the module of its
block only if no later block has the same path; otherwise the modules of the file are as they would
be without the item (`Gap.module?_fill_eq`).

For an import this means that it is in effect in its own block, unless a later block takes its
place. Then it is lost, and what its name stands for is up to the other blocks
(`imported_name_visible_iff`).
-/

namespace Memberwise

open Source

/-! ## Files with and without an item -/

namespace Gap

/-- The file with nothing in the gap. -/
def closed : Gap → List Item
  | here before after => before ++ after
  | inside before name inner after => before ++ .module name (some inner.closed) :: after

variable {root : Scope} {g : Gap} {item : Item}

/-- An item that is no module holds none. -/
theorem ofNested_of_moduleName?_eq_none (h : moduleName? item = none) (scope : Scope) :
    SymbolTable.ofNested scope item = SymbolTable.empty := by
  cases item with
  | module i content => cases h
  | _ => simp only [SymbolTable.ofNested]

theorem ofNestedAll_fill_here (h : moduleName? item = none) (before after : List Item) :
    SymbolTable.ofNestedAll root (before ++ item :: after) =
      SymbolTable.ofNestedAll root (before ++ after) := by
  rw [SymbolTable.ofNestedAll_append, SymbolTable.ofNestedAll_append, SymbolTable.ofNestedAll,
    ofNested_of_moduleName?_eq_none h, SymbolTable.empty_append]

/-- The module around a block sees nothing of what is in it. -/
theorem ofModule_inside (scope : Scope) (before after : List Item) (name : Ident)
    (xs ys : List Item) :
    SymbolTable.ofModule scope (before ++ .module name (some xs) :: after) =
      SymbolTable.ofModule scope (before ++ .module name (some ys) :: after) := by
  simp only [SymbolTable.ofModule, ModuleSymbols.ofItems, List.filterMap_append,
    List.flatMap_append]
  rfl

/-- The modules of a file with an item in its gap: only the module of the gap shows the item, and
only if no later block takes its place. -/
theorem module?_fill_eq (h : moduleName? item = none) (root : Scope) (g : Gap) (s : Scope) :
    (SymbolTable.ofItems root (g.fill item)).module? s =
      if s = g.scope root ∧ g.counts root = true then some (.ofItems (g.block item))
      else (SymbolTable.ofItems root g.closed).module? s := by
  induction g generalizing root with
  | here before after =>
    rw [fill, closed, SymbolTable.ofItems, SymbolTable.ofItems, ofNestedAll_fill_here h,
      SymbolTable.module?_append, SymbolTable.module?_append, scope, counts]
    by_cases hs : s = root
    · subst hs
      rw [SymbolTable.module?_ofNestedAll_self, SymbolTable.module?_ofModule_self]
      simp [block, Gap.before, Gap.after]
    · rw [SymbolTable.module?_ofModule_of_ne hs, SymbolTable.module?_ofModule_of_ne hs]
      simp [hs]
  | inside before name inner after ih =>
    rw [fill, closed, SymbolTable.ofItems_inside, SymbolTable.ofItems_inside,
      ofModule_inside root before after name _ inner.closed]
    simp only [SymbolTable.module?_append, ih (root.child name.name), scope, counts]
    by_cases hs : s = inner.scope (root.child name.name)
    · subst hs
      -- a later block at the same path comes before both
      cases hlater : (SymbolTable.ofNestedAll root after).module?
          (inner.scope (root.child name.name)) with
      | some m => simp
      | none =>
        by_cases hcounts : inner.counts (root.child name.name) = true
        · simp [hcounts, block, Gap.before, Gap.after]
        · simp [hcounts]
    · simp [hs]

/-- If the module of the gap counts, it has the names of the other items when the gap is empty. -/
theorem module?_closed (hcounts : g.counts root = true) :
    (SymbolTable.ofItems root g.closed).module? (g.scope root) = some g.others := by
  induction g generalizing root with
  | here before after =>
    rw [closed, scope, SymbolTable.ofItems, SymbolTable.module?_append,
      SymbolTable.module?_ofNestedAll_self, Option.none_or, SymbolTable.module?_ofModule_self]
    rfl
  | inside before name inner after ih =>
    rw [counts, Bool.and_eq_true, Option.isNone_iff_eq_none] at hcounts
    rw [closed, scope, SymbolTable.ofItems_inside, SymbolTable.module?_append,
      SymbolTable.module?_append, hcounts.2, Option.none_or, ih hcounts.1, Option.some_or]
    rfl

/-- An item in a block that does not count changes no module. -/
theorem module?_fill_of_counts_eq_false (h : moduleName? item = none)
    (hcounts : g.counts root = false) :
    (SymbolTable.ofItems root (g.fill item)).module? =
      (SymbolTable.ofItems root g.closed).module? := by
  funext s
  rw [module?_fill_eq h, if_neg (by simp [hcounts])]

end Gap

/-! ## What the items of a file show -/

theorem blocksIn_append (scope : Scope) (xs ys : List Item) :
    blocksIn scope (xs ++ ys) = blocksIn scope xs ++ blocksIn scope ys := by
  rw [blocksIn_eq_flatMap, blocksIn_eq_flatMap, blocksIn_eq_flatMap, List.filterMap_append,
    List.flatMap_append]

theorem blocks_inside (root : Scope) (before : List Item) (name : Ident)
    (inner after : List Item) :
    blocks root (before ++ .module name (some inner) :: after) =
      (root, before ++ .module name (some inner) :: after) ::
        (blocksIn root before ++
          (blocks (root.child name.name) inner ++ blocksIn root after)) := by
  rw [blocks, blocksIn_append, blocksIn, blocksOf, blocks]

/-- What the items of a file show one by one, module after module. -/
def shownIn {β : Type} (f : Scope → Item → Option β) (root : Scope) (items : List Item) : List β :=
  (blocks root items).flatMap fun b => b.2.filterMap (f b.1)

/-- An item in the gap shows what it shows at one place, and the rest of the file shows the same as
without it. -/
theorem Gap.exists_shownIn_fill {β : Type} {f : Scope → Item → Option β}
    (hf : ∀ s i content, f s (.module i (some content)) = f s (.module i (some []))) {item : Item}
    (h : moduleName? item = none) (root : Scope) (g : Gap) :
    ∃ xs ys, shownIn f root g.closed = xs ++ ys ∧
      shownIn f root (g.fill item) = xs ++ (f (g.scope root) item).toList ++ ys := by
  induction g generalizing root with
  | here before after =>
    have hblocks : blocksIn root (item :: after) = blocksIn root after := by
      cases item with
      | module i content => cases h
      | _ => simp only [blocksIn, blocksOf, List.nil_append]
    refine ⟨before.filterMap (f root), after.filterMap (f root) ++
      (blocksIn root (before ++ after)).flatMap fun b => b.2.filterMap (f b.1), ?_, ?_⟩
    · simp [shownIn, closed, blocks]
    · simp only [shownIn, fill, scope, blocks, blocksIn_append, hblocks, List.flatMap_cons,
        List.filterMap_append, List.append_assoc, List.filterMap_cons]
      cases f root item <;> simp
  -- what is around the module comes before and after what is in it
  | inside before name inner after ih =>
    rcases ih (root.child name.name) with ⟨xs, ys, hclosed, hfill⟩
    refine ⟨(before ++ .module name (some []) :: after).filterMap (f root) ++
      ((blocksIn root before).flatMap fun b => b.2.filterMap (f b.1)) ++ xs,
      ys ++ (blocksIn root after).flatMap fun b => b.2.filterMap (f b.1), ?_, ?_⟩
    · rw [shownIn] at hclosed
      simp only [shownIn, closed, blocks_inside, List.flatMap_cons, List.flatMap_append, hclosed,
        List.filterMap_append, List.filterMap_cons, hf root name inner.closed, List.append_assoc]
    · rw [shownIn] at hfill
      simp only [shownIn, fill, scope, blocks_inside, List.flatMap_cons, List.flatMap_append, hfill,
        List.filterMap_append, List.filterMap_cons, hf root name (inner.fill item),
        List.append_assoc]

theorem SymbolTable.aliases_ofItems (root : Scope) (items : List Item) :
    (ofItems root items).aliases = shownIn aliasOf? root items := by
  rw [ofItems_eq_ofBlocks, ofBlocks, shownIn]

theorem SymbolTable.localTypes_ofItems (root : Scope) (items : List Item) :
    (ofItems root items).localTypes = shownIn localTypeOf? root items := by
  rw [ofItems_eq_ofBlocks, ofBlocks, shownIn]

/-- An item that shows nothing leaves what the file shows as it is. -/
theorem Gap.shownIn_fill {β : Type} {f : Scope → Item → Option β}
    (hf : ∀ s i content, f s (.module i (some content)) = f s (.module i (some []))) {item : Item}
    (h : moduleName? item = none) {root : Scope} {g : Gap}
    (hitem : f (g.scope root) item = none) :
    shownIn f root (g.fill item) = shownIn f root g.closed := by
  rcases exists_shownIn_fill hf h root g with ⟨xs, ys, hclosed, hfill⟩
  rw [hclosed, hfill, hitem]
  simp

/-! ## Imports and later blocks -/

/-- A `use` declaration in a block that does not count has no effect on any answer. -/
theorem Gap.alike_closed {root : Scope} {g : Gap} (hcounts : g.counts root = false)
    (absolute : Bool) (tree : UseTree) :
    (SymbolTable.ofItems root (g.fill (.use absolute tree))).Alike
      (SymbolTable.ofItems root g.closed) := by
  -- The item stands in a module that is declared again later, so the table never had its block.
  have hmodules := @module?_fill_of_counts_eq_false root g (.use absolute tree) rfl hcounts
  refine ⟨fun s => ?_, fun path => ?_, fun path => ?_⟩
  · rw [hmodules]
    cases (SymbolTable.ofItems root g.closed).module? s with
    | none => exact Or.inl ⟨rfl, rfl⟩
    | some m => exact Or.inr ⟨m, m, rfl, rfl, ⟨fun _ => rfl, fun _ => rfl, rfl⟩⟩
  · rw [SymbolTable.alias?, SymbolTable.alias?, SymbolTable.aliases_ofItems,
      SymbolTable.aliases_ofItems, shownIn_fill (fun _ _ _ => rfl) rfl rfl]
  · rw [SymbolTable.isLocalType, SymbolTable.isLocalType, SymbolTable.localTypes_ofItems,
      SymbolTable.localTypes_ofItems, shownIn_fill (fun _ _ _ => rfl) rfl rfl]

/-- An import of an absolute path is in effect for its block exactly if no later block has the path
of the module; or the file without the import happens to give the name the same meaning. -/
theorem imported_name_visible_iff (root : Scope) (g : Gap) (outer : List Ident) (last x : Ident)
    (hlast : last.name ≠ "self") (hx : x.name ≠ "_") (hdeclares : g.others.declares x.name = false)
    (himport : g.others.import? x.name = none) :
    let path := definingPath (NamePath.text ⟨true, outer.map Ident.name ++ [last.name]⟩)
    (g.importing root true outer last (some x)).lookup maxSteps (g.scope root) x.name =
        some path ↔
      g.counts root = true ∨
        (SymbolTable.ofItems root g.closed).lookup maxSteps (g.scope root) x.name = some path := by
  intro path
  have hnew : ∀ i, some x = some i → i.name ≠ "_" := by
    intro i hi
    cases hi
    exact hx
  by_cases hcounts : g.counts root = true
  · have hvisible : (g.importing root true outer last (some x)).lookup maxSteps (g.scope root)
        x.name = some path :=
      lookup_importing_absolute hcounts outer hlast hnew hdeclares himport 31
    exact iff_of_true hvisible (Or.inl hcounts)
  · -- the block is not looked at, so the import might as well not be there
    have halike := Gap.alike_closed (eq_false_of_ne_true hcounts) true
      (importTree outer last (some x))
    rw [Gap.importing, halike.lookup maxSteps (g.scope root) x.name]
    simp [hcounts]

/-- A struct with a field of type `u8` and a `derive` whose list has the given tokens. -/
def derivingStruct (name : Ident) (tokens : List TokenTree) : StructItem :=
  ⟨[.list (.mk false [.mk (.plain "derive") .none]) tokens], name, [],
    .named [⟨[], some (.plain "x"), .path (.mk false [.mk (.plain "u8") .none])⟩]⟩

/-- `mod m { … #[derive(P)] struct S { x: u8 } }` with a gap in it, between other blocks. -/
def platformGap (before after : List Item) : Gap :=
  .inside before (.plain "m")
    (.here [] [.struct (derivingStruct (.plain "S") [.ident (.plain "P")])]) after

theorem imported_name_visible_platform :
    let g := platformGap [.module (.plain "m") (some [])] [.module (.plain "n") (some [])]
    g.counts .root = true ∧
      (g.importing .root true [.plain "propgroup", .plain "prelude"] (.plain "PropertyMap")
        (some (.plain "P"))).lookup maxSteps ⟨["m"]⟩ "P" = some "::propgroup::PropertyMap" := by
  intro g
  have hcounts : g.counts .root = true := by decide +kernel
  have hpath : definingPath (NamePath.text ⟨true, ["propgroup", "prelude", "PropertyMap"]⟩) =
      "::propgroup::PropertyMap" := by decide +kernel
  have hvisible := (imported_name_visible_iff .root g [.plain "propgroup", .plain "prelude"]
    (.plain "PropertyMap") (.plain "P") (by decide) (by decide) (by decide) (by decide)).mpr
      (Or.inl hcounts)
  exact ⟨hcounts, hvisible.trans (congrArg some hpath)⟩

/-- A second block `mod m { }` takes the import away from the first. The struct that it selects is
lost with it. -/
theorem imported_name_lost_platform :
    let file (after : List Item) := (platformGap [] after).fill
      (.use true (importTree [.plain "propgroup"] (.plain "PropertyMap") (some (.plain "P"))))
    let second : Item := .module (.plain "m") (some [])
    (SymbolTable.ofItems .root (file [second])).lookup maxSteps ⟨["m"]⟩ "P" = none ∧
      ((describeItems .default .root (file [])).value.map Descriptor.fullName = ["crate::m::S"]) ∧
      (describeItems .default .root (file [second])).value = [] := by
  decide +kernel

end Memberwise
