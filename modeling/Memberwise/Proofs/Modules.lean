import Mathlib.Data.List.Nodup
import Mathlib.Data.List.Pairwise
import Memberwise.Proofs.LocalImports

/-!
# Memberwise.Proofs.Modules — the modules of a file, one by one

A file is a tree of modules. Its symbol table depends only on the list of them, each with its path
and its items (`blocks`, `ofItems_eq_ofBlocks`).

A table answers with the last entry for a key. In a file without repetitions (`Orderly`) no two
entries have the same key: no two modules have one path (`eq_of_mem_blocks`), and no two aliases
(`eq_of_mem_aliases`). So the answers do not depend on the order of the entries, and say exactly
what the file holds (`module?_eq_some_iff`, `alias?_eq_some_iff`).
-/

namespace Memberwise

open Source

/-! ## The tree of modules -/

/-- The name and the items of a module whose content is in the file. -/
def inline? : Item → Option (Ident × List Item)
  | .module i (some items) => some (i, items)
  | _ => none

mutual

/-- The modules that an item holds, each with its path and its items. -/
def blocksOf (scope : Scope) : Item → List (Scope × List Item)
  | .module i (some items) => (scope.child i.name, items) :: blocksIn (scope.child i.name) items
  | _ => []

/-- The modules that a list of items holds. -/
def blocksIn (scope : Scope) : List Item → List (Scope × List Item)
  | [] => []
  | item :: items => blocksOf scope item ++ blocksIn scope items

end

/-- The modules of a file whose items are in the module `root`: that module and those in it. -/
def blocks (root : Scope) (items : List Item) : List (Scope × List Item) :=
  (root, items) :: blocksIn root items

/-- The blocks in a block are those of its inline modules. -/
theorem blocksIn_eq_flatMap (scope : Scope) (items : List Item) :
    blocksIn scope items =
      (items.filterMap inline?).flatMap fun m => blocks (scope.child m.1.name) m.2 := by
  -- An item that is no inline module adds no block and is left out on the right too.
  induction items with
  | nil => rfl
  | cons item items ih =>
    rw [blocksIn, ih]
    cases hinline : inline? item with
    | none =>
      have hnone : blocksOf scope item = [] := by
        unfold inline? at hinline
        split at hinline
        · cases hinline
        · rw [blocksOf]
          assumption
      rw [hnone, List.filterMap_cons_none hinline, List.nil_append]
    | some m =>
      have hsome : blocksOf scope item = blocks (scope.child m.1.name) m.2 := by
        unfold inline? at hinline
        split at hinline
        · cases hinline
          rw [blocksOf, blocks]
        · cases hinline
      rw [hsome, List.filterMap_cons_some hinline, List.flatMap_cons]

/-- A block of a file is the file itself or one of an inline module. -/
theorem mem_blocks_iff {root : Scope} {items : List Item} {b : Scope × List Item} :
    b ∈ blocks root items ↔
      b = (root, items) ∨
        ∃ m ∈ items.filterMap inline?, b ∈ blocks (root.child m.1.name) m.2 := by
  rw [blocks, List.mem_cons, blocksIn_eq_flatMap, List.mem_flatMap]

/-- A file is one of its blocks. -/
theorem self_mem_blocks (root : Scope) (items : List Item) : (root, items) ∈ blocks root items :=
  List.mem_cons_self

/-- The blocks of an inline module are blocks of the file. -/
theorem mem_blocks_of_inline {root : Scope} {items : List Item} {m : Ident × List Item}
    (hm : m ∈ items.filterMap inline?) {b : Scope × List Item}
    (hb : b ∈ blocks (root.child m.1.name) m.2) : b ∈ blocks root items :=
  mem_blocks_iff.mpr (Or.inr ⟨m, hm, hb⟩)

/-- An inline module is smaller than the block that it is in. -/
theorem sizeOf_lt_of_inline {items : List Item} {m : Ident × List Item}
    (h : m ∈ items.filterMap inline?) : sizeOf m.2 < sizeOf items := by
  rcases List.mem_filterMap.mp h with ⟨item, hitem, hinline⟩
  refine Nat.lt_trans ?_ (List.sizeOf_lt_of_mem hitem)
  unfold inline? at hinline
  split at hinline
  · cases hinline
    simp
    omega
  · cases hinline

/-- What holds of items whenever it holds of the items of each module in them, holds always. -/
theorem module_induction {motive : List Item → Prop}
    (step : ∀ items, (∀ m ∈ items.filterMap inline?, motive m.2) → motive items)
    (items : List Item) : motive items :=
  step items fun m hm =>
    have := sizeOf_lt_of_inline hm
    module_induction step m.2
termination_by sizeOf items

/-- A path leads into one module of a module only. -/
theorem Scope.Within.name_eq {root s : Scope} {name name' : String}
    (h : (root.child name).Within s) (h' : (root.child name').Within s) : name = name' := by
  have hprefix : root.inner ++ [name] <+: root.inner ++ [name'] :=
    List.prefix_of_prefix_length_le h h' (by simp)
  simpa using hprefix.eq_of_length (by simp)

/-- Every block is in the scope of the file. -/
theorem within_of_mem_blocks {root : Scope} {items : List Item} {b : Scope × List Item}
    (h : b ∈ blocks root items) : root.Within b.1 := by
  induction items using module_induction generalizing root with
  | step items ih =>
    rcases mem_blocks_iff.mp h with rfl | ⟨m, hm, hb⟩
    · exact Scope.Within.refl root
    · exact (ih m hm hb).of_child

/-! ## The table of a file, from its modules -/

/-- The path of the type that an item declares, an alias apart. -/
def localTypeOf? (scope : Scope) (item : Item) : Option String :=
  (declaredType? item).map scope.join

namespace SymbolTable

/-- The entries of modules, one module after another. -/
def ofBlocks (bs : List (Scope × List Item)) : SymbolTable where
  modules := bs.map fun b => (b.1, .ofItems b.2)
  aliases := bs.flatMap fun b => b.2.filterMap (aliasOf? b.1)
  localTypes := bs.flatMap fun b => b.2.filterMap (localTypeOf? b.1)

/-- The table of blocks is put together from those of parts of them. -/
theorem ofBlocks_append (bs bs' : List (Scope × List Item)) :
    ofBlocks (bs ++ bs') = (ofBlocks bs).append (ofBlocks bs') := by
  simp [ofBlocks, append]

/-- The table of blocks is that of the first one and of the others. -/
theorem ofBlocks_cons (b : Scope × List Item) (bs : List (Scope × List Item)) :
    ofBlocks (b :: bs) = (ofModule b.1 b.2).append (ofBlocks bs) := by
  simp only [ofBlocks, append, ofModule, List.map_filterMap]
  rfl

mutual

/-- An item adds the table of its blocks, by induction on the modules. -/
theorem ofNested_eq_ofBlocks {scope : Scope} :
    ∀ item : Item, ofNested scope item = ofBlocks (blocksOf scope item)
  | .module i (some items) => by
    rw [ofNested, blocksOf, ofBlocks_cons, ofNestedAll_eq_ofBlocks items]
  | .module _ none => by simp only [ofNested, blocksOf]; rfl
  | .use .. => by simp only [ofNested, blocksOf]; rfl
  | .struct _ => by simp only [ofNested, blocksOf]; rfl
  | .declared _ => by simp only [ofNested, blocksOf]; rfl
  | .typeAlias .. => by simp only [ofNested, blocksOf]; rfl
  | .externCrate .. => by simp only [ofNested, blocksOf]; rfl
  | .other => by simp only [ofNested, blocksOf]; rfl

/-- Items add the table of their blocks, by induction on the modules. -/
theorem ofNestedAll_eq_ofBlocks {scope : Scope} :
    ∀ items : List Item, ofNestedAll scope items = ofBlocks (blocksIn scope items)
  | [] => by simp only [ofNestedAll, blocksIn]; rfl
  | item :: items => by
    rw [ofNestedAll, blocksIn, ofBlocks_append, ofNested_eq_ofBlocks item,
      ofNestedAll_eq_ofBlocks items]

end

/-- The table of a file depends only on its modules, each with its path and its items. -/
theorem ofItems_eq_ofBlocks (root : Scope) (items : List Item) :
    ofItems root items = ofBlocks (blocks root items) := by
  rw [ofItems, blocks, ofBlocks_cons, ofNestedAll_eq_ofBlocks]

/-- The modules of a table are those of the blocks. -/
theorem mem_modules_ofItems {root s : Scope} {items : List Item} {m : ModuleSymbols} :
    (s, m) ∈ (ofItems root items).modules ↔
      ∃ block, (s, block) ∈ blocks root items ∧ .ofItems block = m := by
  simp [ofItems_eq_ofBlocks, ofBlocks]

/-- The aliases of a table are those of the blocks. -/
theorem mem_aliases_ofItems {root : Scope} {items : List Item} {entry : String × Alias} :
    entry ∈ (ofItems root items).aliases ↔
      ∃ b ∈ blocks root items, entry ∈ b.2.filterMap (aliasOf? b.1) := by
  rw [ofItems_eq_ofBlocks, ofBlocks, List.mem_flatMap]

/-- The local types of a table are those of the blocks. -/
theorem mem_localTypes_ofItems {root : Scope} {items : List Item} {path : String} :
    path ∈ (ofItems root items).localTypes ↔
      ∃ b ∈ blocks root items, path ∈ b.2.filterMap (localTypeOf? b.1) := by
  rw [ofItems_eq_ofBlocks, ofBlocks, List.mem_flatMap]

end SymbolTable

/-! ## Files without repetitions -/

/-- Whether a module has at most one glob, and binds or declares no name twice, as far as that could
matter: names of imports, of aliases, and of modules in the file. -/
structure Orderly (items : List Item) : Prop where
  globs : (ModuleSymbols.ofItems items).globs.length ≤ 1
  imports : ((ModuleSymbols.ofItems items).imports.map Prod.fst).Nodup
  aliases : (items.filterMap aliasName?).Nodup
  modules : ((items.filterMap inline?).map fun m => m.1.name).Nodup

instance : DecidablePred Orderly := fun items =>
  decidable_of_iff
    ((ModuleSymbols.ofItems items).globs.length ≤ 1 ∧
      ((ModuleSymbols.ofItems items).imports.map Prod.fst).Nodup ∧
      (items.filterMap aliasName?).Nodup ∧ ((items.filterMap inline?).map fun m => m.1.name).Nodup)
    ⟨fun ⟨globs, imports, aliases, modules⟩ => ⟨globs, imports, aliases, modules⟩,
      fun h => ⟨h.globs, h.imports, h.aliases, h.modules⟩⟩

/-- Whether no name of an alias or of a module in the file has a colon in it. No identifier has one,
so the names can be told from a path. -/
structure ColonFree (items : List Item) : Prop where
  aliases : ∀ name ∈ items.filterMap aliasName?, ':' ∉ name.toList
  modules : ∀ m ∈ items.filterMap inline?, ':' ∉ m.1.name.toList

instance : DecidablePred ColonFree := fun items =>
  decidable_of_iff
    ((∀ name ∈ items.filterMap aliasName?, ':' ∉ name.toList) ∧
      ∀ m ∈ items.filterMap inline?, ':' ∉ m.1.name.toList)
    ⟨fun ⟨aliases, modules⟩ => ⟨aliases, modules⟩, fun h => ⟨h.aliases, h.modules⟩⟩

/-- The last entry for a key is the only one, if no other has its key. -/
theorem lookupLast_eq_some_iff {α β : Type} [BEq α] [LawfulBEq α] {entries : List (α × β)}
    (h : ∀ x ∈ entries, ∀ y ∈ entries, x.1 = y.1 → x = y) {key : α} {b : β} :
    lookupLast key entries = some b ↔ (key, b) ∈ entries := by
  refine ⟨mem_of_lookupLast, fun hmem => ?_⟩
  cases hlast : lookupLast key entries with
  | some b' =>
    cases h _ hmem _ (mem_of_lookupLast hlast) rfl
    rfl
  | none =>
    rw [lookupLast, List.lookup_eq_none_iff] at hlast
    simpa using hlast (key, b) (List.mem_reverse.mpr hmem)

section

variable {root s : Scope} {items : List Item}

/-- No two modules of a file have the same path. -/
theorem eq_of_mem_blocks (horderly : ∀ b ∈ blocks root items, Orderly b.2) {x y : List Item}
    (hx : (s, x) ∈ blocks root items) (hy : (s, y) ∈ blocks root items) : x = y := by
  induction items using module_induction generalizing root with
  | step items ih =>
    -- the path of a nested module is longer than that of the module around it
    rcases mem_blocks_iff.mp hx with hx | ⟨m, hm, hxm⟩ <;>
      rcases mem_blocks_iff.mp hy with hy | ⟨n, hn, hyn⟩
    · cases hx
      cases hy
      rfl
    · cases hx
      exact absurd rfl (within_of_mem_blocks hyn).ne_of_child
    · cases hy
      exact absurd rfl (within_of_mem_blocks hxm).ne_of_child
    · -- both are in modules of `items`, and a path leads into one of these only
      have hwithin : (root.child n.1.name).Within s := within_of_mem_blocks hyn
      have hname : m.1.name = n.1.name := (within_of_mem_blocks hxm).name_eq hwithin
      have hsame : m = n :=
        List.inj_on_of_nodup_map (horderly _ (self_mem_blocks root items)).modules hm hn hname
      subst hsame
      exact ih m hm (fun b hb => horderly b (mem_blocks_of_inline hm hb)) hxm hyn

/-- The path of a module goes on from that of the file with names that have no colon. -/
theorem names_of_mem_blocks (hcolons : ∀ b ∈ blocks root items, ColonFree b.2)
    {b : Scope × List Item} (h : b ∈ blocks root items) :
    ∃ names, b.1.inner = root.inner ++ names ∧ ∀ name ∈ names, ':' ∉ name.toList := by
  induction items using module_induction generalizing root with
  | step items ih =>
    -- A block below the file is reached through one module more, whose name has no colon.
    rcases mem_blocks_iff.mp h with rfl | ⟨m, hm, hb⟩
    · exact ⟨[], by simp, by simp⟩
    · rcases ih m hm (fun b hb => hcolons b (mem_blocks_of_inline hm hb)) hb with
        ⟨names, hinner, hnames⟩
      refine ⟨m.1.name :: names, by simp [hinner, Scope.child], ?_⟩
      intro name hname
      rcases List.mem_cons.mp hname with rfl | hname
      · exact (hcolons _ (self_mem_blocks root items)).modules m hm
      · exact hnames name hname

/-- Names without colons can be told from the path that they make. -/
theorem extend_inj_of_colon_notMem {base : String} {xs ys : List String}
    (hxs : xs ≠ []) (hys : ys ≠ []) (hx : ∀ name ∈ xs, ':' ∉ name.toList)
    (hy : ∀ name ∈ ys, ':' ∉ name.toList) (h : extend base xs = extend base ys) :
    xs = ys := by
  -- Cut at the colons, both extensions give their names back.
  have hsplit : ∀ {zs : List String}, zs ≠ [] → (∀ name ∈ zs, ':' ∉ name.toList) →
      Text.splitColons ("::".intercalate zs).toList = zs.map String.toList := by
    intro zs hzs hzcolons
    cases zs with
    | nil => exact absurd rfl hzs
    | cons first rest => exact splitColons_intercalate hzcolons
  rw [extend_of_ne_nil _ hxs, extend_of_ne_nil _ hys, String.append_right_inj] at h
  have hmap : xs.map String.toList = ys.map String.toList := by
    rw [← hsplit hxs hx, ← hsplit hys hy, h]
  exact List.map_injective_iff.mpr (fun _ _ => String.toList_injective) hmap

/-- A module and a name in it can be told from the path of the name. -/
theorem join_inj_of_mem_blocks (hcolons : ∀ b ∈ blocks root items, ColonFree b.2)
    {b b' : Scope × List Item} (hb : b ∈ blocks root items) (hb' : b' ∈ blocks root items)
    {name name' : String} (hname : ':' ∉ name.toList) (hname' : ':' ∉ name'.toList)
    (h : b.1.join name = b'.1.join name') : b.1 = b'.1 ∧ name = name' := by
  rcases names_of_mem_blocks hcolons hb with ⟨names, hinner, hnames⟩
  rcases names_of_mem_blocks hcolons hb' with ⟨names', hinner', hnames'⟩
  have hjoin : ∀ {s : Scope} {more : List String} (last : String), s.inner = root.inner ++ more →
      s.join last = extend root.path (more ++ [last]) := by
    intro s more last hs
    rw [Scope.join_eq_extend, Scope.path_eq_extend, hs, Scope.path_eq_extend, extend_extend,
      extend_extend, List.append_assoc]
  -- both paths go on from that of the file, with names that have no colon
  rw [hjoin name hinner, hjoin name' hinner'] at h
  have hall : ∀ {more : List String} {last : String},
      (∀ name ∈ more, ':' ∉ name.toList) → ':' ∉ last.toList →
        ∀ name ∈ more ++ [last], ':' ∉ name.toList := by
    intro more last hmore hlast name hmem
    rcases List.mem_append.mp hmem with hmem | hmem
    · exact hmore name hmem
    · rwa [List.mem_singleton.mp hmem]
  have hwhole := extend_inj_of_colon_notMem (by simp) (by simp) (hall hnames hname)
    (hall hnames' hname') h
  rcases List.append_inj' hwhole rfl with ⟨rfl, hlast⟩
  exact ⟨congrArg Scope.mk (hinner.trans hinner'.symm), by simpa using hlast⟩

/-- Elements with the same result are the same if no result comes twice. -/
theorem eq_of_nodup_filterMap {α β : Type} {f : α → Option β} {xs : List α}
    (h : (xs.filterMap f).Nodup) {x y : α} (hx : x ∈ xs) (hy : y ∈ xs) {b : β} (hxb : f x = some b)
    (hyb : f y = some b) : x = y := by
  by_contra hne
  rw [List.Nodup, List.pairwise_filterMap] at h
  have : Std.Symm fun a a' => ∀ b, f a = some b → ∀ b', f a' = some b' → b ≠ b' :=
    ⟨fun _ _ haa' b hb b' hb' => (haa' b' hb' b hb).symm⟩
  exact h.forall hx hy hne b hxb b hyb rfl

/-- An alias is entered under its name in its scope. -/
theorem aliasName?_of_aliasOf? {scope : Scope} {item : Item} {entry : String × Alias}
    (h : aliasOf? scope item = some entry) :
    ∃ name, aliasName? item = some name ∧ entry.1 = scope.join name := by
  unfold aliasOf? at h
  split at h
  · cases h
    exact ⟨_, rfl, rfl⟩
  · cases h

/-- No two aliases of a file have the same path. -/
theorem eq_of_mem_aliases (hcolons : ∀ b ∈ blocks root items, ColonFree b.2)
    (horderly : ∀ b ∈ blocks root items, Orderly b.2) :
    ∀ x ∈ (SymbolTable.ofItems root items).aliases,
      ∀ y ∈ (SymbolTable.ofItems root items).aliases, x.1 = y.1 → x = y := by
  intro x hx y hy hpath
  rcases SymbolTable.mem_aliases_ofItems.mp hx with ⟨⟨s, xs⟩, hb, hmem⟩
  rcases SymbolTable.mem_aliases_ofItems.mp hy with ⟨⟨s', ys⟩, hb', hmem'⟩
  rcases List.mem_filterMap.mp hmem with ⟨item, hitem, hentry⟩
  rcases List.mem_filterMap.mp hmem' with ⟨item', hitem', hentry'⟩
  rcases aliasName?_of_aliasOf? hentry with ⟨name, hname, hx⟩
  rcases aliasName?_of_aliasOf? hentry' with ⟨name', hname', hy⟩
  have hcolon := (hcolons _ hb).aliases name (List.mem_filterMap.mpr ⟨item, hitem, hname⟩)
  have hcolon' := (hcolons _ hb').aliases name' (List.mem_filterMap.mpr ⟨item', hitem', hname'⟩)
  rw [hx, hy] at hpath
  rcases join_inj_of_mem_blocks hcolons hb hb' hcolon hcolon' hpath with ⟨rfl, rfl⟩
  -- they are declared in one module, and so by one item
  cases eq_of_mem_blocks horderly hb hb'
  cases eq_of_nodup_filterMap (horderly _ hb).aliases hitem hitem' hname hname'
  exact Option.some.inj (hentry.symm.trans hentry')

/-! ## What the table of a file answers -/

/-- A path leads to a module of the file, and the table holds the names of its items. -/
theorem module?_eq_some_iff (horderly : ∀ b ∈ blocks root items, Orderly b.2)
    {m : ModuleSymbols} :
    (SymbolTable.ofItems root items).module? s = some m ↔
      ∃ block, (s, block) ∈ blocks root items ∧ .ofItems block = m := by
  rw [SymbolTable.module?, lookupLast_eq_some_iff, SymbolTable.mem_modules_ofItems]
  rintro ⟨s, m⟩ hm ⟨s', m'⟩ hm' rfl
  rcases SymbolTable.mem_modules_ofItems.mp hm with ⟨block, hblock, rfl⟩
  rcases SymbolTable.mem_modules_ofItems.mp hm' with ⟨block', hblock', rfl⟩
  rw [eq_of_mem_blocks horderly hblock hblock']

/-- A path stands for an alias if it is that of one in the file. -/
theorem alias?_eq_some_iff (hcolons : ∀ b ∈ blocks root items, ColonFree b.2)
    (horderly : ∀ b ∈ blocks root items, Orderly b.2) {path : String} {a : Alias} :
    (SymbolTable.ofItems root items).alias? path = some a ↔
      ∃ b ∈ blocks root items, (path, a) ∈ b.2.filterMap (aliasOf? b.1) := by
  rw [SymbolTable.alias?, lookupLast_eq_some_iff (eq_of_mem_aliases hcolons horderly),
    SymbolTable.mem_aliases_ofItems]

end

end Memberwise
