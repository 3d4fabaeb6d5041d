import Memberwise.Proofs.Lookup
import Memberwise.Proofs.Nesting

/-!
# Memberwise.Proofs.Gaps — files with a gap for one item

A `Gap` is a file in which the place of one item is open, in the module at the root or in a nested
one. Filling the gap with one `use` declaration or with another changes the names of that module and
nothing else (`agreeBut_fill`). The names of the module are those of the items around the gap and
those of the declaration in it (`module?_fill`, and the lemmas on `ModuleSymbols.ofItems`).

If the declaration imports a single path, a name that nothing else in the module binds is looked up
through that path (`lookup_importing`).

A module can be written in several blocks of one name, of which the last counts. So a gap says
something about its module only if no later block takes its part (`Gap.counts`).
-/

namespace Memberwise

open Source

/-! ## The names of a list of items -/

namespace ModuleSymbols

variable (xs ys : List Item) (name : String)

/-- Names are declared in either part of a block. -/
theorem declares_append :
    (ofItems (xs ++ ys)).declares name =
      ((ofItems xs).declares name || (ofItems ys).declares name) := by
  simp only [declares, ofItems, List.filterMap_append, List.contains_append]
  cases (List.filterMap (fun i => (declaredType? i).or (aliasName? i)) xs).contains name <;>
    cases (List.filterMap moduleName? xs).contains name <;> simp

/-- The last entry for a key is in the second list, if there is one. -/
theorem lookupLast_append {α β : Type} [BEq α] (key : α) (as bs : List (α × β)) :
    lookupLast key (as ++ bs) = (lookupLast key bs).or (lookupLast key as) := by
  unfold lookupLast
  rw [List.reverse_append, List.lookup_append]

/-- An import of the second part of a block counts before one of the first. -/
theorem import?_append :
    (ofItems (xs ++ ys)).import? name =
      ((ofItems ys).import? name).or ((ofItems xs).import? name) := by
  simp only [import?, ofItems, List.flatMap_append, List.filterMap_append, lookupLast_append]

/-- The globs of a block are those of its parts, in order. -/
theorem globs_append : (ofItems (xs ++ ys)).globs = (ofItems xs).globs ++ (ofItems ys).globs := by
  simp only [ofItems, List.flatMap_append, List.filterMap_append]

/-- An import declares no name. -/
theorem declares_use (absolute : Bool) (tree : UseTree) :
    (ofItems [.use absolute tree]).declares name = false := rfl

end ModuleSymbols

/-! ## Trees with one branch -/

/-- The tree that leads along a path to another tree. -/
def Source.UseTree.along (path : List Ident) (last : UseTree) : UseTree := path.foldr .path last

/-- A path before a tree goes in front of what the tree binds. -/
theorem bindings_along (absolute : Bool) (outer : List String) (path : List Ident)
    (last : UseTree) :
    (UseTree.along path last).bindings absolute outer =
      last.bindings absolute (outer ++ path.map Ident.name) := by
  induction path generalizing outer with
  | nil => simp [UseTree.along]
  | cons i path ih =>
    have hstep : (UseTree.along (i :: path) last).bindings absolute outer =
        (UseTree.along path last).bindings absolute (outer ++ [i.name]) := rfl
    rw [hstep, ih]
    simp

/-- The tree of `a::b::last` or, with a new name, of `a::b::last as new`. -/
def importTree (outer : List Ident) (last : Ident) (new : Option Ident) : UseTree :=
  .along outer (match new with
    | none => .name last
    | some i => .rename last i)

section

variable {last : Ident} {new : Option Ident}

/-- An import binds one name, if it does not end in `self` and the name is not `_`. -/
theorem bindings_importTree (hlast : last.name ≠ "self") (hnew : ∀ i, new = some i → i.name ≠ "_")
    (absolute : Bool) (outer : List Ident) :
    (importTree outer last new).bindings absolute [] =
      [.named (new.getD last).name ⟨absolute, outer.map Ident.name ++ [last.name]⟩] := by
  unfold importTree
  rw [bindings_along, List.nil_append]
  cases new with
  | none => simp [UseTree.bindings, hlast]
  | some i => simp [UseTree.bindings, hlast, hnew i rfl]

/-- A tree with one name binds this name, or the new one. -/
theorem import?_importTree (hlast : last.name ≠ "self") (hnew : ∀ i, new = some i → i.name ≠ "_")
    (absolute : Bool) (outer : List Ident) (name : String) :
    (ModuleSymbols.ofItems [.use absolute (importTree outer last new)]).import? name =
      if name = (new.getD last).name then some ⟨absolute, outer.map Ident.name ++ [last.name]⟩
      else none := by
  simp only [ModuleSymbols.import?, ModuleSymbols.ofItems, List.flatMap_cons, List.flatMap_nil,
    itemBindings, bindings_importTree hlast hnew]
  by_cases hname : name = (new.getD last).name
  · simp [Binding.named?, lookupLast, hname]
  · simp [Binding.named?, lookupLast, List.lookup_cons, hname, beq_eq_false_iff_ne.mpr hname]

/-- A tree with one name has no glob. -/
theorem globs_importTree (hlast : last.name ≠ "self") (hnew : ∀ i, new = some i → i.name ≠ "_")
    (absolute : Bool) (outer : List Ident) :
    (ModuleSymbols.ofItems [.use absolute (importTree outer last new)]).globs = [] := by
  simp [ModuleSymbols.ofItems, itemBindings, bindings_importTree hlast hnew, Binding.glob?]

end

/-! ## Gaps -/

/-- A file with the place of one item open, in the module at the root or in one nested in it. -/
inductive Gap where
  | here (before after : List Item)
  | inside (before : List Item) (name : Ident) (inner : Gap) (after : List Item)

namespace Gap

/-- The file with an item in the gap. -/
def fill (item : Item) : Gap → List Item
  | here before after => before ++ item :: after
  | inside before name inner after => before ++ .module name (some (inner.fill item)) :: after

/-- The items before the gap in its module. -/
def before : Gap → List Item
  | here before _ => before
  | inside _ _ inner _ => inner.before

/-- The items behind the gap in its module. -/
def after : Gap → List Item
  | here _ after => after
  | inside _ _ inner _ => inner.after

/-- The module of the gap, with an item in it. -/
def block (g : Gap) (item : Item) : List Item := g.before ++ item :: g.after

/-- The names of the module without the item in the gap. -/
def others (g : Gap) : ModuleSymbols := .ofItems (g.before ++ g.after)

/-- The path of the module of the gap, in a file at `root`. -/
def scope (root : Scope) : Gap → Scope
  | here .. => root
  | inside _ name inner _ => inner.scope (root.child name.name)

/-- Whether no later block has the path of the module of the gap. -/
def counts (root : Scope) : Gap → Bool
  | here .. => true
  | inside _ name inner after =>
    inner.counts (root.child name.name) &&
      ((SymbolTable.ofNestedAll root after).module? (inner.scope (root.child name.name))).isNone

variable (g : Gap)

/-- A block with a gap is what stands before, the item and what stands after. -/
theorem block_eq (item : Item) : g.block item = g.before ++ [item] ++ g.after := by
  simp [block]

/-- A `use` declaration declares nothing. -/
theorem declares_block (absolute : Bool) (tree : UseTree) (name : String) :
    (ModuleSymbols.ofItems (g.block (.use absolute tree))).declares name =
      g.others.declares name := by
  rw [block_eq, others, ModuleSymbols.declares_append, ModuleSymbols.declares_append,
    ModuleSymbols.declares_append, ModuleSymbols.declares_use, Bool.or_false]

/-- Imports after the gap count first, then the item, then those before. -/
theorem import?_block (item : Item) (name : String) :
    (ModuleSymbols.ofItems (g.block item)).import? name =
      ((ModuleSymbols.ofItems g.after).import? name).or
        (((ModuleSymbols.ofItems [item]).import? name).or
          ((ModuleSymbols.ofItems g.before).import? name)) := by
  rw [block_eq, ModuleSymbols.import?_append, ModuleSymbols.import?_append]

/-- A name that the other items do not import is imported by the item in the gap, or not at all. -/
theorem import?_block_of_others {name : String} (h : g.others.import? name = none) (item : Item) :
    (ModuleSymbols.ofItems (g.block item)).import? name =
      (ModuleSymbols.ofItems [item]).import? name := by
  rw [others, ModuleSymbols.import?_append, Option.or_eq_none_iff] at h
  rw [import?_block, h.1, h.2, Option.none_or, Option.or_none]

/-- Globs stand in the order of the block. -/
theorem globs_block (item : Item) :
    (ModuleSymbols.ofItems (g.block item)).globs =
      (ModuleSymbols.ofItems g.before).globs ++ (ModuleSymbols.ofItems [item]).globs ++
        (ModuleSymbols.ofItems g.after).globs := by
  rw [block_eq, ModuleSymbols.globs_append, ModuleSymbols.globs_append]

/-- The other items have the globs before and after the gap. -/
theorem globs_others :
    g.others.globs =
      (ModuleSymbols.ofItems g.before).globs ++ (ModuleSymbols.ofItems g.after).globs :=
  ModuleSymbols.globs_append _ _

end Gap

/-! ## The table of a file whose gap is filled -/

namespace SymbolTable

/-- A module of the second table counts before one of the first. -/
theorem module?_append (a b : SymbolTable) (s : Scope) :
    (a.append b).module? s = (b.module? s).or (a.module? s) :=
  ModuleSymbols.lookupLast_append s a.modules b.modules

/-- The table of one module has this module. -/
theorem module?_ofModule_self (scope : Scope) (items : List Item) :
    (ofModule scope items).module? scope = some (.ofItems items) := by
  simp [ofModule, module?, lookupLast]

/-- The table of one module has no other one. -/
theorem module?_ofModule_of_ne {scope s : Scope} (h : s ≠ scope) (items : List Item) :
    (ofModule scope items).module? s = none := by
  simp [ofModule, module?, lookupLast, List.lookup_cons, beq_eq_false_iff_ne.mpr h]

/-- An empty table adds nothing in front. -/
theorem empty_append (t : SymbolTable) : empty.append t = t := by
  simp [append, empty]

/-- Tables are put together in any grouping. -/
theorem append_assoc (a b c : SymbolTable) : (a.append b).append c = a.append (b.append c) := by
  simp [append]

/-- The modules nested in a block are those nested in its parts. -/
theorem ofNestedAll_append (scope : Scope) (xs ys : List Item) :
    ofNestedAll scope (xs ++ ys) = (ofNestedAll scope xs).append (ofNestedAll scope ys) := by
  induction xs with
  | nil => rw [List.nil_append, ofNestedAll, empty_append]
  | cons x xs ih => rw [List.cons_append, ofNestedAll, ofNestedAll, ih, append_assoc]

mutual

theorem within_ofNested {scope : Scope} :
    ∀ (item : Item), ∀ entry ∈ (ofNested scope item).modules,
      ∃ name, (scope.child name).Within entry.1
  -- Only a module with a body has entries of its own; the other items have none.
  | .module i (some items) => by
    intro entry hentry
    rw [ofNested] at hentry
    refine ⟨i.name, ?_⟩
    rcases List.mem_append.mp hentry with hown | hnested
    · rw [ofModule, List.mem_singleton] at hown
      rw [hown]
      exact Scope.Within.refl _
    · rcases within_ofNestedAll items entry hnested with ⟨name, hname⟩
      exact hname.of_child
  | .module _ none => by simp [ofNested, empty]
  | .use .. => by simp [ofNested, empty]
  | .struct _ => by simp [ofNested, empty]
  | .declared _ => by simp [ofNested, empty]
  | .typeAlias .. => by simp [ofNested, empty]
  | .externCrate .. => by simp [ofNested, empty]
  | .other => by simp [ofNested, empty]

/-- The modules that a list of items holds are nested in the module of the items. -/
theorem within_ofNestedAll {scope : Scope} :
    ∀ (items : List Item), ∀ entry ∈ (ofNestedAll scope items).modules,
      ∃ name, (scope.child name).Within entry.1
  | [] => by simp [ofNestedAll, empty]
  | item :: items => by
    intro entry hentry
    rw [ofNestedAll] at hentry
    rcases List.mem_append.mp hentry with hfirst | hrest
    · exact within_ofNested item entry hfirst
    · exact within_ofNestedAll items entry hrest

end

theorem module?_ofNestedAll_self (scope : Scope) (items : List Item) :
    (ofNestedAll scope items).module? scope = none := by
  cases hm : (ofNestedAll scope items).module? scope with
  | none => rfl
  | some m =>
    rcases within_ofNestedAll items _ (mem_of_lookupLast hm) with ⟨name, hname⟩
    exact absurd rfl hname.ne_of_child

/-- The table of a file whose gap is in a nested module. -/
theorem ofItems_inside (root : Scope) (before : List Item) (name : Ident)
    (inner after : List Item) :
    ofItems root (before ++ .module name (some inner) :: after) =
      ((ofModule root (before ++ .module name (some inner) :: after)).append
        (ofNestedAll root before)).append
          ((ofItems (root.child name.name) inner).append (ofNestedAll root after)) := by
  rw [ofItems, ofNestedAll_append, ofNestedAll, ofNested, ofItems]
  simp only [append_assoc]

end SymbolTable

namespace Gap

/-- If the module of the gap counts, its names are those of its items. -/
theorem module?_fill {root : Scope} {g : Gap} (h : g.counts root = true) (absolute : Bool)
    (tree : UseTree) :
    (SymbolTable.ofItems root (g.fill (.use absolute tree))).module? (g.scope root) =
      some (.ofItems (g.block (.use absolute tree))) := by
  -- Induction on the gap: that no later module of the name follows is what makes it count.
  induction g generalizing root with
  | here before after =>
    rw [scope, SymbolTable.ofItems, SymbolTable.module?_append,
      SymbolTable.module?_ofNestedAll_self, Option.none_or, SymbolTable.module?_ofModule_self]
    rfl
  | inside before name inner after ih =>
    rw [counts, Bool.and_eq_true, Option.isNone_iff_eq_none] at h
    rw [scope, fill, SymbolTable.ofItems_inside, SymbolTable.module?_append,
      SymbolTable.module?_append, h.2, Option.none_or, ih h.1, Option.some_or]
    rfl

theorem ofNestedAll_use (root : Scope) (before after : List Item) (absolute : Bool)
    (tree : UseTree) :
    SymbolTable.ofNestedAll root (before ++ .use absolute tree :: after) =
      SymbolTable.ofNestedAll root (before ++ after) := by
  rw [SymbolTable.ofNestedAll_append, SymbolTable.ofNestedAll_append]
  exact congrArg _ (SymbolTable.empty_append _)

/-- Two `use` declarations in one gap: the tables differ in nothing but the module of the gap. -/
theorem agreeBut_fill (root : Scope) (g : Gap) (absolute absolute' : Bool)
    (tree tree' : UseTree) :
    SymbolTable.AgreeBut (g.scope root)
      (SymbolTable.ofItems root (g.fill (.use absolute tree)))
      (SymbolTable.ofItems root (g.fill (.use absolute' tree'))) := by
  induction g generalizing root with
  | here before after =>
    refine ⟨?_, ?_, ?_⟩
    · intro s hs
      rw [scope] at hs
      simp only [fill, SymbolTable.ofItems, SymbolTable.module?_append,
        SymbolTable.module?_ofModule_of_ne hs, ofNestedAll_use]
    · simp only [fill, SymbolTable.ofItems, SymbolTable.append, ofNestedAll_use,
        SymbolTable.ofModule, List.filterMap_append]
      rfl
    · simp only [fill, SymbolTable.ofItems, SymbolTable.append, ofNestedAll_use,
        SymbolTable.ofModule, List.filterMap_append]
      rfl
  | inside before name inner after ih =>
    rcases ih (root.child name.name) with ⟨hmodules, haliases, htypes⟩
    -- the module around the gap has a block of the same name in either case
    have hblock : SymbolTable.ofModule root
          (before ++ .module name (some (inner.fill (.use absolute tree))) :: after) =
        SymbolTable.ofModule root
          (before ++ .module name (some (inner.fill (.use absolute' tree'))) :: after) := by
      simp only [SymbolTable.ofModule, ModuleSymbols.ofItems, List.filterMap_append,
        List.flatMap_append]
      rfl
    refine ⟨?_, ?_, ?_⟩
    · intro s hs
      simp only [fill, SymbolTable.ofItems_inside, SymbolTable.module?_append, hmodules s hs,
        hblock]
    · simp only [fill, SymbolTable.ofItems_inside, hblock, SymbolTable.append, haliases]
    · simp only [fill, SymbolTable.ofItems_inside, hblock, SymbolTable.append, htypes]

end Gap

/-! ## An import in the gap -/

/-- The names of a file with the import of a path in its gap. -/
def Gap.importing (g : Gap) (root : Scope) (absolute : Bool) (outer : List Ident) (last : Ident)
    (new : Option Ident) : SymbolTable :=
  .ofItems root (g.fill (.use absolute (importTree outer last new)))

/-- A name that only the import in the gap binds is looked up through the path of that import. -/
theorem lookup_importing {root : Scope} {g : Gap} (hcounts : g.counts root = true)
    (outer : List Ident) {last : Ident} {new : Option Ident} (hlast : last.name ≠ "self")
    (hnew : ∀ i, new = some i → i.name ≠ "_")
    (hdeclares : g.others.declares (new.getD last).name = false)
    (himport : g.others.import? (new.getD last).name = none) (absolute : Bool) (steps : Nat) :
    (g.importing root absolute outer last new).lookup (steps + 2) (g.scope root)
        (new.getD last).name =
      canonicalWith ((g.importing root absolute outer last new).lookup (steps + 1) (g.scope root))
        (g.scope root) true ⟨absolute, outer.map Ident.name ++ [last.name]⟩ := by
  have hm := Gap.module?_fill hcounts absolute (importTree outer last new)
  apply SymbolTable.lookup_imported hm
  · rw [Gap.declares_block, hdeclares]
  · rw [Gap.import?_block_of_others g himport, import?_importTree hlast hnew, if_pos rfl]

end Memberwise
