import Memberwise.Proofs.Mentions

/-!
# Memberwise.Proofs.Indexing — a scan finds what the table knows

The table of a file and the scan of it are made by two passes of their own. The table takes the
items of a module first and the modules in it later; the scan enters a module where it stands. Both
build the paths of modules from their names without `r#`.

A position in the file passes through the modules around it (`modulesOn`), and their names make up
the scope of the struct that stands there (`StructAt.inner_scope`). The module is a block of the
file, so the table has an entry for it (`isSome_module?_of_mem_blocks`), and the struct is among the
items of the block, so its path is that of a local type (`isLocalType_of_mem_blocks`). Hence each
struct that is found has its full name in the table (`scanned_structs_indexed`). Blocks may repeat a
module path; entries of all of them are kept.
-/

namespace Memberwise

open Source

/-! ## The modules around a position -/

/-- The modules that a position passes through, outermost first. -/
def modulesOn (items : List Item) : List Nat → List Ident
  | [] => []
  | k :: position =>
    match items[k]? with
    | some (.module i (some inner)) => i :: modulesOn inner position
    | _ => []

/-- The scope of a struct goes on from that of the file with the names of the modules around it. -/
theorem StructAt.inner_scope {root : Scope} {items : List Item} {position : List Nat}
    {d : Candidate} (h : StructAt root items position d) :
    d.scope.inner = root.inner ++ (modulesOn items position).map Ident.name := by
  induction h with
  | here h => simp [modulesOn, h]
  | inside h _ ih => simp [modulesOn, h, ih, Scope.child]

/-! ## What the table knows of a block -/

theorem isSome_lookupLast {α β : Type} [BEq α] [LawfulBEq α] {entries : List (α × β)} {key : α}
    {b : β} (h : (key, b) ∈ entries) : (lookupLast key entries).isSome = true := by
  rw [Option.isSome_iff_ne_none]
  intro hnone
  rw [lookupLast, List.lookup_eq_none_iff] at hnone
  have hne := hnone (key, b) (List.mem_reverse.mpr h)
  simp at hne

section

variable {root s : Scope} {items block : List Item}

/-- The table has an entry for every module of the file. -/
theorem isSome_module?_of_mem_blocks (h : (s, block) ∈ blocks root items) :
    ((SymbolTable.ofItems root items).module? s).isSome = true := by
  have hentry : (s, ModuleSymbols.ofItems block) ∈ (SymbolTable.ofItems root items).modules :=
    SymbolTable.mem_modules_ofItems.mpr ⟨block, h, rfl⟩
  exact isSome_lookupLast hentry

/-- What a block declares as a type is a local type, whatever the other blocks hold. -/
theorem isLocalType_of_mem_blocks (h : (s, block) ∈ blocks root items) {item : Item}
    (hitem : item ∈ block) {name : String} (hname : declaredType? item = some name) :
    (SymbolTable.ofItems root items).isLocalType (s.join name) = true := by
  rw [SymbolTable.isLocalType, List.contains_iff_mem, SymbolTable.mem_localTypes_ofItems]
  refine ⟨(s, block), h, List.mem_filterMap.mpr ⟨item, hitem, ?_⟩⟩
  rw [localTypeOf?, hname]
  rfl

end

/-! ## Full names -/

/-- The path of an item has the segments of its module and its name. -/
theorem Scope.join_eq_intercalate (s : Scope) (name : String) :
    s.join name = "::".intercalate (s.segments ++ [name]) := by
  rw [Scope.join, Scope.path, Scope.segments, String.intercalate_append_of_ne_nil
    (List.cons_ne_nil _ _) (List.cons_ne_nil _ _), String.intercalate_singleton]

/-- A struct of the file has its full name in the table. -/
theorem StructAt.declaredName? {root : Scope} {items : List Item} {position : List Nat}
    {d : Candidate} (h : StructAt root items position d) :
    (SymbolTable.ofItems root items).declaredName? d.item.name d.scope =
      some (d.scope.join d.item.name.name) := by
  obtain ⟨block, hblock, hstruct⟩ := h.exists_block
  rw [SymbolTable.declaredName?, isLocalType_of_mem_blocks hblock hstruct rfl, if_pos rfl]

/-- A struct of the file is described with this name. -/
theorem StructAt.fullName {root : Scope} {items : List Item} {position : List Nat} {d : Candidate}
    (h : StructAt root items position d) (c : Config) (marks : Bool) :
    (describe (.ofTable (.ofItems root items) marks) c d).value.fullName =
      "::".intercalate (d.scope.segments ++ [d.item.name.name]) := by
  have hname : (describe (.ofTable (.ofItems root items) marks) c d).value.fullName =
      ((SymbolTable.ofItems root items).declaredName? d.item.name d.scope).getD d.item.name.name :=
    rfl
  rw [hname, h.declaredName?, Option.getD_some, Scope.join_eq_intercalate]

/-- What a scan finds, with the positions. -/
theorem value_scan_selected (m : Semantics) (c : Config) (root : Scope) (items : List Item) :
    (scan m c root items).value =
      ((structsFrom root 0 items).filter fun e => isSelected m c e.2).map Prod.snd := by
  rw [value_scan_structsFrom m c root 0 items, List.filter_map]
  rfl

/-- Whatever a scan finds in a file, with the table of the same file and root, the table knows: it
has an entry for the module of the struct, the struct is a local type of it, and so the full name of
the struct is never the bare name, but the root, the modules around the struct and its name, all
without `r#`. -/
theorem scanned_structs_indexed (c : Config) (root : Scope) (items : List Item) (marks : Bool) :
    let t := SymbolTable.ofItems root items
    let m := Semantics.ofTable t marks
    ∃ found : List (List Nat × Candidate),
      (scan m c root items).value = found.map Prod.snd ∧
      found.Pairwise (fun e f => e.1 < f.1) ∧
      ∀ e ∈ found,
        let names := (modulesOn items e.1).map Ident.name
        let name := e.2.item.name.name
        StructAt root items e.1 e.2 ∧
        e.2.scope = ⟨root.inner ++ names⟩ ∧
        (t.module? e.2.scope).isSome = true ∧
        t.isLocalType (e.2.scope.join name) = true ∧
        m.declaredName? e.2.item.name e.2.scope = some (e.2.scope.join name) ∧
        (describe m c e.2).value.fullName =
          "::".intercalate (root.segments ++ names ++ [name]) := by
  intro t m
  refine ⟨(structsFrom root 0 items).filter fun e => isSelected m c e.2,
    value_scan_selected m c root items, (pairwise_structsFrom root 0 items).filter _, ?_⟩
  intro e he names name
  have hat : StructAt root items e.1 e.2 :=
    mem_structsFrom_zero_iff.mp (List.mem_filter.mp he).1
  have hscope : e.2.scope = ⟨root.inner ++ names⟩ := congrArg Scope.mk hat.inner_scope
  -- The struct stands in a block of its module, and blocks are what the table is made from.
  obtain ⟨block, hblock, hstruct⟩ := hat.exists_block
  refine ⟨hat, hscope, isSome_module?_of_mem_blocks hblock,
    isLocalType_of_mem_blocks hblock hstruct rfl, hat.declaredName?, ?_⟩
  rw [hat.fullName c marks, hscope]
  rfl

end Memberwise
