import Memberwise.Proofs.Agreement
import Memberwise.Proofs.Modules

/-!
# Memberwise.Proofs.Rearranging — the order of declarations

A file is rearranged by changing the order of items in any of its modules. Each module then still
has the same path and the same items, except that its modules may be rearranged in their turn
(`Rearranged.exists_block`).

If no module binds a name twice, and none has two globs, the symbol tables of the two files give the
same answers (`Rearranged.alike`). So everything that is looked up is the same, and describing the
rearranged file describes the same structs alike, in another order (`describeItems_rearranged`).
-/

namespace Memberwise

open Source

/-! ## Rearranged files -/

/-- Files that differ only in the order of items in their modules, at any depth. -/
inductive Rearranged : List Item → List Item → Prop where
  | perm {xs ys : List Item} (h : xs.Perm ys) : Rearranged xs ys
  | inside (before : List Item) (i : Ident) (after : List Item) {xs ys : List Item}
      (h : Rearranged xs ys) :
      Rearranged (before ++ .module i (some xs) :: after) (before ++ .module i (some ys) :: after)
  | trans {xs ys zs : List Item} (h : Rearranged xs ys) (h' : Rearranged ys zs) : Rearranged xs zs

/-- Rearranging can be undone. -/
theorem Rearranged.symm {xs ys : List Item} (h : Rearranged xs ys) : Rearranged ys xs := by
  induction h with
  | perm h => exact perm h.symm
  | inside before i after h ih => exact inside before i after ih
  | trans h h' ih ih' => exact trans ih' ih

/-! ## What a module shows of its items -/

/-- An item as the module around it sees it: of a module in the file, only the name. -/
def face : Item → Item
  | .module i (some _) => .module i (some [])
  | item => item

/-- Modules that have the same items up to order, and up to what is in the modules among them. -/
def SameFaces (xs ys : List Item) : Prop := (xs.map face).Perm (ys.map face)

/-- A function that does not look into modules sees only faces. -/
theorem apply_face {β : Type} {f : Item → β}
    (hf : ∀ i content, f (.module i (some content)) = f (.module i (some []))) (item : Item) :
    f (face item) = f item := by
  unfold face
  split
  · exact (hf _ _).symm
  · rfl

/-- The name of a module whose content is in the file. -/
def inlineName? (item : Item) : Option String := (inline? item).map fun m => m.1.name

/-- The names of inline modules are those of the modules. -/
theorem filterMap_inlineName? (items : List Item) :
    items.filterMap inlineName? = (items.filterMap inline?).map fun m => m.1.name :=
  (List.map_filterMap ..).symm

namespace SameFaces

variable {xs ys : List Item}

/-- What does not look into modules is the same but for the order. -/
theorem filterMap (h : SameFaces xs ys) {β : Type} {f : Item → Option β}
    (hf : ∀ i content, f (.module i (some content)) = f (.module i (some []))) :
    (xs.filterMap f).Perm (ys.filterMap f) := by
  have hface : ∀ items : List Item, (items.map face).filterMap f = items.filterMap f := by
    intro items
    rw [List.filterMap_map]
    exact congrArg (List.filterMap · items) (funext (apply_face hf))
  rw [← hface xs, ← hface ys]
  exact List.Perm.filterMap f h

/-- Blocks with the same faces bind the same, in another order. -/
theorem bindings (h : SameFaces xs ys) :
    (xs.flatMap itemBindings).Perm (ys.flatMap itemBindings) := by
  have hface : ∀ items : List Item,
      (items.map face).flatMap itemBindings = items.flatMap itemBindings := by
    intro items
    rw [List.flatMap_map]
    exact congrArg (List.flatMap · items) (funext (apply_face fun _ _ => rfl))
  rw [← hface xs, ← hface ys]
  exact List.Perm.flatMap_right itemBindings h

/-- Blocks with the same faces import the same, in another order. -/
theorem imports (h : SameFaces xs ys) :
    (ModuleSymbols.ofItems xs).imports.Perm (ModuleSymbols.ofItems ys).imports :=
  h.bindings.filterMap Binding.named?

/-- Blocks with the same faces have the same globs, in another order. -/
theorem globs (h : SameFaces xs ys) :
    (ModuleSymbols.ofItems xs).globs.Perm (ModuleSymbols.ofItems ys).globs :=
  h.bindings.filterMap Binding.glob?

/-- A block with the same face is orderly too. -/
theorem orderly (h : SameFaces xs ys) (hxs : Orderly xs) : Orderly ys := by
  refine ⟨?_, ?_, ?_, ?_⟩
  · rw [← h.globs.length_eq]
    exact hxs.globs
  · exact (h.imports.map Prod.fst).nodup_iff.mp hxs.imports
  · exact (h.filterMap (f := aliasName?) fun _ _ => rfl).nodup_iff.mp hxs.aliases
  · rw [← filterMap_inlineName?]
    refine (h.filterMap (f := inlineName?) fun _ _ => rfl).nodup_iff.mp ?_
    rw [filterMap_inlineName?]
    exact hxs.modules

/-- A block with the same face has names without colons too. -/
theorem colonFree (h : SameFaces xs ys) (hxs : ColonFree xs) : ColonFree ys := by
  refine ⟨fun name hname => ?_, fun m hm => ?_⟩
  · exact hxs.aliases name ((h.filterMap (f := aliasName?) fun _ _ => rfl).mem_iff.mpr hname)
  · have hname : m.1.name ∈ ys.filterMap inlineName? := by
      rw [filterMap_inlineName?]
      exact List.mem_map_of_mem hm
    rw [← (h.filterMap (f := inlineName?) fun _ _ => rfl).mem_iff, filterMap_inlineName?] at hname
    rcases List.mem_map.mp hname with ⟨m', hm', hname'⟩
    rw [← hname']
    exact hxs.modules m' hm'

end SameFaces

/-! ## The modules of a rearranged file -/

/-- A rearranged file has a module at each path at which the file has one, with the same faces. -/
theorem Rearranged.exists_block {xs ys : List Item} (h : Rearranged xs ys) (root : Scope) :
    ∀ b ∈ blocks root xs, ∃ block, (b.1, block) ∈ blocks root ys ∧ SameFaces b.2 block := by
  induction h generalizing root with
  | @perm xs ys h =>
    intro b hb
    rcases mem_blocks_iff.mp hb with rfl | ⟨m, hm, hbm⟩
    · exact ⟨ys, self_mem_blocks root ys, h.map face⟩
    · -- the module stands elsewhere, with the same content
      have hm' : m ∈ ys.filterMap inline? := (h.filterMap inline?).mem_iff.mp hm
      exact ⟨b.2, mem_blocks_of_inline hm' hbm, List.Perm.refl _⟩
  | @inside before i after xs ys h ih =>
    intro b hb
    have hinline : ∀ content : List Item,
        (before ++ .module i (some content) :: after).filterMap inline? =
          before.filterMap inline? ++ (i, content) :: after.filterMap inline? := by
      intro content
      rw [List.filterMap_append]
      rfl
    rcases mem_blocks_iff.mp hb with rfl | ⟨m, hm, hbm⟩
    · refine ⟨_, self_mem_blocks root _, ?_⟩
      rw [SameFaces, List.map_append, List.map_append]
      exact List.Perm.refl _
    · rw [hinline, List.mem_append, List.mem_cons] at hm
      have hother : m ∈ before.filterMap inline? ∨ m ∈ after.filterMap inline? →
          ∃ block, (b.1, block) ∈ blocks root (before ++ .module i (some ys) :: after) ∧
            SameFaces b.2 block := by
        intro hm
        refine ⟨b.2, mem_blocks_of_inline ?_ hbm, List.Perm.refl _⟩
        rw [hinline, List.mem_append, List.mem_cons]
        exact hm.imp_right Or.inr
      rcases hm with hm | rfl | hm
      · exact hother (Or.inl hm)
      · -- the module itself was rearranged
        rcases ih (root.child i.name) b hbm with ⟨block, hblock, hfaces⟩
        refine ⟨block, mem_blocks_of_inline (m := (i, ys)) ?_ hblock, hfaces⟩
        rw [hinline]
        exact List.mem_append_right _ List.mem_cons_self
      · exact hother (Or.inr hm)
  | trans _ _ ih ih' =>
    intro b hb
    rcases ih root b hb with ⟨block, hblock, hfaces⟩
    rcases ih' root (b.1, block) hblock with ⟨block', hblock', hfaces'⟩
    exact ⟨block', hblock', hfaces.trans hfaces'⟩

section

variable {root : Scope} {xs ys : List Item}

/-- Every block of a rearranged file is orderly. -/
theorem Rearranged.orderly (h : Rearranged xs ys) (hxs : ∀ b ∈ blocks root xs, Orderly b.2) :
    ∀ b ∈ blocks root ys, Orderly b.2 := by
  intro b hb
  rcases h.symm.exists_block root b hb with ⟨block, hblock, hfaces⟩
  exact SameFaces.orderly hfaces.symm (hxs _ hblock)

/-- Every block of a rearranged file has names without colons. -/
theorem Rearranged.colonFree (h : Rearranged xs ys) (hxs : ∀ b ∈ blocks root xs, ColonFree b.2) :
    ∀ b ∈ blocks root ys, ColonFree b.2 := by
  intro b hb
  rcases h.symm.exists_block root b hb with ⟨block, hblock, hfaces⟩
  exact SameFaces.colonFree hfaces.symm (hxs _ hblock)

end

/-! ## Tables that answer alike -/

/-- Modules of which every question has the same answer. -/
structure ModuleSymbols.Alike (m n : ModuleSymbols) : Prop where
  declares : ∀ name, m.declares name = n.declares name
  imports : ∀ name, m.import? name = n.import? name
  globs : m.globs = n.globs

/-- Tables of which every question has the same answer. -/
structure SymbolTable.Alike (t u : SymbolTable) : Prop where
  modules : ∀ s, t.module? s = none ∧ u.module? s = none ∨
    ∃ m n, t.module? s = some m ∧ u.module? s = some n ∧ m.Alike n
  aliases : ∀ path, t.alias? path = u.alias? path
  localTypes : ∀ path, t.isLocalType path = u.isLocalType path

namespace SymbolTable.Alike

variable {t u : SymbolTable}

/-- Tables that answer alike agree on all names and paths. -/
theorem on (h : t.Alike u) : t.AlikeOn (fun _ => True) (fun _ => True) u := by
  refine ⟨fun s => ?_, fun path _ => h.aliases path, fun path _ => h.localTypes path⟩
  rcases h.modules s with hnone | ⟨m, n, ht, hu, hmn⟩
  · exact Or.inl hnone
  · exact Or.inr ⟨m, n, ht, hu, fun name _ => hmn.declares name, fun name _ => hmn.imports name,
      hmn.globs⟩

/-- Tables that are alike look names up alike. -/
theorem lookup (h : t.Alike u) (steps : Nat) (s : Scope) (name : String) :
    t.lookup steps s name = u.lookup steps s name :=
  h.on.lookup t.writtenIn_all steps s name True.intro

/-- Tables that are alike canonicalize paths alike. -/
theorem canonical (h : t.Alike u) (steps : Nat) (s : Scope) (alone : Bool) (p : NamePath) :
    t.canonical steps s alone p = u.canonical steps s alone p :=
  h.on.canonical t.writtenIn_all steps s alone p.over_all

/-- Types are resolved alike. -/
theorem resolveIn (h : t.Alike u) (steps : Nat) (s : Scope) (params : List (String × ResolvedType))
    (ty : SourceType) : t.resolveIn steps s params ty = u.resolveIn steps s params ty :=
  h.on.resolveIn t.writtenIn_all Kept.all steps s params ty True.intro
    fun p _ => p.namePath.over_all

/-- Tables that answer alike give names and types the same meaning everywhere. -/
theorem agreeOn (h : t.Alike u) (marks : Bool) (P : Scope → Prop) :
    (Semantics.ofTable t marks).AgreeOn P (Semantics.ofTable u marks) := by
  refine ⟨fun p s _ => ?_, fun i s _ => ?_, fun ty s _ => h.resolveIn maxSteps s [] ty, rfl⟩
  · simp only [Semantics.ofTable, SymbolTable.attribute?, h.lookup, h.canonical]
  · simp only [Semantics.ofTable, SymbolTable.declaredName?, h.localTypes]

end SymbolTable.Alike

/-! ## The tables of rearranged files -/

/-- The order of entries does not matter if no two have the same key. -/
theorem lookupLast_perm {α β : Type} [BEq α] [LawfulBEq α] {as bs : List (α × β)}
    (h : as.Perm bs) (hnodup : (as.map Prod.fst).Nodup) (key : α) :
    lookupLast key as = lookupLast key bs := by
  have huniq := List.inj_on_of_nodup_map hnodup
  have huniq' := List.inj_on_of_nodup_map ((h.map Prod.fst).nodup_iff.mp hnodup)
  ext b
  rw [lookupLast_eq_some_iff fun x hx y hy => huniq hx hy,
    lookupLast_eq_some_iff fun x hx y hy => huniq' hx hy, h.mem_iff]

/-- One element has no other order. -/
theorem eq_of_perm_of_length_le_one {α : Type} {as bs : List α} (h : as.Perm bs)
    (hlength : as.length ≤ 1) : as = bs := by
  match as, hlength with
  | [], _ => exact h.nil_eq
  | [a], _ => exact List.singleton_perm.mp h

/-- A module without repetitions shows the same whatever the order of its items is. -/
theorem SameFaces.alike {xs ys : List Item} (h : SameFaces xs ys) (hxs : Orderly xs) :
    (ModuleSymbols.ofItems xs).Alike (ModuleSymbols.ofItems ys) := by
  refine ⟨fun name => ?_, lookupLast_perm h.imports hxs.imports,
    eq_of_perm_of_length_le_one h.globs hxs.globs⟩
  have htypes := h.filterMap (f := fun i => (declaredType? i).or (aliasName? i)) fun _ _ => rfl
  have hmodules := h.filterMap (f := moduleName?) fun _ _ => rfl
  exact congrArg₂ (· || ·) htypes.contains_eq hmodules.contains_eq

section

variable {root : Scope} {xs ys : List Item}

/-- What the items of a module show one by one, they show in a rearranged file. -/
theorem Rearranged.exists_mem_filterMap (h : Rearranged xs ys) {β : Type}
    {f : Scope → Item → Option β}
    (hf : ∀ s i content, f s (.module i (some content)) = f s (.module i (some []))) {shown : β} :
    (∃ b ∈ blocks root xs, shown ∈ b.2.filterMap (f b.1)) →
      ∃ b ∈ blocks root ys, shown ∈ b.2.filterMap (f b.1) := by
  rintro ⟨b, hb, hshown⟩
  rcases h.exists_block root b hb with ⟨block, hblock, hfaces⟩
  exact ⟨_, hblock, (hfaces.filterMap (hf b.1)).mem_iff.mp hshown⟩

/-- Every module of a file is alike in the rearranged file. -/
theorem Rearranged.exists_module (h : Rearranged xs ys)
    (horderly : ∀ b ∈ blocks root xs, Orderly b.2) {s : Scope} {m : ModuleSymbols}
    (hm : (SymbolTable.ofItems root xs).module? s = some m) :
    ∃ n, (SymbolTable.ofItems root ys).module? s = some n ∧ m.Alike n := by
  rcases (module?_eq_some_iff horderly).mp hm with ⟨block, hblock, rfl⟩
  rcases h.exists_block root _ hblock with ⟨block', hblock', hfaces⟩
  exact ⟨_, (module?_eq_some_iff (h.orderly horderly)).mpr ⟨block', hblock', rfl⟩,
    hfaces.alike (horderly _ hblock)⟩

/-- Without repetitions, the tables of rearranged files answer alike. -/
theorem Rearranged.alike (h : Rearranged xs ys) (hcolons : ∀ b ∈ blocks root xs, ColonFree b.2)
    (horderly : ∀ b ∈ blocks root xs, Orderly b.2) :
    (SymbolTable.ofItems root xs).Alike (SymbolTable.ofItems root ys) := by
  refine ⟨fun s => ?_, fun path => ?_, fun path => ?_⟩
  · cases hm : (SymbolTable.ofItems root xs).module? s with
    | some m =>
      rcases h.exists_module horderly hm with ⟨n, hn, hmn⟩
      exact Or.inr ⟨m, n, rfl, hn, hmn⟩
    | none =>
      -- a module of the rearranged file would be one of the file, too
      refine Or.inl ⟨rfl, ?_⟩
      cases hn : (SymbolTable.ofItems root ys).module? s with
      | none => rfl
      | some n =>
        rcases h.symm.exists_module (h.orderly horderly) hn with ⟨m, hm', -⟩
        cases hm.symm.trans hm'
  · ext a
    rw [alias?_eq_some_iff hcolons horderly,
      alias?_eq_some_iff (h.colonFree hcolons) (h.orderly horderly)]
    exact ⟨h.exists_mem_filterMap fun _ _ _ => rfl, h.symm.exists_mem_filterMap fun _ _ _ => rfl⟩
  · rw [Bool.eq_iff_iff, SymbolTable.isLocalType, SymbolTable.isLocalType, List.contains_iff_mem,
      List.contains_iff_mem, SymbolTable.mem_localTypes_ofItems, SymbolTable.mem_localTypes_ofItems]
    exact ⟨h.exists_mem_filterMap fun _ _ _ => rfl, h.symm.exists_mem_filterMap fun _ _ _ => rfl⟩

end

/-! ## Scanning and describing rearranged files -/

/-- Scanning selects from each item by itself. -/
theorem value_scan (m : Semantics) (c : Config) (scope : Scope) (items : List Item) :
    (scan m c scope items).value = items.flatMap fun item => (scanItem m c scope item).value := by
  induction items with
  | nil => rfl
  | cons item items ih => rw [List.flatMap_cons, ← ih]; rfl

/-- Structs are described one by one. -/
theorem value_describeAll (m : Semantics) (c : Config) (ds : List Candidate) :
    (describeAll m c ds).value = ds.map fun d => (describe m c d).value := by
  induction ds with
  | nil => rfl
  | cons d ds ih => rw [List.map_cons, ← ih]; rfl

/-- In a rearranged file the same structs are selected. -/
theorem Rearranged.scan {xs ys : List Item} (h : Rearranged xs ys) (m : Semantics) (c : Config)
    (scope : Scope) : (scan m c scope xs).value.Perm (scan m c scope ys).value := by
  induction h generalizing scope with
  | perm h =>
    rw [value_scan, value_scan]
    exact h.flatMap_right _
  | inside before i after h ih =>
    rw [value_scan, value_scan, List.flatMap_append, List.flatMap_append, List.flatMap_cons,
      List.flatMap_cons]
    exact ((ih (scope.child i.name)).append_right _).append_left _
  | trans _ _ ih ih' => exact (ih scope).trans (ih' scope)

/-- If no module of a file has two globs, binds a name by two imports, or declares two aliases or
two modules of one name, the order of items does not matter: the same structs are selected, each has
the same descriptor, and so the descriptors are the same up to order. Names are identifiers, of
which all that counts is that they have no colon. -/
theorem describeItems_rearranged (c : Config) (root : Scope) (items items' : List Item)
    (hcolons : ∀ b ∈ blocks root items, ColonFree b.2)
    (horderly : ∀ b ∈ blocks root items, Orderly b.2) (h : Rearranged items items') :
    let m := Semantics.ofTable (SymbolTable.ofItems root items) c.nullableAnnotations
    let m' := Semantics.ofTable (SymbolTable.ofItems root items') c.nullableAnnotations
    (scan m c root items).value.Perm (scan m' c root items').value ∧
      (∀ d, describe m c d = describe m' c d) ∧
      (describeItems c root items).value.Perm (describeItems c root items').value := by
  intro m m'
  have hagree : m.AgreeOn Scope.root.Within m' :=
    (h.alike hcolons horderly).agreeOn c.nullableAnnotations _
  -- All scopes lie within the root, so agreement there is agreement everywhere.
  have hroot : ∀ s, Scope.root.Within s := fun s => List.nil_prefix
  have hc : c.Alike c := ⟨rfl, rfl⟩
  have hscan : (scan m c root items).value.Perm (scan m' c root items').value := by
    rw [scan_eq hc hagree (hroot root) items]
    exact h.scan m' c root
  have hdescribe : ∀ d, describe m c d = describe m' c d :=
    fun d => describe_eq hc hagree (hroot d.scope)
  refine ⟨hscan, hdescribe, ?_⟩
  change (describeAll m c _).value.Perm (describeAll m' c _).value
  rw [value_describeAll, value_describeAll, funext hdescribe]
  exact hscan.map _

/-- A struct that is selected, with one field. -/
def sampleStruct (name field type : String) : Item :=
  .struct ⟨[.path (.mk true [.mk (.plain "propgroup") .none, .mk (.plain "PropertyMap") .none])],
    .plain name, [],
    .named [⟨[], some (.plain field), .path (.mk false [.mk (.plain type) .none])⟩]⟩

/-- The items of a module with an import and an alias of what it imports. -/
def drawer : List Item :=
  [.use false (.path (.plain "super") (.name (.plain "Label"))), .declared (.plain "Tag"),
   .typeAlias (.plain "Mark") [] (.path (.mk false [.mk (.plain "Label") .none])),
   sampleStruct "Card" "mark" "Mark"]

/-- A file with a glob, an alias and a module. -/
def cabinet (inner : List Item) : List Item :=
  [.use false (.path (.plain "self") (.path (.plain "drawer") .glob)),
   .typeAlias (.plain "Label") [] (.path (.mk false [.mk (.plain "String") .none])),
   .module (.plain "drawer") (some inner), sampleStruct "Box" "tag" "Tag"]

theorem describeItems_rearranged_cabinet :
    (∀ b ∈ blocks .root (cabinet drawer), ColonFree b.2) ∧
      (∀ b ∈ blocks .root (cabinet drawer), Orderly b.2) ∧
      Rearranged (cabinet drawer) (cabinet drawer.reverse).reverse ∧
      (describeItems .default .root (cabinet drawer)).value.Perm
        (describeItems .default .root (cabinet drawer.reverse).reverse).value ∧
      (describeItems .default .root (cabinet drawer)).value =
        [⟨"Card", "crate::drawer::Card",
          [⟨"mark", "mark", "::std::string::String", true, .alwaysNullable⟩]⟩,
         ⟨"Box", "crate::Box", [⟨"tag", "tag", "crate::drawer::Tag", true, .nonNullable⟩]⟩] := by
  have hcolons : ∀ b ∈ blocks .root (cabinet drawer), ColonFree b.2 := by decide +kernel
  have horderly : ∀ b ∈ blocks .root (cabinet drawer), Orderly b.2 := by decide +kernel
  -- First the module's content is turned round, then the file around it.
  have hinner : Rearranged (cabinet drawer) (cabinet drawer.reverse) :=
    .inside ((cabinet []).take 2) (.plain "drawer") ((cabinet []).drop 3)
      (.perm (List.reverse_perm drawer).symm)
  have h : Rearranged (cabinet drawer) (cabinet drawer.reverse).reverse :=
    hinner.trans (.perm (List.reverse_perm _).symm)
  exact ⟨hcolons, horderly, h, (describeItems_rearranged _ _ _ _ hcolons horderly h).2.2,
    by decide +kernel⟩

end Memberwise
