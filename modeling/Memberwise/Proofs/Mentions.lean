import Memberwise.Proofs.Agreement
import Memberwise.Proofs.Modules
import Memberwise.Proofs.Selection

/-!
# Memberwise.Proofs.Mentions — the names that a file mentions

The names of an item are those that it declares and those in its paths: in `use` trees, in the
attributes that can select it, and in types. The symbol table of a file is written with the names of
its items (`writtenIn_ofItems`).

Whether a struct is selected depends only on what the paths in its attributes stand for
(`isSelected_congr`), and its description only on its own path and what its fields are resolved to
(`describe_congr`). So tables that agree on the names that a struct mentions cannot be told apart by
it (`AlikeOn.struct`).
-/

namespace Memberwise

open Source

/-! ## Names -/

namespace Source.UseTree

mutual

/-- The names in a tree. -/
def names : UseTree → List String
  | path i rest => i.name :: rest.names
  | name i => [i.name]
  | rename i new => [i.name, new.name]
  | glob => []
  | group trees => namesAll trees

/-- The names in a list of trees. -/
def namesAll : List UseTree → List String
  | [] => []
  | tree :: trees => tree.names ++ namesAll trees

end

end Source.UseTree

/-- The paths that are looked up for an attribute and those nested in it at most `depth` deep. -/
def attributePaths : Nat → Meta → List SourcePath
  | 0, _ => []
  | depth + 1, attr =>
    attr.name :: (derivedPaths attr ++ (conditionalMetas attr).flatMap (attributePaths depth))

/-- The paths that are looked up for the attributes of a struct. -/
def Source.StructItem.attributePaths (s : StructItem) : List SourcePath :=
  (s.attributes.filter fun attr => !attr.name.isWord "doc").flatMap fun attr =>
    Memberwise.attributePaths (attr.size + 1) attr

/-- The paths in the types of the fields that can be members. -/
def Source.StructItem.fieldPaths (s : StructItem) : List SourcePath :=
  s.fields.namedList.flatMap fun f => f.type.paths

mutual

/-- The names that an item mentions, with those of the items in it. The names of fields and
parameters are left out, since nothing is looked up by them. -/
def Source.Item.names : Item → List String
  | .use _ tree => tree.names
  | .struct s =>
    s.name.name :: (s.attributePaths ++ s.fieldPaths).flatMap SourcePath.names
  | .declared i => [i.name]
  | .typeAlias i _ target => i.name :: target.paths.flatMap SourcePath.names
  | .module i none => [i.name]
  | .module i (some items) => i.name :: namesIn items
  | .externCrate i new => i.name :: new.toList.map Ident.name
  | .other => []

/-- The names that a list of items mentions. -/
def namesIn : List Item → List String
  | [] => []
  | item :: items => item.names ++ namesIn items

end

theorem names_subset_namesIn {item : Item} {items : List Item} (h : item ∈ items) :
    item.names ⊆ namesIn items := by
  induction items with
  | nil => cases h
  | cons first items ih =>
    rw [namesIn]
    rcases List.mem_cons.mp h with rfl | h
    · exact List.subset_append_left _ _
    · exact List.subset_append_of_subset_right _ (ih h)

/-- A module mentions only names that the file mentions, and so does its path. -/
theorem names_of_mem_blocks_subset {root : Scope} {items : List Item} {b : Scope × List Item}
    (h : b ∈ blocks root items) :
    namesIn b.2 ⊆ namesIn items ∧
      ∃ names, names ⊆ namesIn items ∧ b.1.inner = root.inner ++ names := by
  -- Induction on the modules: a block is the list itself or lies in one of its modules.
  induction items using module_induction generalizing root with
  | step items ih =>
    rcases mem_blocks_iff.mp h with rfl | ⟨⟨i, inner⟩, hm, hb⟩
    · exact ⟨List.Subset.refl _, [], List.nil_subset _, (List.append_nil _).symm⟩
    · obtain ⟨hblock, names, hnames, hinner⟩ := ih (i, inner) hm hb
      have hmodule : i.name :: namesIn inner ⊆ namesIn items := by
        rcases List.mem_filterMap.mp hm with ⟨item, hitem, hinline⟩
        unfold inline? at hinline
        split at hinline
        · cases hinline
          have hsubset := names_subset_namesIn hitem
          rwa [Source.Item.names] at hsubset
        · cases hinline
      obtain ⟨hname, hinside⟩ := List.cons_subset.mp hmodule
      refine ⟨List.Subset.trans hblock hinside, i.name :: names, ?_, ?_⟩
      · exact List.cons_subset.mpr ⟨hname, List.Subset.trans hnames hinside⟩
      · rw [hinner]
        simp [Scope.child]

/-! ## The table of a file -/

/-- The path of a binding. -/
def Binding.path : Binding → NamePath
  | named _ path => path
  | glob path => path

mutual

/-- The paths that a tree binds are made of its names and of those before it. -/
theorem segments_of_mem_bindings {absolute : Bool} :
    ∀ (tree : UseTree) (outer : List String), ∀ b ∈ tree.bindings absolute outer,
      b.path.segments ⊆ outer ++ tree.names
  | .path i rest, outer, b, hb => by
    rw [UseTree.bindings] at hb
    have hrest := segments_of_mem_bindings rest (outer ++ [i.name]) b hb
    rwa [List.append_assoc] at hrest
  | .name i, outer, b, hb => by
    rw [UseTree.bindings] at hb
    split at hb
    · split at hb
      · cases List.mem_singleton.mp hb
        exact List.subset_append_left _ _
      · cases hb
    · cases List.mem_singleton.mp hb
      exact List.Subset.refl _
  | .rename i new, outer, b, hb => by
    rw [UseTree.bindings] at hb
    split at hb
    · cases hb
    · cases List.mem_singleton.mp hb
      rw [Binding.path, UseTree.names]
      split
      -- `self` stands for the path before it
      · exact List.subset_append_left _ _
      · exact List.append_subset.mpr ⟨List.subset_append_left _ _, by simp⟩
  | .glob, outer, b, hb => by
    rw [UseTree.bindings] at hb
    split at hb
    · cases hb
    · cases List.mem_singleton.mp hb
      exact List.subset_append_left _ _
  | .group trees, outer, b, hb => by
    rw [UseTree.bindings] at hb
    exact segments_of_mem_bindingsAll trees outer b hb

theorem segments_of_mem_bindingsAll {absolute : Bool} :
    ∀ (trees : List UseTree) (outer : List String), ∀ b ∈ UseTree.bindingsAll absolute outer trees,
      b.path.segments ⊆ outer ++ UseTree.namesAll trees
  | [], outer, b, hb => by
    rw [UseTree.bindingsAll] at hb
    cases hb
  | tree :: trees, outer, b, hb => by
    -- Each tree adds names of its own, so both parts lie in the names of all trees.
    rw [UseTree.bindingsAll] at hb
    rw [UseTree.namesAll]
    rcases List.mem_append.mp hb with hb | hb
    · have hsegments := segments_of_mem_bindings tree outer b hb
      rw [← List.append_assoc]
      exact List.subset_append_of_subset_left _ hsegments
    · have hsegments := segments_of_mem_bindingsAll trees outer b hb
      refine List.Subset.trans hsegments (List.append_subset.mpr ⟨List.subset_append_left _ _, ?_⟩)
      exact List.subset_append_of_subset_right _ (List.subset_append_right _ _)

end

section

variable {N : String → Prop} {item : Item}

/-- An item binds paths of its names. An external crate is bound by an absolute path. -/
theorem over_of_mem_itemBindings (hN : ∀ name ∈ item.names, N name) :
    ∀ b ∈ itemBindings item, b.path.Over N := by
  intro b hb
  unfold itemBindings at hb
  -- Only a use item and a renamed crate bind anything to a path.
  split at hb
  · next absolute tree =>
    have hsegments := segments_of_mem_bindings tree [] b hb
    rw [List.nil_append] at hsegments
    rw [Source.Item.names] at hN
    exact Or.inr fun name hname => hN name (hsegments hname)
  · simp only at hb
    split at hb
    · cases hb
    · cases List.mem_singleton.mp hb
      exact Or.inl rfl
  · cases hb

theorem over_of_mem_paths {paths : List SourcePath}
    (hN : ∀ name ∈ paths.flatMap SourcePath.names, N name) :
    ∀ p ∈ paths, p.namePath.Over N := by
  intro p hp
  refine Or.inr fun name hname => hN name ?_
  exact List.mem_flatMap.mpr ⟨p, hp, hname⟩

end

/-- The table of a file is written with the names that the file mentions, and its modules go on from
that of the file with such names. -/
theorem writtenIn_ofItems {N : String → Prop} {S : Scope → Prop} {root : Scope} {items : List Item}
    (hN : ∀ name ∈ namesIn items, N name)
    (hS : ∀ s names, s.inner = root.inner ++ names → (∀ name ∈ names, N name) → S s) :
    (SymbolTable.ofItems root items).WrittenIn N S := by
  have hscope : ∀ b ∈ blocks root items, S b.1 := by
    intro b hb
    obtain ⟨-, names, hnames, hinner⟩ := names_of_mem_blocks_subset hb
    exact hS b.1 names hinner fun name hname => hN name (hnames hname)
  have hitem : ∀ b ∈ blocks root items, ∀ item ∈ b.2, ∀ name ∈ item.names, N name := by
    intro b hb item hmem name hname
    apply hN
    exact (names_of_mem_blocks_subset hb).1 (names_subset_namesIn hmem hname)
  -- a module of the table is that of a block, and its bindings are imports of that block
  have hmodule : ∀ s m, (SymbolTable.ofItems root items).module? s = some m →
      ∃ block, (s, block) ∈ blocks root items ∧ .ofItems block = m := by
    intro s m hm
    exact SymbolTable.mem_modules_ofItems.mp (mem_of_lookupLast hm)
  have hbinding : ∀ s block, (s, block) ∈ blocks root items →
      ∀ b ∈ block.flatMap itemBindings, b.path.Over N := by
    intro s block hblock b hb
    rcases List.mem_flatMap.mp hb with ⟨item, hmem, hb⟩
    exact over_of_mem_itemBindings (hitem _ hblock item hmem) b hb
  refine ⟨⟨?_, ?_⟩, ?_, ?_⟩
  · intro s m hm
    obtain ⟨block, hblock, -⟩ := hmodule s m hm
    exact hscope _ hblock
  · intro s m hm name p hp
    obtain ⟨block, hblock, rfl⟩ := hmodule s m hm
    rcases List.mem_filterMap.mp (mem_of_lookupLast hp) with ⟨b, hb, hnamed⟩
    cases b with
    | named _ _ =>
      cases hnamed
      exact hbinding s block hblock _ hb
    | glob _ => cases hnamed
  · intro s m hm p hp
    obtain ⟨block, hblock, rfl⟩ := hmodule s m hm
    rcases List.mem_filterMap.mp hp with ⟨b, hb, hglob⟩
    cases b with
    | named _ _ => cases hglob
    | glob _ =>
      cases hglob
      exact hbinding s block hblock _ hb
  · intro path a ha
    rcases SymbolTable.mem_aliases_ofItems.mp (mem_of_lookupLast ha) with ⟨b, hb, hentry⟩
    rcases List.mem_filterMap.mp hentry with ⟨item, hmem, halias⟩
    have hnames := hitem b hb item hmem
    -- the target of an alias is among the names of its item
    unfold aliasOf? at halias
    split at halias
    · cases halias
      rw [Source.Item.names] at hnames
      exact ⟨hscope b hb, over_of_mem_paths (List.forall_mem_cons.mp hnames).2⟩
    · cases halias

/-! ## What selection and description depend on -/

section

variable {m n : Semantics} {c : Config}

theorem anyM_congr {α : Type} {f g : α → Traced Bool} {xs : List α} (h : ∀ x ∈ xs, f x = g x) :
    xs.anyM f = xs.anyM g := by
  induction xs with
  | nil => rfl
  | cons x xs ih =>
    obtain ⟨hx, hxs⟩ := List.forall_mem_cons.mp h
    rw [List.anyM, List.anyM, hx, ih hxs]

theorem metaQualifies_congr {scope : Scope} {depth : Nat} {attr : Meta}
    (h : ∀ p ∈ attributePaths depth attr, m.attribute? p scope = n.attribute? p scope) :
    metaQualifies m c scope depth attr = metaQualifies n c scope depth attr := by
  -- Induction on the depth: a conditional attribute passes the question on to its contents.
  induction depth generalizing attr with
  | zero => rfl
  | succ depth ih =>
    rw [attributePaths, List.forall_mem_cons, List.forall_mem_append] at h
    obtain ⟨hname, hderived, hnested⟩ := h
    have hderive : (derivedPaths attr).anyM (deriveQualifies m c scope) =
        (derivedPaths attr).anyM (deriveQualifies n c scope) := by
      apply anyM_congr
      intro p hp
      simp only [deriveQualifies, lookAttribute, hderived p hp]
    have hconditional : (conditionalMetas attr).anyM (metaQualifies m c scope depth) =
        (conditionalMetas attr).anyM (metaQualifies n c scope depth) := by
      apply anyM_congr
      intro inner hinner
      apply ih
      intro p hp
      exact hnested p (List.mem_flatMap.mpr ⟨inner, hinner, hp⟩)
    simp only [metaQualifies, lookAttribute, hname, hderive, hconditional]

/-- Whether a struct is selected depends on the paths in its attributes only. -/
theorem isSelected_congr {d : Candidate}
    (h : ∀ p ∈ d.item.attributePaths, m.attribute? p d.scope = n.attribute? p d.scope) :
    isSelected m c d = isSelected n c d := by
  have hqualifying : isQualifying m c d.scope d.item.attributes =
      isQualifying n c d.scope d.item.attributes := by
    apply anyM_congr
    intro attr hattr
    apply metaQualifies_congr
    intro p hp
    exact h p (List.mem_flatMap.mpr ⟨attr, hattr, hp⟩)
  rw [isSelected, isSelected, hqualifying]

/-- How a struct is described depends on its own path, on the types of its fields and on their
marks. -/
theorem describe_congr {d : Candidate} (hmark : m.mark = n.mark)
    (hname : m.declaredName? d.item.name d.scope = n.declaredName? d.item.name d.scope)
    (htypes : ∀ f ∈ d.item.fields.namedList, m.type? f.type d.scope = n.type? f.type d.scope) :
    describe m c d = describe n c d := by
  -- A struct's fields are described one after the other, each by its type alone.
  have hfields : ∀ fields : List Field,
      (∀ f ∈ fields, m.type? f.type d.scope = n.type? f.type d.scope) →
        describeFields m c d fields = describeFields n c d fields := by
    intro fields h
    induction fields with
    | nil => rfl
    | cons f fs ih =>
      obtain ⟨hf, hfs⟩ := List.forall_mem_cons.mp h
      have hfield : describeField m c d f = describeField n c d f := by
        unfold describeField
        simp only [hmark, hf]
      simp only [describeFields, hfield, ih hfs]
  unfold describe
  simp only [hname, hfields _ htypes]

end

/-- Tables that agree on the names that a struct mentions give the same on whether it is selected,
and on how it is described. -/
theorem SymbolTable.AlikeOn.struct {N Q : String → Prop} {S : Scope → Prop} {t u : SymbolTable}
    (h : t.AlikeOn N Q u) (ht : t.WrittenIn N S) (hkept : Kept N S Q) (c : Config) (marks : Bool)
    {d : Candidate} (hscope : S d.scope) (hnames : ∀ name ∈ (Item.struct d.item).names, N name) :
    isSelected (Semantics.ofTable t marks) c d = isSelected (Semantics.ofTable u marks) c d ∧
      describe (Semantics.ofTable t marks) c d = describe (Semantics.ofTable u marks) c d := by
  rw [Item.names, List.forall_mem_cons] at hnames
  have hover := over_of_mem_paths hnames.2
  rw [List.forall_mem_append] at hover
  constructor
  · apply isSelected_congr
    -- What the struct names is what its attributes and the types of its fields name.
    intro p hp
    exact h.attribute? ht (hover.1 p hp) d.scope
  · refine describe_congr rfl ?_ fun f hf => ?_
    · show t.declaredName? d.item.name d.scope = u.declaredName? d.item.name d.scope
      simp only [SymbolTable.declaredName?, h.localTypes _ (hkept.join hscope hnames.1)]
    · refine h.resolveIn ht hkept maxSteps d.scope [] f.type hscope fun p hp => ?_
      exact hover.2 p (List.mem_flatMap.mpr ⟨f, hf, hp⟩)

/-- A struct stands among the items of a module of the file, the path of which is its scope. -/
theorem StructAt.exists_block {root : Scope} {items : List Item} {position : List Nat}
    {d : Candidate} (h : StructAt root items position d) :
    ∃ block, (d.scope, block) ∈ blocks root items ∧ .struct d.item ∈ block := by
  induction h with
  | @here root items k s h =>
    exact ⟨items, self_mem_blocks root items, List.mem_of_getElem? h⟩
  | @inside root items inner k i position d h _ ih =>
    obtain ⟨block, hblock, hmem⟩ := ih
    have hinline : (i, inner) ∈ items.filterMap inline? :=
      List.mem_filterMap.mpr ⟨_, List.mem_of_getElem? h, rfl⟩
    exact ⟨block, mem_blocks_of_inline hinline hblock, hmem⟩

end Memberwise
