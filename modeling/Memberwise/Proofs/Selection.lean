import Memberwise.Proofs.Origins
import Memberwise.Proofs.Rearranging

/-!
# Memberwise.Proofs.Selection — which structs are selected

A struct is selected by a *leaf* of its attributes: a path that is left when every `cfg_attr` is
peeled off and every `derive` is replaced by its list (`Leaf`). Peeling ends because an inner
attribute is smaller than the one around it, and a scan peels deep enough to reach every leaf
(`value_metaQualifies`).

A struct is found by its *position*: the numbers of the items that lead to it, module by module
(`StructAt`). The scan passes through the positions in increasing order (`structsFrom`,
`value_scan_structsFrom`), so what it gives is known by position, order and multiplicity included.
-/

namespace Memberwise

open Source

/-! ## The leaves of an attribute -/

/-- The path is a leaf of the attribute, as attributes are looked up in `scope`. -/
inductive Leaf (m : Semantics) (scope : Scope) : Meta → SourcePath → Prop where
  /-- A known attribute, `derive` and `cfg_attr` apart, stands for itself. -/
  | own {attr : Meta} {path : String} (hname : m.attribute? attr.name scope = some path)
      (hderive : path ≠ derivePath) (hconditional : path ≠ conditionalPath) :
      Leaf m scope attr attr.name
  /-- A `derive` stands for the paths in its list. -/
  | derived {name p : SourcePath} {tokens : List TokenTree} {paths : List SourcePath}
      (hname : m.attribute? name scope = some derivePath) (hlist : pathList? tokens = some paths)
      (hp : p ∈ paths) : Leaf m scope (.list name tokens) p
  /-- A `cfg_attr` stands for the attributes after its condition. -/
  | nested {name p : SourcePath} {tokens : List TokenTree} {condition inner : Meta}
      {metas : List Meta} (hname : m.attribute? name scope = some conditionalPath)
      (hlist : metaList? tokens = some (condition :: metas)) (hinner : inner ∈ metas)
      (hleaf : Leaf m scope inner p) : Leaf m scope (.list name tokens) p

/-- A leaf of the attribute is a qualifying annotation. -/
def LeafQualifies (m : Semantics) (c : Config) (scope : Scope) (attr : Meta) : Prop :=
  ∃ p path, Leaf m scope attr p ∧ m.attribute? p scope = some path ∧ c.qualifies path = true

/-- The struct has no parameters, and a leaf of an attribute that is no doc comment is a qualifying
annotation. -/
structure Candidate.Selected (m : Semantics) (c : Config) (d : Candidate) : Prop where
  generics : d.item.generics = []
  annotated : ∃ attr ∈ d.item.attributes, attr.name.isWord "doc" = false ∧
    LeafQualifies m c d.scope attr

section

variable {m : Semantics} {c : Config} {scope : Scope}

theorem mem_derivedPaths_iff {attr : Meta} {p : SourcePath} :
    p ∈ derivedPaths attr ↔
      ∃ name tokens paths, attr = .list name tokens ∧ pathList? tokens = some paths ∧
        p ∈ paths := by
  constructor
  · intro h
    cases attr with
    | path q => cases h
    | nameValue q value => cases h
    | list q tokens =>
      -- An unreadable list names no derive at all.
      cases hlist : pathList? tokens with
      | none =>
        rw [derivedPaths, hlist] at h
        cases h
      | some paths =>
        rw [derivedPaths, hlist] at h
        exact ⟨q, tokens, paths, rfl, hlist, h⟩
  · rintro ⟨name, tokens, paths, rfl, hlist, hp⟩
    rw [derivedPaths, hlist]
    exact hp

theorem mem_conditionalMetas_iff {attr inner : Meta} :
    inner ∈ conditionalMetas attr ↔
      ∃ name tokens condition metas, attr = .list name tokens ∧
        metaList? tokens = some (condition :: metas) ∧ inner ∈ metas := by
  constructor
  · intro h
    cases attr with
    | path q => cases h
    | nameValue q value => cases h
    | list q tokens =>
      cases hlist : metaList? tokens with
      | none =>
        rw [conditionalMetas, hlist] at h
        cases h
      | some metas =>
        rw [conditionalMetas, hlist] at h
        -- The first entry is the condition, and only what follows it is applied.
        cases metas with
        | nil => cases h
        | cons condition metas => exact ⟨q, tokens, condition, metas, rfl, hlist, h⟩
  · rintro ⟨name, tokens, condition, metas, rfl, hlist, hinner⟩
    rw [conditionalMetas, hlist]
    exact hinner

/-- What the name of an attribute stands for decides what its leaves are. -/
theorem leaf_iff {attr : Meta} {path : String} (hname : m.attribute? attr.name scope = some path)
    {p : SourcePath} :
    Leaf m scope attr p ↔
      if path = derivePath then p ∈ derivedPaths attr
      else if path = conditionalPath then ∃ inner ∈ conditionalMetas attr, Leaf m scope inner p
      else p = attr.name := by
  constructor
  · intro hleaf
    cases hleaf with
    | own hown hderive hconditional =>
      cases hname.symm.trans hown
      rw [if_neg hderive, if_neg hconditional]
    | derived hderive hlist hp =>
      cases hname.symm.trans hderive
      rw [if_pos rfl]
      exact mem_derivedPaths_iff.mpr ⟨_, _, _, rfl, hlist, hp⟩
    | nested hconditional hlist hinner hleaf =>
      cases hname.symm.trans hconditional
      rw [if_neg (by decide), if_pos rfl]
      exact ⟨_, mem_conditionalMetas_iff.mpr ⟨_, _, _, _, rfl, hlist, hinner⟩, hleaf⟩
  -- back: the name decides which of the three kinds of leaf there can be
  · intro h
    split at h
    · next hderive =>
      subst hderive
      rcases mem_derivedPaths_iff.mp h with ⟨name, tokens, paths, rfl, hlist, hp⟩
      exact .derived hname hlist hp
    · next hderive =>
      split at h
      · next hconditional =>
        subst hconditional
        rcases h with ⟨inner, hinner, hleaf⟩
        rcases mem_conditionalMetas_iff.mp hinner with
          ⟨name, tokens, condition, metas, rfl, hlist, hinner⟩
        exact .nested hname hlist hinner hleaf
      · next hconditional =>
        subst h
        exact .own hname hderive hconditional

/-- An attribute that is not known has no leaves. -/
theorem Leaf.known {attr : Meta} {p : SourcePath} (h : Leaf m scope attr p) :
    ∃ path, m.attribute? attr.name scope = some path := by
  cases h with
  | own hname _ _ => exact ⟨_, hname⟩
  | derived hname _ _ => exact ⟨_, hname⟩
  | nested hname _ _ _ => exact ⟨_, hname⟩

/-! ## Peeling -/

theorem value_anyM {α : Type} (f : α → Traced Bool) (xs : List α) :
    (xs.anyM f).value = xs.any fun x => (f x).value := by
  induction xs with
  | nil => rfl
  | cons x xs ih =>
    rw [List.anyM, Traced.value_bind, List.any_cons, ← ih]
    cases (f x).value with
    | false => rfl
    | true => rfl

theorem value_deriveQualifies {p : SourcePath} :
    (deriveQualifies m c scope p).value = true ↔
      ∃ path, m.attribute? p scope = some path ∧ c.qualifies path = true := by
  unfold deriveQualifies lookAttribute
  rw [Traced.value_bind]
  simp only [Traced.looked]
  cases m.attribute? p scope with
  | none => exact iff_of_false Bool.false_ne_true (by simp)
  | some path => simp

/-- Peeling deeper than the size of the attribute reaches every leaf. -/
theorem value_metaQualifies {depth : Nat} {attr : Meta} (hdepth : attr.size < depth) :
    (metaQualifies m c scope depth attr).value = true ↔ LeafQualifies m c scope attr := by
  induction depth generalizing attr with
  | zero => omega
  | succ depth ih =>
    rw [metaQualifies, lookAttribute, Traced.value_bind]
    simp only [Traced.looked]
    cases hname : m.attribute? attr.name scope with
    | none =>
      refine iff_of_false Bool.false_ne_true ?_
      rintro ⟨p, path, hleaf, -, -⟩
      rcases hleaf.known with ⟨path, hknown⟩
      cases hname.symm.trans hknown
    | some path =>
      simp only [LeafQualifies, leaf_iff hname]
      by_cases hderive : path = derivePath
      · simp only [if_pos hderive, value_anyM, List.any_eq_true, value_deriveQualifies,
          exists_and_left]
      · by_cases hconditional : path = conditionalPath
        · -- Inner attributes are smaller, so the remaining depth is enough for them.
          have hinner : ∀ inner ∈ conditionalMetas attr,
              ((metaQualifies m c scope depth inner).value = true ↔
                LeafQualifies m c scope inner) := by
            intro inner hinner
            have hlt : inner.size < attr.size := size_lt_of_mem_conditionalMetas hinner
            exact ih (by omega)
          simp only [if_neg hderive, if_pos hconditional, value_anyM, List.any_eq_true]
          constructor
          · rintro ⟨inner, hmem, hvalue⟩
            rcases (hinner inner hmem).mp hvalue with ⟨p, path', hleaf, hpath⟩
            exact ⟨p, path', ⟨inner, hmem, hleaf⟩, hpath⟩
          · rintro ⟨p, path', ⟨inner, hmem, hleaf⟩, hpath⟩
            exact ⟨inner, hmem, (hinner inner hmem).mpr ⟨p, path', hleaf, hpath⟩⟩
        · simp only [if_neg hderive, if_neg hconditional]
          constructor
          · intro hqualifies
            exact ⟨attr.name, path, rfl, hname, hqualifies⟩
          · rintro ⟨p, path', rfl, hpath, hqualifies⟩
            cases hname.symm.trans hpath
            exact hqualifies

theorem value_isQualifying {attributes : List Meta} :
    (isQualifying m c scope attributes).value = true ↔
      ∃ attr ∈ attributes, attr.name.isWord "doc" = false ∧ LeafQualifies m c scope attr := by
  rw [isQualifying, value_anyM, List.any_eq_true]
  simp only [value_metaQualifies (Nat.lt_succ_self _), List.mem_filter, Bool.not_eq_true',
    and_assoc]

/-- Doc comments are not looked up. -/
theorem lookups_scanStruct_doc {s : StructItem}
    (h : ∀ attr ∈ s.attributes, attr.name.isWord "doc" = true) :
    (scanStruct m c scope s).lookups = 0 := by
  have hnone : s.attributes.filter (fun attr => !attr.name.isWord "doc") = [] := by
    rw [List.filter_eq_nil_iff]
    intro attr hattr
    simp [h attr hattr]
  rw [scanStruct, isQualifying, hnone]
  rfl

theorem value_scanStruct (s : StructItem) :
    (scanStruct m c scope s).value =
      if (isQualifying m c scope s.attributes).value && s.generics.isEmpty then [⟨s, scope⟩]
      else [] := by
  unfold scanStruct
  rw [Traced.value_bind]
  cases (isQualifying m c scope s.attributes).value with
  | false => rfl
  | true =>
    cases s.generics.isEmpty with
    | false => rfl
    | true => rfl

end

/-! ## Positions -/

/-- The struct stands at a position: the numbers of the items that lead to it from the items of the
module `root`. The scope is that of the module around it. -/
inductive StructAt : Scope → List Item → List Nat → Candidate → Prop where
  | here {root : Scope} {items : List Item} {k : Nat} {s : StructItem}
      (h : items[k]? = some (.struct s)) : StructAt root items [k] ⟨s, root⟩
  | inside {root : Scope} {items inner : List Item} {k : Nat} {i : Ident} {position : List Nat}
      {d : Candidate} (h : items[k]? = some (.module i (some inner)))
      (hinner : StructAt (root.child i.name) inner position d) :
      StructAt root items (k :: position) d

mutual

/-- The structs in an item with their positions in it. -/
def structsOf (scope : Scope) : Item → List (List Nat × Candidate)
  | .struct s => [([], ⟨s, scope⟩)]
  | .module i (some items) => structsFrom (scope.child i.name) 0 items
  | _ => []

/-- The structs in items that are numbered from `first`, with their positions. -/
def structsFrom (scope : Scope) (first : Nat) : List Item → List (List Nat × Candidate)
  | [] => []
  | item :: items =>
    (structsOf scope item).map (fun e => (first :: e.1, e.2)) ++ structsFrom scope (first + 1) items

end

/-- Whether a struct is selected. -/
def isSelected (m : Semantics) (c : Config) (d : Candidate) : Bool :=
  (isQualifying m c d.scope d.item.attributes).value && d.item.generics.isEmpty

theorem isSelected_iff {m : Semantics} {c : Config} {d : Candidate} :
    isSelected m c d = true ↔ d.Selected m c := by
  rw [isSelected, Bool.and_eq_true, value_isQualifying, List.isEmpty_iff]
  exact ⟨fun h => ⟨h.2, h.1⟩, fun h => ⟨h.annotated, h.generics⟩⟩

mutual

theorem value_scanItem_structsOf (m : Semantics) (c : Config) (scope : Scope) :
    ∀ item : Item, (scanItem m c scope item).value =
      ((structsOf scope item).map Prod.snd).filter (isSelected m c)
  -- An item has structs of its own only if it is one or is a module with a body.
  | .struct s => by
    rw [scanItem, value_scanStruct, structsOf, List.map_singleton, List.filter_cons]
    rfl
  | .module i (some items) => by
    rw [scanItem, structsOf]
    exact value_scan_structsFrom m c (scope.child i.name) 0 items
  | .module _ none => by simp [scanItem, structsOf]
  | .use .. => by simp [scanItem, structsOf]
  | .declared _ => by simp [scanItem, structsOf]
  | .typeAlias .. => by simp [scanItem, structsOf]
  | .externCrate .. => by simp [scanItem, structsOf]
  | .other => by simp [scanItem, structsOf]

/-- A scan keeps the selected among all structs, in the order of their positions. -/
theorem value_scan_structsFrom (m : Semantics) (c : Config) (scope : Scope) (first : Nat) :
    ∀ items : List Item, (scan m c scope items).value =
      ((structsFrom scope first items).map Prod.snd).filter (isSelected m c)
  | [] => by rw [scan, structsFrom]; rfl
  | item :: items => by
    have hitem := value_scanItem_structsOf m c scope item
    have hitems := value_scan_structsFrom m c scope (first + 1) items
    rw [scan, structsFrom, List.map_append, List.filter_append, List.map_map]
    show (scanItem m c scope item).value ++ (scan m c scope items).value = _
    rw [hitem, hitems]
    rfl

end

theorem mem_structsOf_iff {scope : Scope} {item : Item} {e : List Nat × Candidate} :
    e ∈ structsOf scope item ↔
      (∃ s, item = .struct s ∧ e = ([], ⟨s, scope⟩)) ∨
        ∃ i items, item = .module i (some items) ∧
          e ∈ structsFrom (scope.child i.name) 0 items := by
  unfold structsOf
  split
  · next s => simp
  · next i items => simp
  · next hstruct hmodule =>
    -- Other items hold no structs.
    refine iff_of_false (List.not_mem_nil) ?_
    rintro (⟨s, rfl, -⟩ | ⟨i, items, rfl, -⟩)
    · exact hstruct s rfl
    · exact hmodule i items rfl

theorem mem_structsFrom_iff {scope : Scope} {first : Nat} {items : List Item}
    {e : List Nat × Candidate} :
    e ∈ structsFrom scope first items ↔
      ∃ k item position, items[k]? = some item ∧ (position, e.2) ∈ structsOf scope item ∧
        e.1 = (first + k) :: position := by
  -- Induction on the items; positions are counted from `first`, which grows along.
  induction items generalizing first with
  | nil => simp [structsFrom]
  | cons item items ih =>
    rw [structsFrom, List.mem_append, ih, List.mem_map]
    constructor
    · rintro (⟨⟨position, d⟩, hmem, rfl⟩ | ⟨k, item', position, hitem, hmem, hposition⟩)
      · exact ⟨0, item, position, rfl, hmem, rfl⟩
      · exact ⟨k + 1, item', position, hitem, hmem, by rw [hposition]; congr 1; omega⟩
    · rintro ⟨k, item', position, hitem, hmem, hposition⟩
      cases k with
      | zero =>
        cases hitem
        exact Or.inl ⟨_, hmem, Prod.ext hposition.symm rfl⟩
      | succ k =>
        exact Or.inr ⟨k, item', position, hitem, hmem, by rw [hposition]; congr 1; omega⟩

/-- The structs stand at exactly these positions. -/
theorem mem_structsFrom_zero_iff {root : Scope} {items : List Item} {position : List Nat}
    {d : Candidate} :
    (position, d) ∈ structsFrom root 0 items ↔ StructAt root items position d := by
  constructor
  · intro h
    -- Induction on the modules in one direction, on the position in the other.
    induction items using module_induction generalizing root position with
    | step items ih =>
      rcases mem_structsFrom_iff.mp h with ⟨k, item, rest, hitem, hmem, hposition⟩
      cases hposition
      rw [Nat.zero_add]
      rcases mem_structsOf_iff.mp hmem with ⟨s, rfl, he⟩ | ⟨i, inner, rfl, he⟩
      · cases he
        exact .here hitem
      · have hinline : (i, inner) ∈ items.filterMap inline? :=
          List.mem_filterMap.mpr ⟨_, List.mem_of_getElem? hitem, rfl⟩
        exact .inside hitem (ih (i, inner) hinline he)
  · intro h
    induction h with
    | here h =>
      refine mem_structsFrom_iff.mpr ⟨_, _, [], h, ?_, by rw [Nat.zero_add]⟩
      exact mem_structsOf_iff.mpr (Or.inl ⟨_, rfl, rfl⟩)
    | inside h _ ih =>
      refine mem_structsFrom_iff.mpr ⟨_, _, _, h, ?_, by rw [Nat.zero_add]⟩
      exact mem_structsOf_iff.mpr (Or.inr ⟨_, _, rfl, ih⟩)

mutual

theorem pairwise_structsOf (scope : Scope) :
    ∀ item : Item, (structsOf scope item).Pairwise fun e f => e.1 < f.1
  | .struct s => by
    rw [structsOf]
    exact List.pairwise_singleton _ _
  | .module i (some items) => by
    rw [structsOf]
    exact pairwise_structsFrom (scope.child i.name) 0 items
  | .module _ none => by simp [structsOf]
  | .use .. => by simp [structsOf]
  | .declared _ => by simp [structsOf]
  | .typeAlias .. => by simp [structsOf]
  | .externCrate .. => by simp [structsOf]
  | .other => by simp [structsOf]

/-- The positions increase, so no struct is listed twice. -/
theorem pairwise_structsFrom (scope : Scope) (first : Nat) :
    ∀ items : List Item, (structsFrom scope first items).Pairwise fun e f => e.1 < f.1
  | [] => by
    rw [structsFrom]
    exact List.Pairwise.nil
  | item :: items => by
    rw [structsFrom, List.pairwise_append]
    refine ⟨?_, pairwise_structsFrom scope (first + 1) items, ?_⟩
    · rw [List.pairwise_map]
      refine (pairwise_structsOf scope item).imp fun {e f} h => ?_
      exact List.cons_lt_cons_iff.mpr (Or.inr ⟨rfl, h⟩)
    -- Positions in later items start with a larger number.
    · intro e he f hf
      rcases List.mem_map.mp he with ⟨e', -, rfl⟩
      rcases mem_structsFrom_iff.mp hf with ⟨k, item', position, -, -, hposition⟩
      rw [hposition]
      exact List.cons_lt_cons_iff.mpr (Or.inl (by omega))

end

/-! ## The selected structs of a file -/

mutual

theorem lookups_scanItem (m : Semantics) (c : Config) (scope : Scope) :
    ∀ item : Item, (scanItem m c scope item).lookups =
      ((structsOf scope item).map fun e => (scanStruct m c e.2.scope e.2.item).lookups).sum
  | .struct s => by
    rw [scanItem, structsOf, List.map_singleton, List.sum_singleton]
  | .module i (some items) => by
    rw [scanItem, structsOf]
    exact lookups_scan m c (scope.child i.name) 0 items
  | .module _ none => by simp only [scanItem, structsOf]; rfl
  | .use .. => by simp only [scanItem, structsOf]; rfl
  | .declared _ => by simp only [scanItem, structsOf]; rfl
  | .typeAlias .. => by simp only [scanItem, structsOf]; rfl
  | .externCrate .. => by simp only [scanItem, structsOf]; rfl
  | .other => by simp only [scanItem, structsOf]; rfl

/-- A scan looks up what each struct asks for, and nothing else. -/
theorem lookups_scan (m : Semantics) (c : Config) (scope : Scope) (first : Nat) :
    ∀ items : List Item, (scan m c scope items).lookups =
      ((structsFrom scope first items).map fun e =>
        (scanStruct m c e.2.scope e.2.item).lookups).sum
  | [] => by rw [scan, structsFrom]; rfl
  | item :: items => by
    have hitem := lookups_scanItem m c scope item
    have hitems := lookups_scan m c scope (first + 1) items
    rw [scan, structsFrom, List.map_append, List.sum_append, List.map_map]
    show (scanItem m c scope item).lookups + ((scan m c scope items).lookups + 0) = _
    rw [hitem, hitems]
    rfl

end

/-- A scan passes through the structs of a file once each, in the order of their positions, and
gives those that are selected, in this order, each with the path of the module around it. What it
looks up is what the single structs ask for, and one that has only doc comments asks for nothing. -/
theorem scan_selects_exactly (m : Semantics) (c : Config) (root : Scope) (items : List Item) :
    ∃ structs found : List (List Nat × Candidate),
      (∀ position d, (position, d) ∈ structs ↔ StructAt root items position d) ∧
      structs.Pairwise (fun e f => e.1 < f.1) ∧
      found.Sublist structs ∧
      (∀ e, e ∈ found ↔ e ∈ structs ∧ e.2.Selected m c) ∧
      (scan m c root items).value = found.map Prod.snd ∧
      (scan m c root items).lookups =
        (structs.map fun e => (scanStruct m c e.2.scope e.2.item).lookups).sum ∧
      ∀ e ∈ structs, (∀ attr ∈ e.2.item.attributes, attr.name.isWord "doc" = true) →
        (scanStruct m c e.2.scope e.2.item).lookups = 0 := by
  refine ⟨structsFrom root 0 items,
    (structsFrom root 0 items).filter fun e => isSelected m c e.2, ?_, ?_, ?_, ?_, ?_, ?_, ?_⟩
  · intro position d
    exact mem_structsFrom_zero_iff
  · exact pairwise_structsFrom root 0 items
  · exact List.filter_sublist
  · intro e
    rw [List.mem_filter, isSelected_iff]
  · rw [value_scan_structsFrom m c root 0 items, List.filter_map]
    rfl
  · exact lookups_scan m c root 0 items
  · intro e _ h
    exact lookups_scanStruct_doc h

end Memberwise
