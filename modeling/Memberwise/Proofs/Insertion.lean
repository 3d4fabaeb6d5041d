import Memberwise.Proofs.Blocks
import Memberwise.Proofs.Commands
import Memberwise.Proofs.Mentions

/-!
# Memberwise.Proofs.Insertion — declarations do not interfere

A declaration is put into a file that does not mention its name. The symbol table gets one new name
in one module, and a type or an alias at one new path (`alikeOn_fill`).

Nothing that the file mentions leads there. The new path ends in the new name; a canonical path that
is formed of other names does not, unless it is the path of the file itself or of a module around
it, and these are shorter. So every canonical path of the file is apart from the new one
(`kept_apart`), whatever imports, globs and aliases are on the way. Hence the same structs are
selected and described alike, and the description of the new one comes in between
(`describe_inserted`).
-/

namespace Memberwise

open Source

/-! ## Paths apart from a name -/

/-- A name other than `fresh`. Names are identifiers, of which all that counts is that they have no
colon. -/
structure OtherName (fresh name : String) : Prop where
  ne : name ≠ fresh
  colon_notMem : ':' ∉ name.toList

/-- A path that is not that of `fresh` in a module of a file at `root`. -/
def Apart (root : Scope) (fresh path : String) : Prop := ∀ s, root.Within s → path ≠ s.join fresh

/-- A module whose path is apart from `fresh`, as are the paths of all modules around it. -/
def ApartAround (root : Scope) (fresh : String) (s : Scope) : Prop :=
  ∀ outer : Scope, outer.Within s → Apart root fresh outer.path

/-- Paths that are the same end in the same name. -/
theorem last_eq_of_append_colons {a b x y : String} (hx : ':' ∉ x.toList) (hy : ':' ∉ y.toList)
    (h : a ++ "::" ++ x = b ++ "::" ++ y) : x = y := by
  -- Read from the back, the last name ends at the first colon.
  have hlast : ∀ {s t : String}, ':' ∉ t.toList →
      (s ++ "::" ++ t).toList.reverse.takeWhile (· != ':') = t.toList.reverse := by
    intro s t ht
    rw [String.toList_append, List.reverse_append, List.takeWhile_append_of_pos]
    · simp
    · intro c hc
      have hcolon : c ≠ ':' := by
        rintro rfl
        exact ht (List.mem_reverse.mp hc)
      simpa using hcolon
  have hreverse : x.toList.reverse = y.toList.reverse := by
    rw [← hlast (s := a) hx, h, hlast hy]
  exact String.toList_injective (List.reverse_injective hreverse)

section

variable {root : Scope} {fresh path : String}

theorem apart_absolute (rest : String) : Apart root fresh ("::" ++ rest) := by
  intro s _ heq
  have hhead := congrArg (fun text : String => text.toList.head?) heq
  simp [s.head?_join] at hhead

theorem apart_of_colon_notMem (h : ':' ∉ path.toList) : Apart root fresh path := by
  rintro s _ rfl
  apply h
  simp [Scope.join]

theorem length_le_extend (base : String) (rest : List String) :
    base.length ≤ (extend base rest).length := by
  unfold extend
  split
  · exact Nat.le_refl _
  · simp only [String.length_append]
    omega

/-- The path of a nested module goes on from that of the module around it. -/
theorem Scope.path_of_append {s : Scope} {names : List String} (h : root.inner ++ names = s.inner) :
    s.path = extend root.path names := by
  rw [Scope.path_eq_extend, Scope.path_eq_extend, extend_extend, h]

/-- A path that is no longer than that of the file is none in it. -/
theorem apart_of_length_le (h : path.length ≤ root.path.length) : Apart root fresh path := by
  rintro s ⟨more, hmore⟩ rfl
  have hlength := length_le_extend root.path more
  rw [Scope.join, Scope.path_of_append hmore, String.length_append, String.length_append] at h
  have hcolons : "::".length = 2 := rfl
  omega

theorem apart_concat (hfresh : ':' ∉ fresh.toList) {base last : String}
    (hlast : OtherName fresh last) : Apart root fresh (base ++ "::" ++ last) := by
  intro s _ heq
  exact hlast.ne (last_eq_of_append_colons hlast.colon_notMem hfresh heq)

/-- A path that goes on with other names is apart, wherever it comes from. -/
theorem apart_extend (hfresh : ':' ∉ fresh.toList) {base : String} {rest : List String}
    (hne : rest ≠ []) (hrest : ∀ name ∈ rest, OtherName fresh name) :
    Apart root fresh (extend base rest) := by
  rcases List.eq_nil_or_concat rest with rfl | ⟨front, last, rfl⟩
  · exact absurd rfl hne
  · have hsplit : extend base (front ++ [last]) = extend base front ++ "::" ++ last := by
      rw [← extend_extend, extend_of_ne_nil _ (List.cons_ne_nil _ _)]
      simp
    rw [List.concat_eq_append] at hrest ⊢
    rw [hsplit]
    exact apart_concat hfresh (hrest last (by simp))

/-- The path of a module goes on from that of the file with other names, or it is no longer. -/
theorem apartAround_of_names (hfresh : ':' ∉ fresh.toList) {s : Scope} {names : List String}
    (hinner : s.inner = root.inner ++ names) (hnames : ∀ name ∈ names, OtherName fresh name) :
    ApartAround root fresh s := by
  intro outer houter
  have hroot : root.Within s := ⟨names, hinner.symm⟩
  rcases List.prefix_or_prefix_of_prefix houter hroot with ⟨more, hmore⟩ | ⟨more, hmore⟩
  · -- the module is around the file
    apply apart_of_length_le
    rw [Scope.path_of_append hmore]
    exact length_le_extend _ _
  · rw [Scope.path_of_append hmore]
    by_cases hempty : more = []
    · rw [hempty, extend_nil]
      exact apart_of_length_le (Nat.le_refl _)
    · apply apart_extend hfresh hempty
      -- the names of the outer module are some of those of the inner one
      have hprefix : root.inner ++ more <+: root.inner ++ names := by
        rw [hmore, ← hinner]
        exact houter
      intro name hname
      exact hnames name (((List.prefix_append_right_inj _).mp hprefix).subset hname)

/-- Whatever way a canonical path is formed of other names, it is apart. -/
theorem kept_apart (hfresh : ':' ∉ fresh.toList) :
    Kept (OtherName fresh) (ApartAround root fresh) (Apart root fresh) where
  absolute rest := apart_absolute rest
  root first hfirst := by
    obtain ⟨c, cs, hcs, hcolon⟩ := exists_cons_of_mem_roots hfirst
    apply apart_of_colon_notMem
    rw [hcs]
    exact hcolon
  scope s hs := hs s (Scope.Within.refl s)
  -- What is around the parent is around the child too, so it is apart from the name.
  parent s outer hs houter := by
    unfold Scope.parent at houter
    split at houter
    · cases houter
    · cases houter
      intro other hother
      exact hs other (hother.trans (List.dropLast_prefix s.inner))
  extend path rest hpath hrest := by
    -- Nothing appended leaves the path as it is, which need not be below the fresh name.
    by_cases hne : rest = []
    · rw [hne]
      exact hpath
    · exact apart_extend hfresh hne hrest

end

/-! ## The table of the file with the declaration -/

/-- The name of the type that an item declares: a struct, enum, union, trait or alias. -/
def typeName? (item : Item) : Option String := (declaredType? item).or (aliasName? item)

section

variable {root : Scope} {g : Gap} {item : Item} {fresh : String}

theorem Gap.within_scope (root : Scope) (g : Gap) : root.Within (g.scope root) := by
  induction g generalizing root with
  | here before after => exact Scope.Within.refl root
  | inside before name inner after ih => exact (ih (root.child name.name)).of_child

theorem moduleName?_of_typeName? (h : typeName? item = some fresh) : moduleName? item = none := by
  cases item with
  | module i content => cases h
  | _ => rfl

theorem itemBindings_of_typeName? (h : typeName? item = some fresh) : itemBindings item = [] := by
  cases item with
  | use absolute tree => cases h
  | externCrate i new => cases h
  | _ => rfl

/-- The names of the module of the gap differ in the new one only. -/
theorem Gap.alikeOn_block (h : typeName? item = some fresh) :
    g.others.AlikeOn (OtherName fresh) (.ofItems (g.block item)) := by
  have himports : (ModuleSymbols.ofItems [item]).imports = [] := by
    simp [ModuleSymbols.ofItems, itemBindings_of_typeName? h]
  have hglobs : (ModuleSymbols.ofItems [item]).globs = [] := by
    simp [ModuleSymbols.ofItems, itemBindings_of_typeName? h]
  -- The item binds one type name and nothing else: the imports and globs are as before.
  refine ⟨fun name hname => ?_, fun name _ => ?_, ?_⟩
  · have hother : (ModuleSymbols.ofItems [item]).declares name = false := by
      have htypes : (ModuleSymbols.ofItems [item]).types = [fresh] :=
        List.filterMap_cons_some h
      have hmodules : (ModuleSymbols.ofItems [item]).modules = [] :=
        List.filterMap_cons_none (moduleName?_of_typeName? h)
      simp [ModuleSymbols.declares, htypes, hmodules, hname.ne]
    rw [Gap.block_eq, Gap.others, ModuleSymbols.declares_append, ModuleSymbols.declares_append,
      ModuleSymbols.declares_append, hother, Bool.or_false]
  · have hnone : (ModuleSymbols.ofItems [item]).import? name = none := by
      rw [ModuleSymbols.import?, himports]
      rfl
    rw [Gap.import?_block, hnone, Option.none_or, Gap.others, ModuleSymbols.import?_append]
  · rw [Gap.globs_block, Gap.globs_others, hglobs, List.append_nil]

/-- The table of a file gets one name in one module, and a type or an alias at one path. -/
theorem Gap.alikeOn_fill (h : typeName? item = some fresh) (root : Scope) (g : Gap) :
    (SymbolTable.ofItems root g.closed).AlikeOn (OtherName fresh) (Apart root fresh)
      (SymbolTable.ofItems root (g.fill item)) := by
  have hmodule : moduleName? item = none := moduleName?_of_typeName? h
  have hplace : ∀ path, Apart root fresh path → path ≠ (g.scope root).join fresh :=
    fun path hpath => hpath _ (g.within_scope root)
  refine ⟨fun s => ?_, fun path hpath => ?_, fun path hpath => ?_⟩
  · -- only the module of the gap can show the new name
    rw [Gap.module?_fill_eq hmodule]
    by_cases hs : s = g.scope root ∧ g.counts root = true
    · refine Or.inr ⟨g.others, .ofItems (g.block item), ?_, if_pos hs, Gap.alikeOn_block h⟩
      rw [hs.1]
      exact Gap.module?_closed hs.2
    · rw [if_neg hs]
      cases (SymbolTable.ofItems root g.closed).module? s with
      | none => exact Or.inl ⟨rfl, rfl⟩
      | some m => exact Or.inr ⟨m, m, rfl, rfl, fun _ _ => rfl, fun _ _ => rfl, rfl⟩
  · -- the entry of a new alias comes between the others, under a key of its own
    obtain ⟨xs, ys, hclosed, hfill⟩ :=
      Gap.exists_shownIn_fill (f := aliasOf?) (fun _ _ _ => rfl) hmodule root g
    have hown : lookupLast path (aliasOf? (g.scope root) item).toList = none := by
      cases item with
      | typeAlias i params target =>
        cases h
        simp [aliasOf?, lookupLast, List.lookup_cons, beq_eq_false_iff_ne.mpr (hplace path hpath)]
      | _ => rfl
    rw [SymbolTable.alias?, SymbolTable.alias?, SymbolTable.aliases_ofItems,
      SymbolTable.aliases_ofItems, hclosed, hfill, ModuleSymbols.lookupLast_append,
      ModuleSymbols.lookupLast_append, ModuleSymbols.lookupLast_append, hown, Option.none_or]
  · obtain ⟨xs, ys, hclosed, hfill⟩ :=
      Gap.exists_shownIn_fill (f := localTypeOf?) (fun _ _ _ => rfl) hmodule root g
    have hown : (localTypeOf? (g.scope root) item).toList.contains path = false := by
      rw [localTypeOf?]
      cases htype : declaredType? item with
      | none => rfl
      | some name =>
        have hname : name = fresh := by
          rw [typeName?, htype] at h
          exact Option.some.inj h
        simpa [hname] using (hplace path hpath)
    rw [SymbolTable.isLocalType, SymbolTable.isLocalType, SymbolTable.localTypes_ofItems,
      SymbolTable.localTypes_ofItems, hclosed, hfill, List.contains_append, List.contains_append,
      List.contains_append, hown, Bool.or_false]

end

/-! ## Scanning and describing the file with the declaration -/

/-- What is selected in the item in the gap comes between what is selected before it and behind
it. -/
theorem Gap.exists_scan_fill (m : Semantics) (c : Config) (root : Scope) (g : Gap) (item : Item) :
    ∃ before after, (scan m c root g.closed).value = before ++ after ∧
      (scan m c root (g.fill item)).value =
        before ++ (scanItem m c (g.scope root) item).value ++ after := by
  -- Induction on the gap: the modules around it contribute what stands before and after.
  induction g generalizing root with
  | here before after =>
    refine ⟨before.flatMap fun i => (scanItem m c root i).value,
      after.flatMap fun i => (scanItem m c root i).value, ?_, ?_⟩
    · rw [closed, value_scan, List.flatMap_append]
    · rw [fill, scope, value_scan, List.flatMap_append, List.flatMap_cons, List.append_assoc]
  | inside before name inner after ih =>
    obtain ⟨xs, ys, hclosed, hfill⟩ := ih (root.child name.name)
    refine ⟨(before.flatMap fun i => (scanItem m c root i).value) ++ xs,
      ys ++ after.flatMap fun i => (scanItem m c root i).value, ?_, ?_⟩
    · rw [closed, value_scan, List.flatMap_append, List.flatMap_cons, scanItem, hclosed]
      simp only [List.append_assoc]
    · rw [fill, scope, value_scan, List.flatMap_append, List.flatMap_cons, scanItem, hfill]
      simp only [List.append_assoc]

/-- The descriptor of the item in the gap, if it is a struct that is selected. -/
def Gap.ownDescriptor? (c : Config) (root : Scope) (g : Gap) (item : Item) : Option Descriptor :=
  let m := Semantics.ofTable (.ofItems root (g.fill item)) c.nullableAnnotations
  match item with
  | .struct s =>
    let d : Candidate := ⟨s, g.scope root⟩
    if isSelected m c d then some (describe m c d).value else none
  | _ => none

theorem Gap.toList_ownDescriptor? (c : Config) (root : Scope) (g : Gap) {item : Item}
    (h : moduleName? item = none) :
    let m := Semantics.ofTable (.ofItems root (g.fill item)) c.nullableAnnotations
    (g.ownDescriptor? c root item).toList =
      (scanItem m c (g.scope root) item).value.map fun d => (describe m c d).value := by
  intro m
  -- Only a struct has a descriptor of its own; a module is excluded by the hypothesis.
  cases item with
  | module i content => cases h
  | struct s =>
    have hscan : (scanItem m c (g.scope root) (.struct s)).value =
        if isSelected m c ⟨s, g.scope root⟩ then [⟨s, g.scope root⟩] else [] := by
      rw [scanItem, value_scanStruct]
      rfl
    rw [hscan]
    show (if isSelected m c ⟨s, g.scope root⟩ then _ else none).toList = _
    cases isSelected m c ⟨s, g.scope root⟩ with
    | false => rfl
    | true => rfl
  | _ => simp [ownDescriptor?, scanItem]

theorem value_describeItems (c : Config) (root : Scope) (items : List Item) :
    let m := Semantics.ofTable (.ofItems root items) c.nullableAnnotations
    (describeItems c root items).value =
      (scan m c root items).value.map fun d => (describe m c d).value :=
  value_describeAll _ c _

/-- The structs of the file are selected and described alike with the declaration in it. -/
theorem Gap.describeItems_closed (c : Config) (root : Scope) (g : Gap) {item : Item}
    {fresh : String} (hitem : typeName? item = some fresh) (hfresh : ':' ∉ fresh.toList)
    (hnames : ∀ name ∈ namesIn g.closed, OtherName fresh name) :
    let m := Semantics.ofTable (.ofItems root (g.fill item)) c.nullableAnnotations
    (describeItems c root g.closed).value =
      (scan m c root g.closed).value.map fun d => (describe m c d).value := by
  intro m
  have hwritten : (SymbolTable.ofItems root g.closed).WrittenIn (OtherName fresh)
      (ApartAround root fresh) :=
    writtenIn_ofItems hnames fun s names => apartAround_of_names hfresh
  have halike : ∀ d ∈ (structsFrom root 0 g.closed).map Prod.snd,
      isSelected (.ofTable (.ofItems root g.closed) c.nullableAnnotations) c d =
          isSelected m c d ∧
        describe (.ofTable (.ofItems root g.closed) c.nullableAnnotations) c d =
          describe m c d := by
    -- the struct stands in a module whose path and items are written with other names
    intro d hd
    rcases List.mem_map.mp hd with ⟨⟨position, d⟩, hmem, rfl⟩
    obtain ⟨block, hblock, hstruct⟩ := (mem_structsFrom_zero_iff.mp hmem).exists_block
    obtain ⟨hinside, names, hpath, hinner⟩ := names_of_mem_blocks_subset hblock
    refine (g.alikeOn_fill hitem root).struct hwritten (kept_apart hfresh) c _ ?_ ?_
    · exact apartAround_of_names hfresh hinner fun name hname => hnames name (hpath hname)
    · intro name hname
      exact hnames name (hinside (names_subset_namesIn hstruct hname))
  rw [value_describeItems, value_scan_structsFrom _ c root 0, value_scan_structsFrom _ c root 0,
    List.filter_congr fun d hd => (halike d hd).1]
  apply List.map_congr_left
  intro d hd
  rw [(halike d (List.mem_filter.mp hd).1).2]

/-- A struct, enum, union, trait or alias is put anywhere into a file that mentions its name
nowhere. The descriptors of the file stay as they are and in their order, and that of the new item
comes in between, if it is a struct that is selected. Names are identifiers, of which all that
counts is that they have no colon. -/
theorem describe_inserted (c : Config) (root : Scope) (g : Gap) (item : Item) (fresh : String)
    (hitem : typeName? item = some fresh) (hmentions : fresh ∉ namesIn g.closed)
    (hcolons : ∀ name ∈ fresh :: namesIn g.closed, ':' ∉ name.toList) :
    ∃ before after,
      let own := (g.ownDescriptor? c root item).toList
      (describeItems c root g.closed).value = before ++ after ∧
        (describeItems c root (g.fill item)).value = before ++ own ++ after ∧
        (∀ source origin, prepare c source origin = .ok (root, g.closed) →
          (describeSource c source origin).run.value = .ok (before ++ after)) ∧
        ∀ source origin, prepare c source origin = .ok (root, g.fill item) →
          (describeSource c source origin).run.value = .ok (before ++ own ++ after) := by
  obtain ⟨hfresh, hfile⟩ := List.forall_mem_cons.mp hcolons
  have hnames : ∀ name ∈ namesIn g.closed, OtherName fresh name := by
    intro name hname
    refine ⟨?_, hfile name hname⟩
    rintro rfl
    exact hmentions hname
  -- both files are described in the table of the larger one, where the other structs mean the same
  generalize hm : Semantics.ofTable (.ofItems root (g.fill item)) c.nullableAnnotations = m
  obtain ⟨xs, ys, hclosed, hfill⟩ := g.exists_scan_fill m c root item
  have hwithout : (describeItems c root g.closed).value =
      (xs.map fun d => (describe m c d).value) ++ ys.map fun d => (describe m c d).value := by
    rw [g.describeItems_closed c root hitem hfresh hnames, hm, hclosed, List.map_append]
  have hwith : (describeItems c root (g.fill item)).value =
      (xs.map fun d => (describe m c d).value) ++ (g.ownDescriptor? c root item).toList ++
        ys.map fun d => (describe m c d).value := by
    rw [value_describeItems, g.toList_ownDescriptor? c root (moduleName?_of_typeName? hitem), hm,
      hfill, List.map_append, List.map_append]
  refine ⟨_, _, hwithout, hwith, ?_, ?_⟩
  · intro source origin hsource
    rw [value_describeSource, hsource, ← hwithout]
    rfl
  · intro source origin hsource
    rw [value_describeSource, hsource, ← hwith]
    rfl

/-- A file with a glob, an alias and a module, in which a struct can be put between the items of the
module. -/
def cabinetGap : Gap :=
  .inside ((cabinet []).take 2) (.plain "drawer") (.here (drawer.take 2) (drawer.drop 2))
    ((cabinet []).drop 3)

theorem describe_inserted_lid :
    "Lid" ∉ namesIn cabinetGap.closed ∧
      ∃ before after,
        (describeItems .default .root cabinetGap.closed).value = before ++ after ∧
          (describeItems .default .root (cabinetGap.fill (sampleStruct "Lid" "rim" "Mark"))).value =
            before ++
              [⟨"Lid", "crate::drawer::Lid",
                [⟨"rim", "rim", "::std::string::String", true, .alwaysNullable⟩]⟩] ++ after := by
  have hmentions : "Lid" ∉ namesIn cabinetGap.closed := by decide +kernel
  have hown : (cabinetGap.ownDescriptor? .default .root (sampleStruct "Lid" "rim" "Mark")).toList =
      [⟨"Lid", "crate::drawer::Lid",
        [⟨"rim", "rim", "::std::string::String", true, .alwaysNullable⟩]⟩] := by decide +kernel
  obtain ⟨before, after, hclosed, hfill, -⟩ := describe_inserted .default .root cabinetGap
    (sampleStruct "Lid" "rim" "Mark") "Lid" rfl hmentions (by decide +kernel)
  rw [hown] at hfill
  exact ⟨hmentions, before, after, hclosed, hfill⟩

end Memberwise
