import Memberwise.Proofs.Members

/-!
# Memberwise.Proofs.Reports — every written type is reported

A member whose type cannot be resolved shows its type as it is written, and this is reported. Of the
events on the way to a value, `Traced.unresolved` keeps these reports, in order; it takes a sequence
apart into its steps (`unresolved_bind`).

Selecting structs and reading the options of fields make no such report (`unresolved_scan`,
`unresolved_readOptions`). Describing a struct makes one for each of its members that is not
resolved (`unresolved_describe`), and so a source that is described makes exactly the reports that
can be read off its descriptors (`unresolved_types_reported`).
-/

namespace Memberwise

open Source

/-! ## Reports of written types -/

/-- The event is a warning that the type of a member is shown as it is written. -/
def Event.reportsUnresolved (e : Event) : Bool :=
  e.level = .warn && e.message = "member type could not be resolved; using written type"

@[simp] theorem Event.reportsUnresolved_iff (e : Event) :
    e.reportsUnresolved = true ↔
      ∃ declaration member written nullability,
        e = .typeUnresolved declaration member written nullability := by
  cases e <;> simp [reportsUnresolved, level, message]

namespace Traced

variable {α β : Type}

/-- The reports of written types on the way to a value. -/
def unresolved (x : Traced α) : List Event := x.events.filter Event.reportsUnresolved

@[simp] theorem unresolved_pure (a : α) : (pure a : Traced α).unresolved = [] := rfl

@[simp] theorem unresolved_looked (a : α) : (looked a).unresolved = [] := rfl

@[simp] theorem unresolved_bind (x : Traced α) (f : α → Traced β) :
    (x >>= f).unresolved = x.unresolved ++ (f x.value).unresolved :=
  List.filter_append _ _

@[simp] theorem unresolved_map (f : α → β) (x : Traced α) :
    (f <$> x).unresolved = x.unresolved := by
  rw [map_eq_pure_bind, unresolved_bind, unresolved_pure, List.append_nil]

@[simp] theorem unresolved_report (e : Event) :
    (report e).unresolved = if e.reportsUnresolved then [e] else [] :=
  List.filter_cons

theorem unresolved_anyM {f : α → Traced Bool} (hf : ∀ a, (f a).unresolved = []) (xs : List α) :
    (xs.anyM f).unresolved = [] := by
  induction xs with
  | nil => rfl
  | cons x xs ih =>
    rw [List.anyM, unresolved_bind, hf x]
    cases (f x).value with
    | true => rfl
    | false => exact ih

end Traced

open Traced

/-! ## Selecting -/

section

variable (m : Semantics) (c : Config) (scope : Scope)

theorem unresolved_deriveQualifies (p : SourcePath) :
    (deriveQualifies m c scope p).unresolved = [] := by
  unfold deriveQualifies lookAttribute
  simp only [unresolved_bind, unresolved_looked]
  cases (looked (m.attribute? p scope)).value with
  | none => rfl
  | some path => rfl

theorem unresolved_metaQualifies (depth : Nat) (attr : Meta) :
    (metaQualifies m c scope depth attr).unresolved = [] := by
  -- Induction on the depth; selecting looks attributes up but never reports a type.
  induction depth generalizing attr with
  | zero => rfl
  | succ depth ih =>
    unfold metaQualifies lookAttribute
    rw [unresolved_bind, unresolved_looked, List.nil_append]
    split
    · rfl
    · split
      · exact unresolved_anyM (unresolved_deriveQualifies m c scope) _
      · split
        · exact unresolved_anyM ih _
        · rfl

theorem unresolved_scanStruct (s : StructItem) : (scanStruct m c scope s).unresolved = [] := by
  have hqualifying : (isQualifying m c scope s.attributes).unresolved = [] :=
    unresolved_anyM (fun attr => unresolved_metaQualifies m c scope _ attr) _
  unfold scanStruct
  rw [unresolved_bind, hqualifying]
  split
  · split
    · rfl
    · rfl
  · rfl

end

mutual

theorem unresolved_scanItem (m : Semantics) (c : Config) (scope : Scope) :
    ∀ item : Item, (scanItem m c scope item).unresolved = []
  -- Scanning only selects, hence it reports no type either.
  | .struct s => by
    rw [scanItem]
    exact unresolved_scanStruct m c scope s
  | .module i (some items) => by
    rw [scanItem]
    exact unresolved_scan m c (scope.child i.name) items
  | .module _ none => by simp [scanItem]
  | .use .. => by simp [scanItem]
  | .declared _ => by simp [scanItem]
  | .typeAlias .. => by simp [scanItem]
  | .externCrate .. => by simp [scanItem]
  | .other => by simp [scanItem]

/-- Selecting structs says nothing about types. -/
theorem unresolved_scan (m : Semantics) (c : Config) (scope : Scope) :
    ∀ items : List Item, (scan m c scope items).unresolved = []
  | [] => by simp [scan]
  | item :: items => by
    simp [scan, unresolved_scanItem m c scope item, unresolved_scan m c scope items]

end

/-! ## Describing -/

/-- The reports that the members of a struct call for: one for each that is not resolved. -/
def reportsOf (d : Candidate) (members : List Member) : List Event :=
  (members.filter fun x => !x.resolved).map fun x =>
    .typeUnresolved d.item.name.text x.name x.type x.nullability

theorem reportsOf_append (d : Candidate) (xs ys : List Member) :
    reportsOf d (xs ++ ys) = reportsOf d xs ++ reportsOf d ys := by
  rw [reportsOf, List.filter_append, List.map_append]
  rfl

/-- Reading options says nothing about types, also when they are malformed. -/
theorem unresolved_readOptions (f : Field) : (readOptions f).unresolved = [] := by
  unfold readOptions
  split
  · rfl
  · rfl

theorem unresolved_mark (t : SymbolTable) (marks : Bool) (f : Field) :
    ((Semantics.ofTable t marks).mark f).unresolved = [] := by
  cases marks with
  | false => rfl
  | true => exact (unresolved_map _ _).trans (unresolved_readOptions f)

section

variable {m : Semantics} (hmark : ∀ f, (m.mark f).unresolved = []) (c : Config) (d : Candidate)

include hmark

theorem unresolved_describeField (f : Field) :
    (describeField m c d f).unresolved = reportsOf d (describeField m c d f).value.toList := by
  unfold describeField
  cases f.name with
  | none => rfl
  | some i =>
    simp only [unresolved_bind, unresolved_readOptions, List.nil_append, value_bind]
    cases (readOptions f).value.skip with
    | true => rfl
    | false =>
      cases htype : m.type? f.type d.scope with
      | some t => simp [hmark, reportsOf]
      | none => simp [hmark, reportsOf]

theorem unresolved_describeFields (fields : List Field) :
    (describeFields m c d fields).unresolved = reportsOf d (describeFields m c d fields).value := by
  induction fields with
  | nil => rfl
  | cons f fs ih =>
    rw [describeFields, unresolved_bind, unresolved_bind, unresolved_pure, List.append_nil, ih,
      unresolved_describeField hmark, ← reportsOf_append]
    rfl

theorem unresolved_describe :
    (describe m c d).unresolved = reportsOf d (describe m c d).value.members := by
  have hfields := unresolved_describeFields hmark c d d.item.fields.namedList
  unfold describe
  simp [hfields]

theorem unresolved_describeAll (ds : List Candidate) :
    (describeAll m c ds).unresolved =
      ds.flatMap fun d => reportsOf d (describe m c d).value.members := by
  induction ds with
  | nil => rfl
  | cons d ds ih =>
    rw [describeAll, unresolved_bind, unresolved_bind, unresolved_pure, List.append_nil, ih,
      unresolved_describe hmark, List.flatMap_cons]

end

/-! ## Sources -/

theorem unresolved_describeItems (c : Config) (root : Scope) (items : List Item) :
    let m := Semantics.ofTable (.ofItems root items) c.nullableAnnotations
    (describeItems c root items).unresolved =
      (scan m c root items).value.flatMap fun d => reportsOf d (describe m c d).value.members := by
  intro m
  have hmark : ∀ f, (m.mark f).unresolved = [] := unresolved_mark _ _
  unfold describeItems
  rw [unresolved_bind, unresolved_scan, List.nil_append]
  exact unresolved_describeAll hmark c _

theorem events_describeSource {c : Config} {source origin : String} {root : Scope}
    {items : List Item} (h : prepare c source origin = .ok (root, items)) :
    (describeSource c source origin).run.events =
      (describeItems c root items).events ++
        [.sourceScanned origin (describeItems c root items).value.length] := by
  unfold describeSource
  rw [h]
  change ([] : List Event) ++ (((describeItems c root items).events ++ []) ++
    ([Event.sourceScanned origin (describeItems c root items).value.length] ++ [] ++ [])) = _
  simp

theorem memberOf_ofTable (t : SymbolTable) (marks : Bool) (c : Config) (scope : Scope)
    (e : Ident × Field) :
    let x := memberOf (.ofTable t marks) c scope e
    x.name = e.1.name ∧ x.fieldIdent = e.1.text ∧
      (x.resolved = false ↔ t.resolve scope e.2.type = none) ∧
      (x.resolved = false →
        x.type = e.2.type.written ∧ x.nullability = c.unresolvedNullability) := by
  have htype : (Semantics.ofTable t marks).type? e.2.type scope = t.resolve scope e.2.type := rfl
  unfold memberOf
  rw [htype]
  cases t.resolve scope e.2.type with
  | none => simp
  | some ty => simp

/-- A type that is shown as it is written is never silent: the warnings about such types, on the way
to the descriptors of a source, are one for each member that is not resolved, in the order of the
descriptors and their members. Each names the struct as it is declared, the member, the type that
the member shows, which is that of its field as it is written, and the class of the member, which is
that of the settings. -/
theorem unresolved_types_reported {c : Config} {source origin : String} {ds : List Descriptor}
    (h : (describeSource c source origin).run.value = .ok ds) :
    ∃ root items, prepare c source origin = .ok (root, items) ∧
      let t := SymbolTable.ofItems root items
      ∃ rows : List (Candidate × Descriptor),
        rows.map Prod.fst = (scan (.ofTable t c.nullableAnnotations) c root items).value ∧
        rows.map Prod.snd = ds ∧
        (∀ row ∈ rows, row.2.simpleName = row.1.item.name.name ∧
          ∃ members : List ((Ident × Field) × Member),
            members.map Prod.fst = memberFields row.1.item.fields.namedList ∧
            members.map Prod.snd = row.2.members ∧
            ∀ e ∈ members, e.2.name = e.1.1.name ∧ e.2.fieldIdent = e.1.1.text ∧
              (e.2.resolved = false ↔ t.resolve row.1.scope e.1.2.type = none) ∧
              (e.2.resolved = false →
                e.2.type = e.1.2.type.written ∧ e.2.nullability = c.unresolvedNullability)) ∧
        (describeSource c source origin).run.events.filter Event.reportsUnresolved =
          rows.flatMap fun row => (row.2.members.filter fun x => !x.resolved).map fun x =>
            .typeUnresolved row.1.item.name.text x.name x.type x.nullability := by
  rw [value_describeSource] at h
  cases hprepare : prepare c source origin with
  | error fault =>
    rw [hprepare] at h
    cases h
  | ok prepared =>
    obtain ⟨root, items⟩ := prepared
    rw [hprepare] at h
    refine ⟨root, items, rfl, ?_⟩
    intro t
    let m := Semantics.ofTable t c.nullableAnnotations
    -- the rows are the structs found, each beside its descriptor
    refine ⟨(scan m c root items).value.map fun d => (d, (describe m c d).value), ?_, ?_, ?_, ?_⟩
    · rw [List.map_map]
      exact List.map_id _
    · rw [List.map_map]
      exact (value_describeItems c root items).symm.trans (Except.ok.inj h)
    · intro row hrow
      obtain ⟨d, -, rfl⟩ := List.mem_map.mp hrow
      -- and the members are the fields, each beside what it is described as
      refine ⟨rfl, (memberFields d.item.fields.namedList).map fun e =>
        (e, memberOf m c d.scope e), ?_, ?_, ?_⟩
      · rw [List.map_map]
        exact List.map_id _
      · rw [List.map_map, members_describe]
        rfl
      · intro e he
        obtain ⟨entry, -, rfl⟩ := List.mem_map.mp he
        exact memberOf_ofTable t c.nullableAnnotations c d.scope entry
    · have hitems : (describeItems c root items).events.filter Event.reportsUnresolved = _ :=
        unresolved_describeItems c root items
      rw [events_describeSource hprepare, List.filter_append, hitems, List.flatMap_map]
      exact List.append_nil _

/-- A source with a type that cannot be resolved, in a member and in a skipped field. -/
def lostTypes : String :=
  "#[derive(::propgroup::PropertyMap)] struct Card \x7b "
    ++ "r#fn: Lost, #[property_map(skip)] s: Lost \x7d"

theorem unresolved_types_reported_lostTypes :
    (describeSource .default lostTypes "lost.rs").run.value =
        .ok [⟨"Card", "crate::Card", [⟨"fn", "r#fn", "Lost", false, .nonNullable⟩]⟩] ∧
      ∃ i : Ident, i.name = "Card" ∧
        (describeSource .default lostTypes "lost.rs").run.events.filter Event.reportsUnresolved =
          [.typeUnresolved i.text "fn" "Lost" .nonNullable] := by
  have h : (describeSource .default lostTypes "lost.rs").run.value =
      .ok [⟨"Card", "crate::Card", [⟨"fn", "r#fn", "Lost", false, .nonNullable⟩]⟩] := by
    decide +kernel
  refine ⟨h, ?_⟩
  obtain ⟨root, items, -, rows, -, hdescriptors, hrows, hevents⟩ := unresolved_types_reported h
  obtain ⟨row, rfl, hrow⟩ := List.map_eq_singleton_iff.mp hdescriptors
  have hname := (hrows row (List.mem_singleton_self row)).1
  rw [hrow] at hname
  refine ⟨row.1.item.name, hname.symm, ?_⟩
  rw [hevents, List.flatMap_singleton, hrow]
  rfl

end Memberwise
