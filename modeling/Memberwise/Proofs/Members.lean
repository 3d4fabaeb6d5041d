import Memberwise.Proofs.Commands
import Memberwise.Proofs.Insertion

/-!
# Memberwise.Proofs.Members — what the members of a descriptor depend on

A field becomes a member if it has a name and is not skipped (`memberFields`), and what the member
says is computed from the field alone (`memberOf`), so the members of a descriptor are those fields
one by one (`members_describe`).

Two settings say how absence is told: the class of members whose type cannot be resolved, and
whether the mark `nullable` is looked at. Neither is read on the way to the selected structs
(`value_scan_withNullability`), to their names or to the types of their members, so the descriptors
under settings that differ in these two alone can be laid side by side
(`nullability_settings_confined`).
-/

namespace Memberwise

open Source

@[simp] theorem Traced.value_map {α β : Type} (f : α → β) (x : Traced α) :
    (f <$> x).value = f x.value := rfl

/-! ## The members of a struct -/

/-- The fields that become members, with their names: those that are not skipped. -/
def memberFields (fields : List Field) : List (Ident × Field) :=
  fields.filterMap fun f =>
    if (readOptions f).value.skip then none else f.name.map fun i => (i, f)

/-- The member that a field becomes in a struct of the module `scope`. -/
def memberOf (m : Semantics) (c : Config) (scope : Scope) (e : Ident × Field) : Member :=
  match m.type? e.2.type scope with
  | some t => ⟨e.1.name, e.1.text, t.text, true, classify t (m.mark e.2).value⟩
  | none => ⟨e.1.name, e.1.text, e.2.type.written, false, c.unresolvedNullability⟩

section

variable (m : Semantics) (c : Config) (d : Candidate)

theorem value_describeField (f : Field) :
    (describeField m c d f).value.toList =
      (memberFields [f]).map (memberOf m c d.scope) := by
  unfold describeField memberFields
  cases hname : f.name with
  | none => cases hskip : (readOptions f).value.skip <;> simp [hskip, hname]
  | some i =>
    cases hskip : (readOptions f).value.skip with
    | true => simp [hskip]
    | false =>
      cases htype : m.type? f.type d.scope <;> simp [hskip, hname, memberOf, htype]

theorem value_describeFields (fields : List Field) :
    (describeFields m c d fields).value =
      (memberFields fields).map (memberOf m c d.scope) := by
  induction fields with
  | nil => rfl
  | cons f fs ih =>
    have hcons : memberFields (f :: fs) = memberFields [f] ++ memberFields fs :=
      List.filterMap_append (l := [f])
    rw [hcons, List.map_append, ← ih, ← value_describeField]
    rfl

theorem members_describe :
    (describe m c d).value.members =
      (memberFields d.item.fields.namedList).map (memberOf m c d.scope) :=
  value_describeFields m c d _

end

/-! ## Settings of absence -/

/-- Settings with another class for members whose type cannot be resolved, and with marks looked at
or not. -/
def Config.withNullability (c : Config) (unresolved : Nullability) (marks : Bool) : Config :=
  { c with unresolvedNullability := unresolved, nullableAnnotations := marks }

section

variable (t : SymbolTable) (c : Config) (unresolved : Nullability) (marks : Bool)

theorem prepare_withNullability (source origin : String) :
    prepare (c.withNullability unresolved marks) source origin = prepare c source origin := rfl

theorem metaQualifies_withNullability (scope : Scope) (depth : Nat) :
    metaQualifies (.ofTable t marks) (c.withNullability unresolved marks) scope depth =
      metaQualifies (.ofTable t c.nullableAnnotations) c scope depth := by
  induction depth with
  | zero => rfl
  | succ depth ih =>
    funext attr
    simp only [metaQualifies, ih]
    rfl

theorem isSelected_withNullability (d : Candidate) :
    isSelected (.ofTable t marks) (c.withNullability unresolved marks) d =
      isSelected (.ofTable t c.nullableAnnotations) c d := by
  unfold isSelected isQualifying
  simp only [metaQualifies_withNullability]

/-- The settings of absence have no part in selection. -/
theorem value_scan_withNullability (root : Scope) (items : List Item) :
    (scan (.ofTable t marks) (c.withNullability unresolved marks) root items).value =
      (scan (.ofTable t c.nullableAnnotations) c root items).value := by
  rw [value_scan_structsFrom _ _ root 0, value_scan_structsFrom _ _ root 0,
    funext (isSelected_withNullability t c unresolved marks)]

end

/-- The mark of a field counts for its type: the field is marked nullable, and the type is neither
nullable by itself nor an `Option`. -/
structure MarkCounts (f : Field) (ty : ResolvedType) : Prop where
  nullable : (readOptions f).value.nullable = true
  top : ty.isTop = false
  reference : ty.isReferenceLike = false
  option : ty.optionInner = none

section

variable (t : SymbolTable) {f : Field} {ty : ResolvedType}

theorem mark_ofTable_eq_marked_iff {marks : Bool} :
    ((Semantics.ofTable t marks).mark f).value = .marked ↔
      marks = true ∧ (readOptions f).value.nullable = true := by
  cases marks with
  | false => simp [Semantics.ofTable]
  | true => simp [Semantics.ofTable, markOf]

theorem classify_of_markCounts (h : MarkCounts f ty) (marks : Bool) :
    classify ty ((Semantics.ofTable t marks).mark f).value =
      if marks then .alwaysNullable else .nonNullable := by
  simp [classify, ResolvedType.isNullable, h.top, h.reference, h.option, h.nullable,
    mark_ofTable_eq_marked_iff]

/-- Where the mark does not count, looking at it makes no difference. -/
theorem classify_of_not_markCounts (h : ¬ MarkCounts f ty) (marks : Bool) :
    classify ty ((Semantics.ofTable t marks).mark f).value = classify ty .unmarked := by
  unfold classify ResolvedType.isNullable
  -- A mark only matters where nothing else settles the matter.
  cases htop : ty.isTop with
  | true => simp
  | false =>
    cases href : ty.isReferenceLike with
    | true => simp
    | false =>
      cases hoption : ty.optionInner with
      | some inner => simp
      | none =>
        have hnullable : (readOptions f).value.nullable = false := by
          by_contra hne
          exact h ⟨Bool.of_not_eq_false hne, htop, href, hoption⟩
        simp [mark_ofTable_eq_marked_iff, hnullable]

end

/-- Descriptions of one field under the settings `c` and `e` differ at most in their classes. The
class of a type that cannot be resolved is that of the settings; the class of any other is the same,
unless the mark of the field counts. -/
structure Member.Beside (t : SymbolTable) (c e : Config) (scope : Scope) (f : Field)
    (x y : Member) : Prop where
  name : x.name = y.name
  fieldIdent : x.fieldIdent = y.fieldIdent
  type : x.type = y.type
  resolved : x.resolved = (t.resolve scope f.type).isSome ∧
    y.resolved = (t.resolve scope f.type).isSome
  unresolved : t.resolve scope f.type = none →
    x.nullability = c.unresolvedNullability ∧ y.nullability = e.unresolvedNullability
  marked : ∀ ty, t.resolve scope f.type = some ty → MarkCounts f ty →
    x.nullability = (if c.nullableAnnotations then .alwaysNullable else .nonNullable) ∧
      y.nullability = (if e.nullableAnnotations then .alwaysNullable else .nonNullable)
  unmarked : ∀ ty, t.resolve scope f.type = some ty → ¬ MarkCounts f ty →
    x.nullability = y.nullability

/-- Descriptions of one struct under the settings `c` and `e` have the same names, and their members
stand beside each other, one for each field that becomes a member. -/
structure Descriptor.Beside (t : SymbolTable) (c e : Config) (d : Candidate)
    (x y : Descriptor) : Prop where
  simpleName : x.simpleName = y.simpleName
  fullName : x.fullName = y.fullName
  members : ∃ rows : List ((Ident × Field) × Member × Member),
    rows.map (·.1) = memberFields d.item.fields.namedList ∧
    rows.map (·.2.1) = x.members ∧ rows.map (·.2.2) = y.members ∧
    ∀ row ∈ rows, Member.Beside t c e d.scope row.1.2 row.2.1 row.2.2

theorem beside_memberOf (t : SymbolTable) (c e : Config) (scope : Scope) (entry : Ident × Field) :
    Member.Beside t c e scope entry.2
      (memberOf (.ofTable t c.nullableAnnotations) c scope entry)
      (memberOf (.ofTable t e.nullableAnnotations) e scope entry) := by
  have htype : ∀ marks, (Semantics.ofTable t marks).type? entry.2.type scope =
      t.resolve scope entry.2.type := fun _ => rfl
  -- Only a resolved type can carry a mark; unresolved, both rows are the same.
  cases hresolve : t.resolve scope entry.2.type with
  | none =>
    simp only [memberOf, htype, hresolve]
    constructor <;> simp [hresolve]
  | some ty =>
    simp only [memberOf, htype, hresolve]
    constructor
    case marked =>
      intro ty' hty' hcounts
      cases hresolve.symm.trans hty'
      exact ⟨classify_of_markCounts t hcounts _, classify_of_markCounts t hcounts _⟩
    case unmarked =>
      intro ty' hty' hcounts
      cases hresolve.symm.trans hty'
      exact (classify_of_not_markCounts t hcounts _).trans
        (classify_of_not_markCounts t hcounts _).symm
    all_goals simp [hresolve]

theorem beside_describe (t : SymbolTable) (c e : Config) (d : Candidate) :
    Descriptor.Beside t c e d
      (describe (.ofTable t c.nullableAnnotations) c d).value
      (describe (.ofTable t e.nullableAnnotations) e d).value := by
  refine ⟨rfl, rfl, ?_⟩
  -- Both lists of rows come from one list of fields.
  refine ⟨(memberFields d.item.fields.namedList).map fun entry =>
    (entry, memberOf (.ofTable t c.nullableAnnotations) c d.scope entry,
      memberOf (.ofTable t e.nullableAnnotations) e d.scope entry), ?_, ?_, ?_, ?_⟩
  · rw [List.map_map]
    exact List.map_id _
  · rw [members_describe, List.map_map]
    rfl
  · rw [members_describe, List.map_map]
    rfl
  · intro row hrow
    obtain ⟨entry, -, rfl⟩ := List.mem_map.mp hrow
    exact beside_memberOf t c e d.scope entry

/-- The settings of absence change nothing but classes: with other ones, a source fails with the
same fault, or gives descriptors of the same structs in the same order, and these have the same
names and members that differ in their classes at most. -/
theorem nullability_settings_confined (c : Config) (unresolved : Nullability) (marks : Bool)
    (source origin : String) :
    let e := c.withNullability unresolved marks
    (∃ fault, (describeSource c source origin).run.value = .error fault ∧
      (describeSource e source origin).run.value = .error fault) ∨
    ∃ root items, prepare c source origin = .ok (root, items) ∧
      prepare e source origin = .ok (root, items) ∧
      let t := SymbolTable.ofItems root items
      ∃ rows : List (Candidate × Descriptor × Descriptor),
        rows.map (·.1) = (scan (.ofTable t c.nullableAnnotations) c root items).value ∧
        rows.map (·.1) = (scan (.ofTable t e.nullableAnnotations) e root items).value ∧
        (describeSource c source origin).run.value = .ok (rows.map (·.2.1)) ∧
        (describeSource e source origin).run.value = .ok (rows.map (·.2.2)) ∧
        ∀ row ∈ rows, Descriptor.Beside t c e row.1 row.2.1 row.2.2 := by
  intro e
  rw [value_describeSource, value_describeSource]
  cases hprepare : prepare c source origin with
  | error fault =>
    have hprepare' : prepare e source origin = .error fault :=
      (prepare_withNullability c unresolved marks source origin).trans hprepare
    exact Or.inl ⟨fault, rfl, by rw [hprepare']; rfl⟩
  | ok prepared =>
    obtain ⟨root, items⟩ := prepared
    have hprepare' : prepare e source origin = .ok (root, items) :=
      (prepare_withNullability c unresolved marks source origin).trans hprepare
    refine Or.inr ⟨root, items, rfl, hprepare', ?_⟩
    intro t
    have hscan := value_scan_withNullability t c unresolved marks root items
    -- the settings do not say which structs are found, so each has a descriptor on both sides
    refine ⟨(scan (.ofTable t c.nullableAnnotations) c root items).value.map fun d =>
      (d, (describe (.ofTable t c.nullableAnnotations) c d).value,
        (describe (.ofTable t e.nullableAnnotations) e d).value), ?_, ?_, ?_, ?_, ?_⟩
    · rw [List.map_map]
      exact List.map_id _
    · rw [List.map_map]
      exact (List.map_id _).trans hscan.symm
    · rw [List.map_map]
      exact congrArg Except.ok (value_describeItems c root items)
    · rw [hprepare', List.map_map, ← hscan]
      exact congrArg Except.ok (value_describeItems e root items)
    · intro row hrow
      obtain ⟨d, -, rfl⟩ := List.mem_map.mp hrow
      exact beside_describe t c e d

end Memberwise
