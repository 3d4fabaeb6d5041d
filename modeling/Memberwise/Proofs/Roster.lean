import Memberwise.Proofs.Dispatch
import Memberwise.Proofs.NameMatch
import Memberwise.Roster

/-!
# Memberwise.Proofs.Roster — grouping people

What `groupByProperty` gives for people is said without regard to how groupings are generated: the
fields that people can be grouped by are columns, each with its values and with the people whose
value is absent. `groupByProperty_people` says that a request groups people by the first column that
it matches, and that the members which generated code reads are those of the declaration.
-/

namespace Memberwise.Roster

/-- A field that people can be grouped by. -/
structure Column where
  name : String
  variant : String
  value : Person → FieldValue
  absent : Person → Bool

/-- The fields that people can be grouped by, in the order of the declaration. -/
def Person.columns : List Column :=
  [⟨"id", "Id", fun p => .int p.id, fun _ => false⟩,
   ⟨"name", "Name", fun p => .text p.name, fun _ => false⟩,
   ⟨"tag", "Tag", fun p => .optionalText p.tag, fun p => p.tag == none⟩,
   ⟨"age", "Age", fun p => .optionalByte p.age, fun p => p.age == none⟩,
   ⟨"team", "Team", fun p => .team p.team, fun _ => false⟩,
   ⟨"badge", "Badge", fun p => .badge p.badge, fun p => p.badge == ⟨0⟩⟩]

/-- The first column that a request matches. -/
def selectedColumn? (name : String) : Option Column :=
  Person.columns.find? fun c => namesMatch name c.name

/-- What it is to group people by a column: there is one entry for each value of people whose value
is there, and it holds all the people with that value, in their order. -/
structure Column.Groups (c : Column) (people : List Person) (g : Grouping FieldValue Person) :
    Prop where
  variant : g.variant = c.variant
  mem_iff : ∀ k, k ∈ g.groups ↔ ∃ p ∈ people, c.absent p = false ∧ c.value p = k
  entry : ∀ k, k ∈ g.groups → g.groups[k]? = some (people.filter fun p => c.value p == k)
  size : g.groups.size =
    ((people.filter fun p => !c.absent p).map c.value).eraseDups.length

/-! ## Members and columns -/

/-- A member reads the column that it is named after. -/
structure Column.ReadBy (c : Column) (p : Property Person FieldValue) : Prop where
  name : p.member.name = c.name
  value : p.value = c.value
  keeps : ∀ r, p.keeps r = !c.absent r

/-- The members of people read the columns, one by one. -/
theorem readBy_columns :
    List.Forall₂ (fun p c => Column.ReadBy c p) Person.properties Person.columns := by
  have hoption : ∀ {α : Type} [BEq α] (o : Option α), o.isNone = (o == none) := by
    intro α _ o
    cases o <;> rfl
  have hbadge : ∀ b : Badge, (b.number == 0) = (b == ⟨0⟩) := by
    rintro ⟨n⟩
    rw [Bool.eq_iff_iff]
    simp
  -- id, name and team are never absent
  refine .cons ⟨rfl, rfl, fun r => rfl⟩ <| .cons ⟨rfl, rfl, fun r => rfl⟩ <|
    .cons ⟨rfl, rfl, fun r => ?_⟩ <| .cons ⟨rfl, rfl, fun r => ?_⟩ <|
    .cons ⟨rfl, rfl, fun r => rfl⟩ <| .cons ⟨rfl, rfl, fun r => ?_⟩ .nil
  · exact congrArg not (hoption r.tag)
  · exact congrArg not (hoption r.age)
  · exact congrArg not (hbadge r.badge)

theorem find?_of_forall₂ {α β : Type} {R : α → β → Prop} {f : α → Bool} {g : β → Bool}
    (hfg : ∀ a b, R a b → f a = g b) {as : List α} {bs : List β} (h : List.Forall₂ R as bs) {b : β}
    (hb : bs.find? g = some b) : ∃ a, as.find? f = some a ∧ R a b := by
  -- Induction on the two lists side by side, whose tests agree at each place.
  induction h with
  | nil => cases hb
  | @cons x y xs ys hab _ ih =>
    rw [List.find?_cons] at hb ⊢
    rw [hfg x y hab]
    cases hg : g y with
    | true =>
      rw [hg] at hb
      cases hb
      exact ⟨x, rfl, hab⟩
    | false =>
      rw [hg] at hb
      exact ih hb

/-- A request selects the member that reads the column it selects. -/
theorem selectedProperty?_people {name : String} {c : Column} (h : selectedColumn? name = some c) :
    ∃ p, selectedProperty? Person.properties name = some p ∧ c.ReadBy p :=
  find?_of_forall₂ (fun _ _ hread => by rw [hread.name]) readBy_columns h

theorem branchPerMember_people : BranchPerMember Person.properties := by
  unfold BranchPerMember
  decide +kernel

theorem variant_propertyBranches_people {b : Branch} (hb : b ∈ propertyBranches Person.properties)
    {c : Column} (hc : c ∈ Person.columns) (h : b.member.name = c.name) :
    b.variant = c.variant := by
  have hvariants : ∀ b ∈ propertyBranches Person.properties,
      ∀ entry ∈ Person.columns.map fun c => (c.name, c.variant),
        b.member.name = entry.1 → b.variant = entry.2 := by
    decide +kernel
  exact hvariants b hb (c.name, c.variant) (List.mem_map.mpr ⟨c, hc, rfl⟩) h

/-- The groups of the member that reads a column are the groups of the column. -/
theorem Column.ReadBy.groups {c : Column} {p : Property Person FieldValue} (h : c.ReadBy p)
    {variant : String} (hvariant : variant = c.variant) (people : List Person) :
    c.Groups people ⟨variant, (p.groups people).toMap⟩ := by
  have hmem : ∀ k, k ∈ (p.groups people).toMap ↔
      ∃ r ∈ people, c.absent r = false ∧ c.value r = k := by
    intro k
    simp [Property.mem_groups, h.keeps, h.value]
  refine ⟨hvariant, hmem, fun k hk => ?_, ?_⟩
  · rw [Property.mem_groups] at hk
    rw [Property.getElem?_groups hk, h.value]
  · have hkeeps : p.keeps = fun r => !c.absent r := funext h.keeps
    rw [Property.size_groups, hkeeps, h.value]

theorem forall_columns_iff (name : String) :
    (∀ p ∈ Person.properties, namesMatch name p.member.name = false) ↔
      ∀ c ∈ Person.columns, namesMatch name c.name = false := by
  have hnames : Person.properties.map (·.member.name) = Person.columns.map (·.name) := rfl
  have hproperties := List.forall_mem_map (l := Person.properties) (f := (·.member.name))
    (P := fun n => namesMatch name n = false)
  have hcolumns := List.forall_mem_map (l := Person.columns) (f := (·.name))
    (P := fun n => namesMatch name n = false)
  rw [hnames] at hproperties
  exact hproperties.symm.trans hcolumns

/-- A name with the small letters of `rating` has those of no column. -/
theorem columns_of_rating {name : String} (h : namesMatch name "rating" = true) :
    ∀ c ∈ Person.columns, namesMatch name c.name = false := by
  have hothers : ∀ n ∈ Person.columns.map (·.name), Text.lowerEach "rating" ≠ Text.lowerEach n := by
    decide +kernel
  intro c hc
  rw [Bool.eq_false_iff, ne_eq, namesMatch_iff, namesMatch_iff.mp h]
  exact hothers c.name (List.mem_map.mpr ⟨c, hc, rfl⟩)

/-- Describing the declarations gives the members that generated code reads, without the rating. -/
theorem describeItems_items :
    (describeItems config ⟨["model"]⟩ items).value = [Person.descriptor, Alumnus.descriptor] := by
  decide +kernel

/-! ## The law -/

/-- People are grouped by the first column that a request matches; there is no grouping exactly if
there are no people, the request is empty, or it matches no column. The rating is no column: it
selects nothing, and the members that generated code reads are those that the declaration of people
gives. -/
theorem groupByProperty_people (people : List Person) (name : String) :
    (groupByProperty Person.properties people name = none ↔
      people = [] ∨ name = "" ∨ ∀ c ∈ Person.columns, namesMatch name c.name = false) ∧
    (people ≠ [] → name ≠ "" → ∀ c, selectedColumn? name = some c →
      ∃ g, groupByProperty Person.properties people name = some g ∧ c.Groups people g) ∧
    (namesMatch name "rating" = true → groupByProperty Person.properties people name = none) ∧
    (describeItems config ⟨["model"]⟩ items).value = [Person.descriptor, Alumnus.descriptor] := by
  have hnone : groupByProperty Person.properties people name = none ↔
      people = [] ∨ name = "" ∨ ∀ c ∈ Person.columns, namesMatch name c.name = false := by
    rw [groupByProperty_eq_none_iff branchPerMember_people, forall_columns_iff]
  refine ⟨hnone, ?_, ?_, describeItems_items⟩
  · intro hpeople hname c hc
    rcases selectedProperty?_people hc with ⟨p, hp, hread⟩
    -- The branch found for the name is that of the column, and its variant holds the groups.
    obtain ⟨b, hb, hmember, hsome⟩ :=
      groupByProperty_eq_some branchPerMember_people hpeople hname hp
    have hbname : b.member.name = c.name := by rw [hmember, hread.name]
    have hvariant := variant_propertyBranches_people hb (List.mem_of_find?_eq_some hc) hbname
    exact ⟨_, hsome, hread.groups hvariant people⟩
  · intro hrating
    exact hnone.mpr (Or.inr (Or.inr (columns_of_rating hrating)))

end Memberwise.Roster
