import Memberwise.Dispatch
import Memberwise.Proofs.Grouping

/-!
# Memberwise.Proofs.Dispatch — grouping records by a requested name

Where every member has a branch of its own, a request that is not empty groups a sequence that is
not empty by the first member that the request matches (`groupByProperty_eq_some`), and there is no
grouping in any other case (`groupByProperty_eq_none_iff`). Whether a value is absent depends on the
value alone, so that leaving out absent values never takes an element out of a group that is kept
(`getElem?_groups`).
-/

namespace Memberwise

variable {ρ κ : Type}

/-! ## The selected member -/

/-- Every member has a branch of its own, in the order of the members. -/
def BranchPerMember (ps : List (Property ρ κ)) : Prop :=
  (propertyBranches ps).map Branch.member = ps.map Property.member

/-- The first member that a request matches. -/
def selectedProperty? (ps : List (Property ρ κ)) (name : String) : Option (Property ρ κ) :=
  ps.find? fun p => namesMatch name p.member.name

theorem member_find?_propertyBranches {ps : List (Property ρ κ)} (h : BranchPerMember ps)
    (name : String) :
    ((propertyBranches ps).find? fun b => namesMatch name b.member.name).map Branch.member =
      (selectedProperty? ps name).map Property.member := by
  have hbranches := List.find?_map (p := fun m : Member => namesMatch name m.name)
    (f := Branch.member) (l := propertyBranches ps)
  have hmembers := List.find?_map (p := fun m : Member => namesMatch name m.name)
    (f := Property.member) (l := ps)
  rw [h, hmembers] at hbranches
  exact hbranches.symm

/-- No member before the selected one can be confused with it. -/
theorem find?_member_eq {ps : List (Property ρ κ)} {name : String} {p : Property ρ κ}
    (h : selectedProperty? ps name = some p) :
    (ps.find? fun q => q.member == p.member) = some p := by
  rcases List.find?_eq_some_iff_append.mp h with ⟨hmatch, before, after, hps, hbefore⟩
  refine List.find?_eq_some_iff_append.mpr ⟨beq_self_eq_true _, before, after, hps, ?_⟩
  intro q hq
  have hmiss := hbefore q hq
  rw [Bool.not_eq_eq_eq_not, Bool.not_true] at hmiss ⊢
  refine beq_eq_false_iff_ne.mpr fun hmember => ?_
  rw [hmember, hmatch] at hmiss
  cases hmiss

variable [BEq κ] [Hashable κ] [MaybeAbsent κ]

/-- A request groups by the first member that it matches. -/
theorem groupByProperty_eq_some {ps : List (Property ρ κ)} (h : BranchPerMember ps)
    {source : List ρ} {name : String} {p : Property ρ κ} (hsource : source ≠ []) (hname : name ≠ "")
    (hp : selectedProperty? ps name = some p) :
    ∃ b ∈ propertyBranches ps, b.member = p.member ∧
      groupByProperty ps source name = some ⟨b.variant, (p.groups source).toMap⟩ := by
  have hmember := member_find?_propertyBranches h name
  rw [hp, Option.map_some] at hmember
  rcases Option.map_eq_some_iff.mp hmember with ⟨b, hb, hbp⟩
  refine ⟨b, List.mem_of_find?_eq_some hb, hbp, ?_⟩
  have hguard : (source.isEmpty || name.isEmpty) = false := by
    simp [hsource, hname]
  simp [groupByProperty, hguard, hb, hbp, find?_member_eq hp]

/-- There is no grouping exactly if there are no records, the request is empty, or it matches no
member. -/
theorem groupByProperty_eq_none_iff {ps : List (Property ρ κ)} (h : BranchPerMember ps)
    {source : List ρ} {name : String} :
    groupByProperty ps source name = none ↔
      source = [] ∨ name = "" ∨ ∀ p ∈ ps, namesMatch name p.member.name = false := by
  by_cases hsource : source = []
  · simp [groupByProperty, hsource]
  by_cases hname : name = ""
  · simp [groupByProperty, hname]
  -- The list is not empty and a name is given, so only the search for a member can fail.
  cases hp : selectedProperty? ps name with
  | some p =>
    rcases groupByProperty_eq_some h hsource hname hp with ⟨b, _, _, hsome⟩
    have hmatch : ¬∀ q ∈ ps, namesMatch name q.member.name = false := by
      intro hnone
      have hmiss := hnone p (List.mem_of_find?_eq_some hp)
      exact absurd (List.find?_some hp) (by simp [hmiss])
    simp [hsome, hsource, hname, hmatch]
  | none =>
    -- No member matches, and the branches are made of members.
    have hmember := member_find?_propertyBranches h name
    rw [hp, Option.map_none, Option.map_eq_none_iff] at hmember
    have hmiss : ∀ q ∈ ps, namesMatch name q.member.name = false := by
      intro q hq
      simpa using List.find?_eq_none.mp hp q hq
    have hnone : groupByProperty ps source name = none := by
      simp [groupByProperty, hmember]
    exact iff_of_true hnone (Or.inr (Or.inr hmiss))

/-! ## The groups of a member -/

namespace Property

/-- Whether a record is kept when records are grouped by a member. -/
def keeps (p : Property ρ κ) (r : ρ) : Bool :=
  !(p.member.nullability.needsFilter && isAbsent (p.value r))

omit [BEq κ] [Hashable κ] in
theorem present_eq_filter (p : Property ρ κ) (source : List ρ) :
    p.present source = source.filter p.keeps := by
  unfold Property.present
  split
  · next hfilter =>
    exact List.filter_congr fun r _ => by simp [keeps, hfilter]
  · next hfilter =>
    exact (List.filter_eq_self.mpr fun r _ => by simp [keeps, hfilter]).symm

variable [LawfulBEq κ]

/-- The groups are those of the values of records that are kept. -/
theorem mem_groups {p : Property ρ κ} {source : List ρ} {k : κ} :
    k ∈ (p.groups source).toMap ↔ ∃ r ∈ source, p.keeps r = true ∧ p.value r = k := by
  simp [Property.groups, mem_toMap_groupBy, present_eq_filter, and_assoc]

/-- A group holds all the records with its value, in their order. -/
theorem getElem?_groups {p : Property ρ κ} {source : List ρ} {k : κ}
    (h : ∃ r ∈ source, p.keeps r = true ∧ p.value r = k) :
    (p.groups source).toMap[k]? = some (source.filter fun r => p.value r == k) := by
  rcases h with ⟨r, hr, hkeeps, hk⟩
  have hsome : ((p.present source).any fun r => p.value r == k) = true := by
    refine List.any_eq_true.mpr ⟨r, ?_, beq_iff_eq.mpr hk⟩
    rw [present_eq_filter]
    exact List.mem_filter.mpr ⟨hr, hkeeps⟩
  rw [Property.groups, getElem?_toMap_groupBy, elementsWith?, if_pos hsome, present_eq_filter,
    List.filter_filter]
  congr 1
  refine List.filter_congr fun x _ => ?_
  -- a record with the value of one that is kept is kept too
  by_cases hx : p.value x = k
  · have hsame : p.keeps x = p.keeps r := by rw [keeps, keeps, hx, hk]
    rw [hsame, hkeeps, Bool.and_true]
  · simp [hx]

/-- There is one group for each value of a record that is kept. -/
theorem size_groups (p : Property ρ κ) (source : List ρ) :
    (p.groups source).toMap.size = ((source.filter p.keeps).map p.value).eraseDups.length := by
  rw [Property.groups, size_toMap_groupBy, present_eq_filter]

end Property

end Memberwise
