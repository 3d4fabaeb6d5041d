import Mathlib.Data.List.Nodup
import Mathlib.Data.List.Perm.Subperm
import Memberwise.Proofs.Branches
import Std.Data.String.ToNat

/-!
# Memberwise.Proofs.Variants — the names of variants

The variant of a branch is the first of the names `base`, `base2`, `base3`, … that no branch before
it has. Names with different numbers differ, so among one more of them than are taken there is one
that is free (`exists_free_number`), and the search ends (`freshVariant_of_mem`). What is taken when
a branch is made are the variants of the branches before it (`variant_branchesAfter`), so no two
branches have the same variant.

Branches are made for the members whose key belongs to no member before them
(`firstOfKeys_eq_firstOccurrences`).
-/

namespace Memberwise

open Naming

/-! ## Free names -/

/-- Names are taken finitely often, so one of them with a number at the end is free. -/
theorem exists_free_number (used : List String) (base : String) :
    ∃ k < used.length + 1, base ++ toString (k + 2) ∉ used := by
  by_contra hnone
  push Not at hnone
  let numbered := (List.range (used.length + 1)).map fun k => base ++ toString (k + 2)
  have hinj : Function.Injective fun k => base ++ toString (k + 2) := by
    intro k l h
    simpa using h
  have hnodup : numbered.Nodup := List.nodup_range.map hinj
  have hsub : numbered ⊆ used := by
    intro v hv
    obtain ⟨k, hk, rfl⟩ := List.mem_map.mp hv
    exact hnone k (List.mem_range.mp hk)
  have hlength := (hnodup.subperm hsub).length_le
  rw [List.length_map, List.length_range] at hlength
  omega

/-- A name that is free is used as it is. -/
theorem freshVariant_of_notMem {used : List String} {base : String} (h : base ∉ used) :
    freshVariant used base = base := by
  simp [freshVariant, h]

/-- A name that is taken is used with the least number, from 2 on, with which it is free. -/
theorem freshVariant_of_mem {used : List String} {base : String} (h : base ∈ used) :
    ∃ n, 2 ≤ n ∧ freshVariant used base = base ++ toString n ∧ base ++ toString n ∉ used ∧
      ∀ k, 2 ≤ k → k < n → base ++ toString k ∈ used := by
  let free := fun k => !used.contains (base ++ toString (k + 2))
  -- the search among the numbers that are tried finds one
  have hsome : ((List.range (used.length + 1)).find? free).isSome = true := by
    obtain ⟨k, hk, hfree⟩ := exists_free_number used base
    rw [List.find?_isSome]
    exact ⟨k, List.mem_range.mpr hk, by simpa [free] using hfree⟩
  obtain ⟨k, hk⟩ := Option.isSome_iff_exists.mp hsome
  have hvariant : freshVariant used base = base ++ toString (k + 2) := by
    have hcomp : (fun v => !used.contains v) ∘ (fun k => base ++ toString (k + 2)) = free := rfl
    simp only [freshVariant, List.find?_cons, List.contains_iff_mem.mpr h, Bool.not_true,
      List.find?_map, hcomp, hk, Option.map_some, Option.getD_some]
  obtain ⟨hfree, -, hleast⟩ := List.find?_range_eq_some.mp hk
  refine ⟨k + 2, by omega, hvariant, by simpa [free] using hfree, fun j hj hlt => ?_⟩
  have hbefore := hleast (j - 2) (by omega)
  simpa [free, Nat.sub_add_cancel hj] using hbefore

theorem freshVariant_notMem (used : List String) (base : String) :
    freshVariant used base ∉ used := by
  by_cases h : base ∈ used
  · obtain ⟨n, -, heq, hfree, -⟩ := freshVariant_of_mem h
    rwa [heq]
  · rwa [freshVariant_of_notMem h]

/-! ## The variants of a run -/

section

variable {seen : List (String × String)} {used : List String} {members : List Member}

/-- The variant of a branch depends on those that were taken before and those of the branches before
it. -/
theorem variant_branchesAfter {before after : List Branch} {b : Branch}
    (h : (branchesAfter seen used members).value = before ++ b :: after) :
    b.variant =
      freshVariant ((before.map Branch.variant).reverse ++ used) (toVariantName b.member.name) := by
  -- Induction on the members; names already given are collected in reverse.
  induction members generalizing seen used before with
  | nil => simp [branchesAfter] at h
  | cons m ms ih =>
    rw [branchesAfter] at h
    split at h
    · exact ih h
    · cases before with
      | nil =>
        obtain ⟨rfl, -⟩ := List.cons.inj h
        rfl
      | cons first before =>
        obtain ⟨rfl, hrest⟩ := List.cons.inj h
        rw [ih hrest, List.map_cons, List.reverse_cons, List.append_assoc]
        rfl

/-- No branch has a variant that was taken before or that another branch has. -/
theorem nodup_variants_branchesAfter :
    ((branchesAfter seen used members).value.map Branch.variant).Nodup ∧
      ∀ v ∈ (branchesAfter seen used members).value.map Branch.variant, v ∉ used := by
  induction members generalizing seen used with
  | nil => simp [branchesAfter]
  | cons m ms ih =>
    rw [branchesAfter]
    split
    · exact ih
    · obtain ⟨hnodup, hfree⟩ := @ih (m.branchKey :: seen)
        (freshVariant used (toVariantName m.name) :: used)
      constructor
      · refine List.nodup_cons.mpr ⟨fun hmem => ?_, hnodup⟩
        exact hfree _ hmem List.mem_cons_self
      · refine List.forall_mem_cons.mpr ⟨freshVariant_notMem used _, fun v hv hmem => ?_⟩
        exact hfree v hv (List.mem_cons_of_mem _ hmem)

end

/-! ## The members of a run -/

/-- The members whose key belongs to no member before them, in order. -/
def firstOccurrences (members : List Member) : List Member :=
  (members.zipIdx.filter fun e =>
    (members.take e.2).all fun a => a.branchKey != e.1.branchKey).map Prod.fst

/-- The first members of their keys are those with a key that no member before them has. The
induction is on the members that are left; `seen` holds the keys of those in `done`. -/
theorem firstOfKeys_eq_filter {seen : List (String × String)} (done rest : List Member)
    (hseen : ∀ key, key ∈ seen ↔ key ∈ done.map Member.branchKey) :
    firstOfKeys seen rest =
      ((rest.zipIdx done.length).filter fun e =>
        ((done ++ rest).take e.2).all fun a => a.branchKey != e.1.branchKey).map Prod.fst := by
  -- Induction on the members still to come; the keys seen are those of the members done.
  induction rest generalizing seen done with
  | nil => rfl
  | cons m ms ih =>
    have hsplit : done ++ m :: ms = done ++ [m] ++ ms := by simp
    have hnext : (done ++ [m]).length = done.length + 1 := by simp
    have hnew : (((done ++ m :: ms).take done.length).all fun a => a.branchKey != m.branchKey) =
        !seen.contains m.branchKey := by
      rw [List.take_left, Bool.eq_iff_iff]
      simp [hseen]
    -- A member whose key was seen is dropped on both sides.
    by_cases hmem : m.branchKey ∈ seen
    · have hold : ∀ key, key ∈ seen ↔ key ∈ (done ++ [m]).map Member.branchKey := by
        intro key
        rw [List.map_append, List.mem_append, ← hseen, List.map_singleton, List.mem_singleton]
        exact ⟨Or.inl, fun h => h.elim id fun heq => heq ▸ hmem⟩
      rw [firstOfKeys, if_pos (List.contains_iff_mem.mpr hmem), List.zipIdx_cons,
        List.filter_cons_of_neg (by rw [hnew]; simpa using hmem), ih _ hold, hnext, ← hsplit]
    · have hadded : ∀ key, key ∈ m.branchKey :: seen ↔
          key ∈ (done ++ [m]).map Member.branchKey := by
        intro key
        rw [List.map_append, List.mem_append, ← hseen, List.map_singleton, List.mem_singleton,
          List.mem_cons]
        exact or_comm
      rw [firstOfKeys, if_neg (by simpa using hmem), List.zipIdx_cons,
        List.filter_cons_of_pos (by rw [hnew]; simpa using hmem), List.map_cons, ih _ hadded, hnext,
        ← hsplit]

theorem firstOfKeys_eq_firstOccurrences (members : List Member) :
    firstOfKeys [] members = firstOccurrences members :=
  firstOfKeys_eq_filter [] members (by simp)

/-- The branches of members have different variants, and are made for the first member of each key,
in order. The variant of a branch is that of its member's name if no branch before it has this one,
and otherwise the name with the least number, from 2 on, that none has. -/
theorem branches_distinct_and_first (members : List Member) :
    ((branches members).value.map Branch.variant).Nodup ∧
    (branches members).value.map Branch.member = firstOccurrences members ∧
    ∀ before b after, (branches members).value = before ++ b :: after →
      let base := toVariantName b.member.name
      let taken := before.map Branch.variant
      (base ∉ taken → b.variant = base) ∧
      (base ∈ taken → ∃ n, 2 ≤ n ∧ b.variant = base ++ toString n ∧ b.variant ∉ taken ∧
        ∀ k, 2 ≤ k → k < n → base ++ toString k ∈ taken) := by
  refine ⟨nodup_variants_branchesAfter.1, ?_, ?_⟩
  · rw [map_member_branches, firstOfKeys_eq_firstOccurrences]
  · intro before b after h base taken
    have hvariant : b.variant = freshVariant (taken.reverse ++ []) base := variant_branchesAfter h
    rw [List.append_nil] at hvariant
    constructor
    · intro hfree
      rw [hvariant, freshVariant_of_notMem (by simpa using hfree)]
    -- The search goes over the names given so far in reverse, which has the same members.
    · intro htaken
      obtain ⟨n, hn, heq, hfree, hleast⟩ := freshVariant_of_mem (List.mem_reverse.mpr htaken)
      rw [hvariant, heq]
      simp only [List.mem_reverse] at hfree hleast
      exact ⟨n, hn, rfl, hfree, hleast⟩

/-- Members whose names differ in case or end in digits that another variant gets as its number. -/
def numberedMembers : List Member :=
  [⟨"name", "name", "u8", true, .nonNullable⟩, ⟨"Name", "Name", "u16", true, .nonNullable⟩,
    ⟨"NAME", "NAME", "u8", true, .nonNullable⟩, ⟨"name2", "name2", "u8", true, .nonNullable⟩,
    ⟨"naME", "naME", "u32", true, .nonNullable⟩]

theorem branches_distinct_and_first_numbered :
    (branches numberedMembers).value.map Branch.variant = ["Name", "Name2", "Name22", "NaME"] ∧
      ["Name", "Name2", "Name22", "NaME"].Nodup ∧
      firstOccurrences numberedMembers =
        [⟨"name", "name", "u8", true, .nonNullable⟩, ⟨"Name", "Name", "u16", true, .nonNullable⟩,
          ⟨"name2", "name2", "u8", true, .nonNullable⟩,
          ⟨"naME", "naME", "u32", true, .nonNullable⟩] := by
  have hvariants : (branches numberedMembers).value.map Branch.variant =
      ["Name", "Name2", "Name22", "NaME"] := by decide +kernel
  obtain ⟨hnodup, hmembers, -⟩ := branches_distinct_and_first numberedMembers
  rw [hvariants] at hnodup
  refine ⟨hvariants, hnodup, hmembers.symm.trans ?_⟩
  decide +kernel

end Memberwise
